import Cennznet.Theorems.Nft.Hook
import Cennznet.Theorems.Precompiles.Logs
import Mathlib.Data.List.Induction

/-! # Approvals end with ownership

The approvals are told of a transfer, but not of a mint. -/

namespace Precompiles

open EthBridge (EthAddress)
open Nft (SerialNumber SeriesKey TokenId)
open PrefixedAddressMapping (intoAccountId)
open Result Steps StorageMap List

inductive Op where
  | nft (op : Nft.Op AccountId)
  | erc721 (context : Context) (key : SeriesKey) (call : Erc721PrecompileSet.Call)

def step (cfg : Nft.Config AccountId) (c : Chain) : Op → Chain
  | .nft op => c.setNft (Nft.step cfg c.nft op)
  | .erc721 context key call => Erc721PrecompileSet.step key c (context, call)

def Chain.holder (c : Chain) (t : TokenId) : Option AccountId := c.nft.tokenOwner.get? (Nft.ownerKey t)

def Chain.approved (c : Chain) (t : TokenId) : Option EthAddress := c.approvals.erc721Approvals.get? t

theorem intoAccountId_ne_default (owner : EthAddress) : intoAccountId owner ≠ default := by
  intro h
  have hpr : (intoAccountId owner).extractLsb' 168 88 = PrefixedAddressMapping.accountPrefix :=
    (BitVec.extractLsb'_append_eq_of_le (by decide)).trans BitVec.extractLsb'_append_eq_left
  rw [h] at hpr
  exact absurd hpr (by decide)

variable {cfg : Nft.Config AccountId} {c : Chain} {t : TokenId} {a b : AccountId} {operator : EthAddress}

theorem setNft_approved {nft : Nft.State AccountId} : (c.setNft nft).approved t =
    if t ∈ nft.nftTransfers.drop c.nft.nftTransfers.length then none else c.approved t := by
  have hfo : ∀ (l : List TokenId) (s : TokenApprovals.State),
      (l.foldl TokenApprovals.onNftTransfer s).erc721Approvals = s.erc721Approvals.removeAll l := by
    intro l
    induction l with
    | nil => exact fun _ => rfl
    | cons u l ih => exact fun s => ih (TokenApprovals.onNftTransfer s u)
  unfold Chain.approved Chain.setNft
  rw [hfo, get?_removeAll]

/-- Who comes into a token finds no approval. -/
def EndsApprovals (cfg : Nft.Config AccountId) (c : Chain) (op : Op) : Prop :=
  ∀ t b, (step cfg c op).holder t = some b → c.holder t ≠ some b → (step cfg c op).approved t = none

/-- Of the tokens that a mint gives out, by the serial numbers in use before, none has an approval, unless it goes to who
holds it already. -/
def MintsFresh (cfg : Nft.Config AccountId) (c : Chain) : Op → Prop
  | .nft (.call o call) => (Nft.dispatch cfg c.nft o call).isOk = true → ∀ t, Nft.ownerKey t ∈ call.minted c.nft →
    c.approved t = none ∨ c.holder t = some (call.receiver o)
  | _ => True

theorem setNft_ends {nft : Nft.State AccountId} (h : Nft.Told c.nft nft) (hb : (c.setNft nft).holder t = some b)
    (hne : c.holder t ≠ some b) : (c.setNft nft).approved t = none := by
  rw [setNft_approved, if_pos (h.mem hb hne)]

theorem endsApprovals_iff (c : Chain) (op : Op) : EndsApprovals cfg c op ↔ MintsFresh cfg c op := by
  cases op with
  | nft op =>
    cases op with
    | call o call =>
      simp only [EndsApprovals, MintsFresh, step, Nft.step_call]
      cases hd : Nft.dispatch cfg c.nft o call with
      | error => exact iff_of_true (fun _ _ hb hne => absurd hb hne) fun hok => by cases hok
      | ok nft =>
        simp only [Result.getD]
        cases hm : call.mints with
        | false =>
          refine iff_of_true (fun t b hb hne => ?_) fun _ t ht => ?_
          · rw [setNft_approved, if_pos (Nft.dispatch_told hm hd hb hne)]
          · rw [Nft.Call.minted_eq_nil hm] at ht
            cases ht
        | true =>
          obtain ⟨hsi, hwn⟩ := Nft.dispatch_mint hm hd
          have hk (t : TokenId) : (c.setNft nft).approved t = c.approved t := by
            rw [setNft_approved, hsi, drop_length, if_neg not_mem_nil]
          have hho (t : TokenId) : (c.setNft nft).holder t =
              if Nft.ownerKey t ∈ call.minted c.nft then some (call.receiver o) else c.holder t :=
            (congrArg (·.get? (Nft.ownerKey t)) hwn).trans get?_insertAll
          refine ⟨fun h _ t ht => ?_, fun h t b hb hne => ?_⟩
          · by_cases hold : c.holder t = some (call.receiver o)
            · exact .inr hold
            · exact .inl ((hk t).symm.trans (h t _ ((hho t).trans (if_pos ht)) hold))
          · rw [hho] at hb
            split_ifs at hb with ht
            · exact (hk t).trans ((h rfl t ht).resolve_right (hb ▸ hne))
            · exact absurd hb hne
    | onInitialize => exact iff_of_true (fun _ _ hb hne => setNft_ends Nft.step_onInitialize_told hb hne) trivial
  | erc721 x key call =>
    refine iff_of_true (fun t b hb hne => ?_) trivial
    revert hb
    refine getD_cases (P := fun y : Chain × List (Log 32) => y.1.holder t = some b → y.1.approved t = none) (fun y hy hb => ?_)
      fun hb => absurd hb hne
    cases call with
    | approve operator n =>
      have h : Erc721PrecompileSet.approve c x key operator n = .ok y := hy
      simp only [Erc721PrecompileSet.approve, bind_eq_ok, pure_eq_ok] at h
      obtain ⟨_, -, _, -, rfl⟩ := h
      exact absurd hb hne
    | transferFrom source dest n =>
      obtain ⟨m, nft, -, -, htr, hc, -⟩ := Erc721PrecompileSet.transferFrom_inv hy
      rw [hc] at hb ⊢
      exact setNft_ends (Nft.transferBatch_told htr) hb hne

theorem holder_of_ownerOf {owner : EthAddress} (h : c.nft.ownerOf t = intoAccountId owner) :
    c.holder t = some (intoAccountId owner) :=
  Nft.owner_of_ownerOf h (intoAccountId_ne_default owner)

theorem approved_step {op : Op} (h : (step cfg c op).approved t = some operator) : c.approved t = some operator ∨
    ∃ x n, op = .erc721 x (t.1, t.2.1) (.approve operator n) ∧ n.toNat = t.2.2.toNat ∧
      c.holder t = some (intoAccountId x.caller) := by
  have hse {nft : Nft.State AccountId} (h : (c.setNft nft).approved t = some operator) : c.approved t = some operator := by
    rw [setNft_approved] at h
    split at h
    · cases h
    · exact h
  cases op with
  | nft op => exact .inl (hse h)
  | erc721 x key call =>
    cases hd : Erc721PrecompileSet.call c x key call with
    | error =>
      rw [step, Erc721PrecompileSet.step, Erc721PrecompileSet.outcome, hd] at h
      exact .inl h
    | ok y =>
      rw [step, Erc721PrecompileSet.step, Erc721PrecompileSet.outcome, hd] at h
      cases call with
      | approve op' n =>
        simp only [Erc721PrecompileSet.call, Erc721PrecompileSet.approve, bind_eq_ok, mapError_eq_ok,
          TokenApprovals.erc721Approval, ensure_eq_ok, pure_eq_ok] at hd
        obtain ⟨m, hm, _, ⟨-, -, -, hwn, rfl⟩, rfl⟩ := hd
        rcases get?_insert_eq_some.mp h with ⟨rfl, rfl⟩ | ⟨-, hold⟩
        · exact .inr ⟨x, n, rfl, (Erc721PrecompileSet.readSerialNumber_eq_ok hm).symm, holder_of_ownerOf hwn⟩
        · exact .inl hold
      | transferFrom source dest n =>
        obtain ⟨m, nft, -, -, -, hc, -⟩ := Erc721PrecompileSet.transferFrom_inv hd
        exact .inl (hse (hc ▸ h))

/-- The token was approved by `owner`, whose it was from then on. -/
def HeldSince (cfg : Nft.Config AccountId) (start : Chain) (done : List Op) (t : TokenId) (owner operator : EthAddress) :
    Prop :=
  ∃ before x n rest, done = before ++ .erc721 x (t.1, t.2.1) (.approve operator n) :: rest ∧
    n.toNat = t.2.2.toNat ∧ x.caller = owner ∧ ∀ mid, mid <+: rest →
      (execute (step cfg) start (before ++ .erc721 x (t.1, t.2.1) (.approve operator n) :: mid)).holder t =
        some (intoAccountId owner)

def Chain.genesis (assets : GenericAsset.State AccountId) : Chain := ⟨.genesis assets, .genesis⟩

theorem heldSince {assets : GenericAsset.State AccountId} {ops : List Op} {owner : EthAddress}
    (h : Each (step cfg) (EndsApprovals cfg) (.genesis assets) ops)
    (hap : (execute (step cfg) (.genesis assets) ops).approved t = some operator)
    (hwn : (execute (step cfg) (.genesis assets) ops).holder t = some (intoAccountId owner)) :
    HeldSince cfg (.genesis assets) ops t owner operator := by
  induction ops using List.reverseRecOn with
  | nil => cases hap
  | append_singleton ops op ih =>
    obtain ⟨h, hends, -⟩ := each_append.mp h
    have hnow := hwn
    rw [execute_concat] at hap hwn
    have hbe : (execute (step cfg) (.genesis assets) ops).holder t = some (intoAccountId owner) := by
      by_contra hne
      cases hap.symm.trans (hends t _ hwn hne)
    rcases approved_step hap with hold | ⟨x, n, rfl, hn, hx⟩
    · obtain ⟨before, x, n, rest, rfl, hn, hx, hheld⟩ := ih h hold hbe
      refine ⟨before, x, n, rest ++ [op], by simp, hn, hx, fun mid hmid => ?_⟩
      rcases prefix_concat_iff.mp hmid with rfl | hmid
      · rwa [append_assoc] at hnow
      · exact hheld mid hmid
    · obtain rfl : x.caller = owner := intoAccountId_injective (Option.some.inj (hx.symm.trans hbe))
      refine ⟨ops, x, n, [], rfl, hn, rfl, fun mid hmid => ?_⟩
      obtain rfl := prefix_nil.mp hmid
      exact hnow

/-- Approvals end with the ownership of who gave them, and are used during it, exactly if no mint gives away an approved
token. -/
theorem approvals_end_iff (cfg : Nft.Config AccountId) (assets : GenericAsset.State AccountId) (ops : List Op) :
    (Each (step cfg) (EndsApprovals cfg) (.genesis assets) ops ∧
      ∀ done x key source dest n, done ++ [.erc721 x key (.transferFrom source dest n)] <+: ops →
        let c := execute (step cfg) (.genesis assets) done
        (Erc721PrecompileSet.transferFrom c x key source dest n).isOk = true → ∀ m : SerialNumber, m.toNat = n.toNat →
          c.approved (key.1, key.2, m) = some x.caller →
            HeldSince cfg (.genesis assets) done (key.1, key.2, m) source x.caller) ↔
    Each (step cfg) (MintsFresh cfg) (.genesis assets) ops := by
  refine ⟨fun h => (each_congr endsApprovals_iff).mp h.1, fun h => ?_⟩
  have hends := (each_congr endsApprovals_iff).mpr h
  refine ⟨hends, fun done x key source dest n hpre hok m hm hap => ?_⟩
  obtain ⟨rest, rfl⟩ := (prefix_append done _).trans hpre
  obtain ⟨⟨c', logs⟩, hc⟩ := exists_eq_ok hok
  obtain ⟨m', nft, hm', -, htr, -⟩ := Erc721PrecompileSet.transferFrom_inv hc
  obtain rfl : m = m' := BitVec.eq_of_toNat_eq (hm.trans hm'.symm)
  exact heldSince (each_append.mp hends).1 hap (holder_of_ownerOf (Erc721PrecompileSet.ownerOf_setNft htr).1)

def plainConfig : Nft.Config AccountId where
  assets := ⟨0⟩
  defaultListingDuration := 100
  permillMul := fun _ _ => 0
  binarySearch := fun ids id => ids.idxOf? id
  listingOrder := fun _ _ => true

/-- Address 2 buys tokens of two series and so gets serial number 1 of the first, which it approves. Then this token is
minted, for address 1. -/
def soldBeforeMinted : List Op := [
  .nft (.call (intoAccountId 1) (.createCollection [97] none)),
  .nft (.call (intoAccountId 1) (.mintSeries 0 1 none (.https [97]) none)),
  .nft (.call (intoAccountId 1) (.mintSeries 0 2 none (.https [97]) none)),
  .nft (.call (intoAccountId 1) (.sellBundle [(0, 0, 0), (0, 1, 1)] none 1 0 none none)),
  .nft (.call (intoAccountId 2) (.buy 0)),
  .erc721 ⟨0, 2⟩ (0, 0) (.approve 3 1),
  .nft (.call (intoAccountId 1) (.mintAdditional 0 0 1 none))]

theorem approval_outlives : ∃ c, execute (step plainConfig) (.genesis (.genesis 0)) soldBeforeMinted = c ∧
    c.holder (0, 0, 1) = some (intoAccountId 1) ∧ c.approved (0, 0, 1) = some 3 ∧
    (step plainConfig c (.erc721 ⟨0, 3⟩ (0, 0) (.transferFrom 1 3 1))).holder (0, 0, 1) = some (intoAccountId 3) :=
  ⟨_, rfl, by decide +kernel, by decide +kernel, by decide +kernel⟩

end Precompiles
