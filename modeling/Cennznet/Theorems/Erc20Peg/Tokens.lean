import Cennznet.Lib.Inverse
import Cennznet.Theorems.Erc20Peg.Solvency
import Mathlib.Data.List.Induction

/-! # Tokens and their assets

The genesis maps the token of the staking currency in one direction only. -/

namespace Erc20Peg

open StorageMap List

open EthBridge (Bytes EthAddress)
open GenericAsset (AssetId)

variable {K A : Type}

/-- Every token leads to an asset that leads back to it, and conversely. -/
def TokensInverse (s : State K A) : Prop :=
  ∀ token aid, s.erc20ToAssetId.get? token = some aid ↔ s.assetIdToErc20.get? aid = some token

def isCennz (erc20s : List (EthAddress × Bytes × BitVec 8)) (token : EthAddress) : Bool :=
  erc20s.any fun e => e.1 = token && e.2.1 = cennzSymbol

def Unused (cfg : Config A) (s : State K A) (aid : AssetId) : Prop :=
  aid ≠ cfg.stakingCurrency ∧ s.assetIdToErc20.get? aid = none ∧ ∀ token, s.erc20ToAssetId.get? token ≠ some aid

/-- The tokens of the staking currency lead to it, and it leads nowhere. -/
structure Books.Linked (cfg : Config A) (erc20s : List (EthAddress × Bytes × BitVec 8)) (b : Books A) :
    Prop where
  inverse : Lookup.Inverse (fun token => if isCennz erc20s token then none else b.tokens.get? token) b.pegged.get?
  cennz : ∀ {token}, isCennz erc20s token = true → b.tokens.get? token = some cfg.stakingCurrency
  staking : b.pegged.get? cfg.stakingCurrency = none

section

theorem genesis_token (stakingCurrency : AssetId) (erc20s : List (EthAddress × Bytes × BitVec 8))
    (assets : GenericAsset.State A) (bridge : EthBridge.State K A) (token : EthAddress) :
    (State.genesis stakingCurrency erc20s assets bridge).erc20ToAssetId.get? token =
      if isCennz erc20s token then some stakingCurrency else none := by
  -- the list is read from the left, so the last token is the one that may overwrite
  induction erc20s using List.reverseRecOn with
  | nil => exact get?_empty
  | append_singleton erc20s e ih =>
    have hl : (State.genesis stakingCurrency (erc20s ++ [e]) assets bridge).erc20ToAssetId =
        if e.2.1 = cennzSymbol then
          (State.genesis stakingCurrency erc20s assets bridge).erc20ToAssetId.insert e.1 stakingCurrency
        else (State.genesis stakingCurrency erc20s assets bridge).erc20ToAssetId := foldl_append
    have hany : isCennz (erc20s ++ [e]) token =
        (isCennz erc20s token || (decide (e.1 = token) && decide (e.2.1 = cennzSymbol))) := by
      unfold isCennz
      rw [any_append, any_cons, any_nil, Bool.or_false]
    rw [hl, hany]
    by_cases hsy : e.2.1 = cennzSymbol
    · by_cases had : token = e.1
      · simp [hsy, had]
      · simp [hsy, had, Ne.symm had, ih]
    · simp [hsy, ih]

theorem genesis_linked (cfg : Config A) (erc20s : List (EthAddress × Bytes × BitVec 8))
    (assets : GenericAsset.State A) (bridge : EthBridge.State K A) :
    (State.genesis cfg.stakingCurrency erc20s assets bridge).books.Linked cfg erc20s := by
  refine ⟨.of_none (fun token => ?_) fun _ => get?_empty, fun {token} hce => ?_, get?_empty⟩
  · split_ifs with hce
    · rfl
    · exact (genesis_token _ erc20s assets bridge token).trans (if_neg hce)
  · exact (genesis_token _ erc20s assets bridge token).trans (if_pos hce)

end

section
variable {cfg : Config A} {erc20s : List (EthAddress × Bytes × BitVec 8)} {b b' : Books A}
  {s : State K A} {token : EthAddress} {aid : AssetId}

theorem Books.Linked.of_eq (L : b.Linked cfg erc20s) (htok : b'.tokens = b.tokens) (hpe : b'.pegged = b.pegged) :
    b'.Linked cfg erc20s := by
  refine ⟨?_, ?_, ?_⟩
  · rw [htok, hpe]
    exact L.inverse
  · rw [htok]
    exact L.cennz
  · rw [hpe]
    exact L.staking

theorem Books.Linked.link (L : s.books.Linked cfg erc20s) (hnew : s.erc20ToAssetId.get? token = none)
    (hun : Unused cfg s aid) (assets : GenericAsset.State A) :
    (s.withAsset assets token aid).books.Linked cfg erc20s := by
  obtain ⟨hne, hf, -⟩ := hun
  have hpl : isCennz erc20s token = false := by
    refine Bool.eq_false_iff.mpr fun hce => ?_
    cases hnew.symm.trans (L.cennz hce)
  refine ⟨L.inverse.insert (a := token) (b := aid) ?_ hf (fun t => ?_) fun a => get?_insert,
    fun {t} hce => ?_, ?_⟩
  · exact (if_neg (Bool.eq_false_iff.mp hpl)).trans hnew
  · by_cases ht : t = token
    · rw [if_pos ht, ht, if_neg (Bool.eq_false_iff.mp hpl)]
      exact get?_insert_self
    · rw [if_neg ht]
      exact congrArg (fun x => if isCennz erc20s t then none else x) (get?_insert_ne ht)
  · refine (get?_insert_ne ?_).trans (L.cennz hce)
    rintro rfl
    rw [hpl] at hce
    cases hce
  · exact (get?_insert_ne (Ne.symm hne)).trans L.staking

variable [DecidableEq A] [Inhabited A]

theorem Books.Linked.deposited {ev : Erc20DepositEvent} {t : State K A} {n : GenericAsset.Balance}
    {ben : A} (L : s.books.Linked cfg erc20s)
    (hun : ∀ assets aid, createFor cfg s ev.tokenAddress = .ok (assets, aid) → Unused cfg s aid)
    (hp : doDeposit cfg s ev = .ok (t, aid, n, ben)) : t.books.Linked cfg erc20s := by
  obtain ⟨s₁, hst, -, -, rfl⟩ := doDeposit_eq_ok.mp hp
  rcases assetOf_eq_ok.mp hst with ⟨-, rfl⟩ | ⟨hnew, assets, hcr, rfl⟩
  · exact L.of_eq rfl rfl
  · exact (L.link hnew (hun assets aid hcr) assets).of_eq rfl rfl

variable [DecidableEq K]

def CreatesUnused (cfg : Config A) (s : State K A) : SystemOp K A → Prop
  | .peg op => ∀ event assets aid, op.deposit? cfg s = some event →
      createFor cfg s event.tokenAddress = .ok (assets, aid) → Unused cfg s aid
  | .ledger _ => True

theorem systemStep_linked {op : SystemOp K A} (hop : CreatesUnused cfg s op)
    (L : s.books.Linked cfg erc20s) : (systemStep cfg s op).books.Linked cfg erc20s := by
  cases op with
  | ledger assets => exact L.of_eq rfl rfl
  | peg op =>
    show (step cfg s op).books.Linked cfg erc20s
    cases step_effect cfg s op with
    | frame books =>
      rw [books]
      exact L
    | delayed claim tx room books =>
      rw [books]
      exact L.of_eq rfl rfl
    | processed books =>
      obtain ⟨-, htok, hpe⟩ := processed_leaves books
      exact L.of_eq htok hpe
    | withdrew o aid n token ben assets pegged took books =>
      obtain ⟨-, htok, hpe⟩ := withdrew_leaves books
      exact L.of_eq htok hpe
    | deposited ev t aid n ben executed paid books =>
      rw [books]
      exact (L.deposited (fun assets aid => hop ev assets aid executed) paid).of_eq rfl rfl

end

/-- However the peg is run, its maps are inverse exactly if the genesis lists no token of the staking currency. -/
theorem tokens_inverse_iff [DecidableEq A] [Inhabited A] [DecidableEq K] (cfg : Config A)
    (erc20s : List (EthAddress × Bytes × BitVec 8)) (assets : GenericAsset.State A) (bridge : EthBridge.State K A)
    (ops : List (SystemOp K A))
    (hrun : Steps.Each (systemStep cfg) (CreatesUnused cfg) (State.genesis cfg.stakingCurrency erc20s assets bridge) ops) :
    TokensInverse (Steps.execute (systemStep cfg) (State.genesis cfg.stakingCurrency erc20s assets bridge) ops) ↔
      ∀ e ∈ erc20s, e.2.1 ≠ cennzSymbol := by
  have L := hrun.invariant (I := fun s : State K A => s.books.Linked cfg erc20s)
    (fun _ _ hop L => systemStep_linked hop L) (genesis_linked cfg erc20s assets bridge)
  generalize Steps.execute (systemStep cfg) (State.genesis cfg.stakingCurrency erc20s assets bridge) ops = s at L ⊢
  constructor
  · intro hie e he hsy
    have hce : isCennz erc20s e.1 = true := any_eq_true.mpr ⟨e, he, by simp [hsy]⟩
    -- the token leads to the staking currency, which leads nowhere
    cases L.staking.symm.trans ((hie _ _).mp (L.cennz hce))
  · intro hn token aid
    have hpl : isCennz erc20s token = false := by
      refine any_eq_false.mpr fun e he => ?_
      simp [hn e he]
    have hlo : (if isCennz erc20s token then none else s.books.tokens.get? token) = s.erc20ToAssetId.get? token :=
      if_neg (Bool.eq_false_iff.mp hpl)
    rw [← hlo]
    exact L.inverse token aid

def plainGenesis : State Nat Nat :=
  State.genesis 16000 [(300, [85, 83, 68], 6)] (GenericAsset.State.genesis 17000) (EthBridge.State.genesis [])

theorem tokens_inverse_after_deposit :
    let s := Steps.execute (systemStep sampleConfig) plainGenesis
      [.peg (.onSuccess 1 0 1 (Erc20DepositEvent.encode ⟨300, 9, 7⟩))]
    s.erc20ToAssetId.get? 300 = some 17000 ∧ s.assetIdToErc20.get? 17000 = some 300 ∧ TokensInverse s := by
  have hun : Steps.Each (systemStep sampleConfig) (CreatesUnused sampleConfig) plainGenesis
      [.peg (.onSuccess 1 0 1 (Erc20DepositEvent.encode ⟨300, 9, 7⟩))] := by
    refine ⟨fun ev assets aid _ hcr => ?_, trivial⟩
    obtain ⟨-, rfl, -⟩ := createFor_eq_ok.mp hcr
    refine ⟨by decide, by decide +kernel, fun token hma => ?_⟩
    have hst := (genesis_token ..).symm.trans hma
    split at hst <;> cases hst
  refine ⟨by decide +kernel, by decide +kernel, ?_⟩
  refine (tokens_inverse_iff sampleConfig [(300, [85, 83, 68], 6)] _ _ _ hun).mpr fun e he => ?_
  rw [mem_singleton.mp he]
  decide

/-- With its token in the genesis, the staking currency is not mapped back, and withdrawals of it are refused. -/
theorem cennz_mapped_one_way :
    let s := step sampleConfig (sampleGenesis [50]) (.call (.activateWithdrawals true))
    (s.erc20ToAssetId.get? 206 = some 16000 ∧ s.assetIdToErc20.get? 16000 = none ∧ ¬TokensInverse s) ∧
      (doWithdrawal sampleConfig s 50 16000 1 900 .runtime).map (·.2) = .error .unsupportedAsset := by
  intro s
  have hfo : s.erc20ToAssetId.get? 206 = some 16000 := by decide +kernel
  have hba : s.assetIdToErc20.get? 16000 = none := by decide +kernel
  refine ⟨⟨hfo, hba, fun hie => ?_⟩, by decide +kernel⟩
  cases hba.symm.trans ((hie 206 16000).mp hfo)

end Erc20Peg
