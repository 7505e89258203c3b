import Cennznet.Staking.Slashing
import Cennznet.Theorems.GenericAsset.Credit

/-! # A slash moves money -/

namespace GenericAsset

open Word List

variable {A : Type} [DecidableEq A] {s s' s'' : State A} {aid : AssetId} {who : A}
  {gain gain' loss loss' : A → Nat} {gained gained' lost lost' : Nat} {v : Balance}

structure Shifted (s s' : State A) (aid : AssetId) (gain loss : A → Nat) (gained lost : Nat) : Prop where
  free : ∀ x, s'.freeOf aid x + loss x = s.freeOf aid x + gain x
  reserved : ∀ x, s'.reservedOf aid x = s.reservedOf aid x
  holdings : s'.holdings aid + lost = s.holdings aid + gained
  issuance : s'.issuanceOf aid = s.issuanceOf aid

namespace Shifted

theorem refl : Shifted s s aid (fun _ => 0) (fun _ => 0) 0 0 := ⟨fun _ => rfl, fun _ => rfl, rfl, rfl⟩

theorem trans (h : Shifted s s' aid gain loss gained lost) (h' : Shifted s' s'' aid gain' loss' gained' lost') :
    Shifted s s'' aid (fun x => gain x + gain' x) (fun x => loss x + loss' x) (gained + gained') (lost + lost') where
  free x := by
    have hfi := h.free x
    have hse := h'.free x
    omega
  reserved x := (h'.reserved x).trans (h.reserved x)
  holdings := by
    have hfi := h.holdings
    have hse := h'.holdings
    omega
  issuance := h'.issuance.trans h.issuance

theorem dropNegative_zero (h : Shifted s s' aid gain loss gained lost) (a : AssetId) :
    Shifted s (dropNegative s' ⟨0, a⟩) aid gain loss gained lost :=
  ⟨h.free, h.reserved, h.holdings, (dropNegative_zero_issuanceOf a).trans h.issuance⟩

end Shifted

theorem setFreeBalance_credits (hfit : s.freeOf aid who + v.toNat < 2 ^ 128) :
    Shifted s (setFreeBalance s aid who (s.free aid who + v)) aid (gainOf who v.toNat) (fun _ => 0) v.toNat 0 := by
  have hsum : (s.free aid who + v).toNat = s.freeOf aid who + v.toNat := BitVec.toNat_add_of_lt hfit
  have hset := setFreeBalance_holdings s aid who (s.free aid who + v)
  exact ⟨setFreeBalance_gain hsum, fun _ => rfl, by omega, rfl⟩

theorem setFreeBalance_debits (hle : v.toNat ≤ s.freeOf aid who) :
    Shifted s (setFreeBalance s aid who (s.free aid who - v)) aid (fun _ => 0) (gainOf who v.toNat) 0 v.toNat := by
  have hsub : (s.free aid who - v).toNat = s.freeOf aid who - v.toNat := toNat_sub_of_le hle
  have hset := setFreeBalance_holdings s aid who (s.free aid who - v)
  refine ⟨fun x => ?_, fun _ => rfl, by omega, rfl⟩
  rw [setFreeBalance_freeOf, Function.update_apply, gainOf]
  split_ifs with hx
  · rw [hx, hsub]
    exact Nat.sub_add_cancel hle
  · rfl

theorem assetCurrency_depositCreating_eq (hfit : s.freeOf aid who + v.toNat < 2 ^ 128) :
    AssetCurrency.depositCreating s aid who v = (setFreeBalance s aid who (s.free aid who + v), ⟨v, aid⟩) := by
  have hsum : (s.free aid who + v).toNat = (s.free aid who).toNat + v.toNat := BitVec.toNat_add_of_lt hfit
  have hle : (s.free aid who).toNat ≤ (s.free aid who + v).toNat := by omega
  unfold AssetCurrency.depositCreating AssetCurrency.makeFreeBalanceBe MultiCurrency.makeFreeBalanceBe
  dsimp only
  rw [if_pos hle, BitVec.add_comm, BitVec.add_sub_cancel]

theorem resolveCreating_credits (a : AssetId) (hfit : s.freeOf aid who + v.toNat < 2 ^ 128) :
    Shifted s (AssetCurrency.resolveCreating s aid who ⟨v, a⟩) aid (gainOf who v.toNat) (fun _ => 0) v.toNat 0 := by
  have hof : NegativeImbalance.offset ⟨v, a⟩ ⟨v, aid⟩ = .same ⟨0, a⟩ := by
    unfold NegativeImbalance.offset
    rw [if_pos (Nat.le_refl _), BitVec.sub_self]
    rfl
  unfold AssetCurrency.resolveCreating
  dsimp only
  rw [assetCurrency_depositCreating_eq hfit]
  dsimp only
  rw [hof]
  exact (setFreeBalance_credits hfit).dropNegative_zero a

theorem assetCurrency_slash_covered (hle : v.toNat ≤ s.freeOf aid who) : AssetCurrency.slash s aid who v =
      (setFreeBalance s aid who (s.free aid who - v), ⟨v, aid⟩, 0) := by
  have hall : (if (s.free aid who).toNat ≤ v.toNat then s.free aid who else v) = v := by
    refine BitVec.eq_of_toNat_eq ?_
    rw [toNat_lesser]
    exact Nat.min_eq_right hle
  unfold AssetCurrency.slash slash
  dsimp only
  rw [hall, if_neg (Nat.lt_irrefl _)]

end GenericAsset

namespace Staking.Slashing

open StorageMap Word List
open GenericAsset

/-! ### Taking -/

theorem applySlash_total_le (total target slash mn : Balance) :
    (StakingLedger.applySlash total target slash mn).1.toNat ≤ total.toNat := by
  unfold StakingLedger.applySlash
  dsimp only
  generalize (if slash.toNat ≤ target.toNat then slash else target) = taken
  split
  · exact Nat.le_refl _
  · split <;> simp only [toNat_saturatingSub] <;> omega

theorem slashChunks_total_le (mn total v : Balance) (cs : List UnlockChunk) :
    (StakingLedger.slashChunks mn total v cs).1.toNat ≤ total.toNat := by
  induction cs generalizing total v with
  | nil => exact Nat.le_refl _
  | cons chunk cs ih =>
    have hle := applySlash_total_le total chunk.value v mn
    unfold StakingLedger.slashChunks
    dsimp only
    split
    · exact (ih _ _).trans hle
    · exact hle

theorem slash_total {A : Type} (l : StakingLedger A) (v mn : Balance) :
    (l.slash v mn).1.total.toNat + (l.slash v mn).2.toNat = l.total.toNat := by
  unfold StakingLedger.slash
  dsimp only
  rw [toNat_saturatingSub]
  exact Nat.add_sub_cancel' ((slashChunks_total_le ..).trans (applySlash_total_le ..))

variable {A : Type} [DecidableEq A] {cfg : Config A}

def Covered (aid : AssetId) (s : Staking.State A) : Prop :=
  ∀ stash ct l, s.bonds.bonded.get? stash = some ct → s.bonds.ledger.get? ct = some l →
    l.total.toNat ≤ s.assets.freeOf aid stash

structure Took (aid : AssetId) (s : Staking.State A) (payout : Balance) (imb : NegativeImbalance)
    (r : Staking.State A × Balance × NegativeImbalance) : Prop where
  covered : Covered aid r.1
  payout : r.2.1 = payout
  asset : r.2.2.assetId = imb.assetId
  taken : ∃ taken total, Shifted s.assets r.1.assets aid (fun _ => 0) taken 0 total ∧
    r.2.2.amount.toNat = imb.amount.toNat + total

section
variable {aid : AssetId} {s : Staking.State A} {payout : Balance} {imb : NegativeImbalance}

theorem Took.refl (hco : Covered aid s) : Took aid s payout imb (s, payout, imb) :=
  ⟨hco, rfl, rfl, fun _ => 0, 0, .refl, rfl⟩

theorem Covered.slash {stash ctl : A} {l l' : StakingLedger A} {v : Balance}
    {assets : GenericAsset.State A} (hco : Covered aid s)
    (hbo : s.bonds.bonded.get? stash = some ctl) (hl : s.bonds.ledger.get? ctl = some l)
    (htot : l'.total.toNat + v.toNat = l.total.toNat)
    (hss : Shifted s.assets assets aid (fun _ => 0) (gainOf stash v.toNat) 0 v.toNat) :
    Covered aid { s with assets := assets, bonds := ⟨s.bonds.bonded, s.bonds.ledger.insert ctl l'⟩ } := by
  intro stash' ctl' k hbo' hk
  have hf := hss.free stash'
  dsimp only at hbo' hk ⊢
  rcases get?_insert_eq_some.mp hk with ⟨rfl, rfl⟩ | ⟨hne, hold⟩
  · have hle := hco stash' ctl' l hbo' hl
    unfold gainOf at hf
    split at hf <;> omega
  · have hle := hco stash' ctl' k hbo' hold
    have hoth : stash' ≠ stash := by
      rintro rfl
      exact hne (Option.some.inj (hbo'.symm.trans hbo))
    rw [GenericAsset.gainOf_ne hoth] at hf
    omega

theorem doSlash_took (hco : Covered cfg.staking.stakingAssetId s) (stash : A) (v : Balance)
    (hfit : imb.amount.toNat + s.assets.holdings cfg.staking.stakingAssetId < 2 ^ 128) :
    Took cfg.staking.stakingAssetId s payout imb (doSlash cfg.staking s stash v payout imb) := by
  unfold doSlash
  cases hbo : s.bonds.bonded.get? stash with
  | none => exact .refl hco
  | some ctl =>
    dsimp only
    cases hl : s.bonds.ledger.get? ctl with
    | none => exact .refl hco
    | some l =>
      dsimp only
      have htot := slash_total l v (s.assets.existentialDeposit cfg.staking.stakingAssetId)
      generalize l.slash v (s.assets.existentialDeposit cfg.staking.stakingAssetId) = slashed at *
      obtain ⟨l', v⟩ := slashed
      dsimp only at htot ⊢
      split
      · exact .refl hco
      · have hle := hco stash ctl l hbo hl
        have hva : v.toNat ≤ s.assets.freeOf cfg.staking.stakingAssetId stash := by omega
        have hss := GenericAsset.setFreeBalance_debits hva
        have hhe := GenericAsset.freeOf_le_holdings s.assets cfg.staking.stakingAssetId stash
        rw [GenericAsset.assetCurrency_slash_covered hva]
        refine ⟨hco.slash hbo hl htot ⟨hss.free, hss.reserved, hss.holdings, hss.issuance⟩, ?_, rfl,
          _, _, ⟨hss.free, hss.reserved, hss.holdings, hss.issuance⟩, ?_⟩
        · refine BitVec.eq_of_toNat_eq ?_
          rw [toNat_saturatingSub]
          exact Nat.sub_zero _
        · dsimp only
          rw [toNat_saturatingAdd]
          omega

theorem slashStakers_cons (slash : A × Balance) (slashes : List (A × Balance)) :
    slashStakers cfg (slash :: slashes) s payout imb =
      slashStakers cfg slashes (doSlash cfg.staking s slash.1 slash.2 payout imb).1
        (doSlash cfg.staking s slash.1 slash.2 payout imb).2.1
        (doSlash cfg.staking s slash.1 slash.2 payout imb).2.2 := rfl

theorem slashStakers_took (slashes : List (A × Balance)) (hco : Covered cfg.staking.stakingAssetId s)
    (hfit : imb.amount.toNat + s.assets.holdings cfg.staking.stakingAssetId < 2 ^ 128) :
    Took cfg.staking.stakingAssetId s payout imb (slashStakers cfg slashes s payout imb) := by
  induction slashes generalizing s imb with
  | nil => exact .refl hco
  | cons slash slashes ih =>
    have hfi : Took cfg.staking.stakingAssetId s payout imb
        (doSlash cfg.staking s slash.1 slash.2 payout imb) := doSlash_took hco slash.1 slash.2 hfit
    rw [slashStakers_cons]
    generalize doSlash cfg.staking s slash.1 slash.2 payout imb = r at *
    obtain ⟨t, payout', imb'⟩ := r
    obtain ⟨hco', rfl, hst, taken, total, hsh, hamo⟩ := hfi
    have hho := hsh.holdings
    dsimp only at hamo hho ⊢
    obtain ⟨hco'', hpa', has', taken', total', hsh', ham'⟩ :
        Took cfg.staking.stakingAssetId t payout' imb' (slashStakers cfg slashes t payout' imb') :=
      ih hco' (by omega)
    exact ⟨hco'', hpa', has'.trans hst, _, _, hsh.trans hsh', by omega⟩

end

/-! ### Paying -/

/-- `T::Slash` credits the treasury with what it is given of the asset, as long as it fits. -/
def CreditsTreasury (cfg : Config A) (treasury : A) : Prop :=
  ∀ (assets : GenericAsset.State A) (amt : Balance),
    assets.freeOf cfg.staking.stakingAssetId treasury + amt.toNat < 2 ^ 128 →
    Shifted assets (cfg.onUnbalanced assets ⟨amt, cfg.staking.stakingAssetId⟩) cfg.staking.stakingAssetId
      (gainOf treasury amt.toNat) (fun _ => 0) amt.toNat 0

/-- The handler of the runtime credits the treasury, unless the staking asset is asset 0, which it takes for nothing. -/
theorem slashFundsToTreasury_credits {treasury : A} (hst : cfg.staking.stakingAssetId ≠ 0)
    (hhandler : cfg.onUnbalanced = slashFundsToTreasury cfg.staking.stakingAssetId treasury) :
    CreditsTreasury cfg treasury := by
  intro assets n hfit
  rw [hhandler]
  unfold slashFundsToTreasury
  by_cases hz : n = 0
  · subst hz
    rw [if_pos (Or.inl rfl)]
    have hn : gainOf treasury (0 : Balance).toNat = fun _ => 0 := GenericAsset.gainOf_zero treasury
    rw [hn]
    exact Shifted.refl.dropNegative_zero _
  · rw [if_neg (not_or.mpr ⟨hz, hst⟩)]
    exact GenericAsset.resolveCreating_credits _ hfit

theorem split_amount {n : NegativeImbalance} {amt : Balance} (hle : amt.toNat ≤ n.amount.toNat) :
    n.split amt = (⟨amt, n.assetId⟩, ⟨n.amount - amt, n.assetId⟩) := by
  have hfi : (if n.amount.toNat ≤ amt.toNat then n.amount else amt) = amt := by
    refine BitVec.eq_of_toNat_eq ?_
    rw [toNat_lesser]
    exact Nat.min_eq_right hle
  unfold NegativeImbalance.split
  rw [hfi]

theorem count_cons_mul (reporter : A) (reps : List A) (n : Nat) :
    (fun x => (reporter :: reps).count x * n) = fun x => gainOf reporter n x + reps.count x * n := by
  funext x
  rw [count_cons, gainOf, Nat.add_mul, Nat.add_comm]
  by_cases hx : x = reporter
  · rw [if_pos hx, hx, beq_self_eq_true, if_pos rfl, Nat.one_mul]
  · rw [if_neg hx, if_neg (by simpa using Ne.symm hx), Nat.zero_mul]

theorem payEach_credits (share : Balance) (assets : GenericAsset.State A) (payout : NegativeImbalance)
    (reps : List A) (heh : reps.length * share.toNat ≤ payout.amount.toNat)
    (hfit : assets.holdings cfg.staking.stakingAssetId + payout.amount.toNat < 2 ^ 128) :
    Shifted assets (payEach cfg share assets payout reps).1 cfg.staking.stakingAssetId
        (fun x => reps.count x * share.toNat) (fun _ => 0) (reps.length * share.toNat) 0 ∧
      (payEach cfg share assets payout reps).2.assetId = payout.assetId ∧
      (payEach cfg share assets payout reps).2.amount.toNat + reps.length * share.toNat = payout.amount.toNat := by
  induction reps generalizing assets payout with
  | nil =>
    have hn : (fun x => ([] : List A).count x * share.toNat) = fun _ => 0 := by
      funext x
      rw [count_nil, Nat.zero_mul]
    rw [hn, length_nil, Nat.zero_mul]
    exact ⟨.refl, rfl, rfl⟩
  | cons reporter reps ih =>
    rw [length_cons, Nat.succ_mul] at heh ⊢
    have hsh : share.toNat ≤ payout.amount.toNat := by omega
    have hhe := GenericAsset.freeOf_le_holdings assets cfg.staking.stakingAssetId reporter
    have hp : Shifted assets (GenericAsset.AssetCurrency.resolveCreating assets cfg.staking.stakingAssetId reporter
        ⟨share, payout.assetId⟩) cfg.staking.stakingAssetId (gainOf reporter share.toNat) (fun _ => 0) share.toNat 0 :=
      GenericAsset.resolveCreating_credits payout.assetId (by omega)
    have hr : (payout.amount - share).toNat = payout.amount.toNat - share.toNat := toNat_sub_of_le hsh
    have hho := hp.holdings
    unfold payEach
    rw [split_amount hsh, count_cons_mul]
    dsimp only
    generalize GenericAsset.AssetCurrency.resolveCreating assets cfg.staking.stakingAssetId reporter
      ⟨share, payout.assetId⟩ = paid at *
    generalize hl : (⟨payout.amount - share, payout.assetId⟩ : NegativeImbalance) = left
    obtain ⟨hamo, hst⟩ : left.amount.toNat = payout.amount.toNat - share.toNat ∧ left.assetId = payout.assetId := by
      rw [← hl]
      exact ⟨hr, rfl⟩
    obtain ⟨hshi, hk, hsum⟩ := ih paid left (by omega) (by omega)
    have hall := hp.trans hshi
    rw [Nat.add_comm share.toNat] at hall
    exact ⟨hall, hk.trans hst, by omega⟩

def share (payout taken reporters : Nat) : Nat := min payout taken / reporters

def receives (treasury : A) (payout taken : Nat) (reporters : List A) (x : A) : Nat :=
  reporters.count x * share payout taken reporters.length +
    gainOf treasury (taken - reporters.length * share payout taken reporters.length) x

theorem parts_le (payout taken reps : Nat) : reps * share payout taken reps ≤ taken :=
  (Nat.mul_div_le _ _).trans (Nat.min_le_right _ _)

theorem toNat_share {reward : Balance} {payout taken reporters : Nat} (h : reward.toNat = min payout taken) :
    (BitVec.ofNat 128 (reward.toNat / reporters)).toNat = share payout taken reporters := by
  rw [BitVec.toNat_ofNat, share, ← h]
  exact Nat.mod_eq_of_lt (Nat.lt_of_le_of_lt (Nat.div_le_self _ _) reward.isLt)

theorem receives_of_none {treasury : A} {payout taken : Nat} {reps : List A}
    (h : payout = 0 ∨ reps = []) : receives treasury payout taken reps = gainOf treasury taken := by
  have hsh : share payout taken reps.length = 0 := by
    unfold share
    rcases h with rfl | rfl
    · rw [Nat.zero_min, Nat.zero_div]
    · exact Nat.div_zero _
  funext x
  rw [receives, hsh, Nat.mul_zero, Nat.mul_zero, Nat.zero_add, Nat.sub_zero]

theorem payReporters_credits {treasury : A} (hsl : CreditsTreasury cfg treasury)
    (assets : GenericAsset.State A) (payout n : Balance) (reps : List A)
    (hfit : assets.holdings cfg.staking.stakingAssetId + n.toNat < 2 ^ 128) :
    Shifted assets (payReporters cfg assets payout ⟨n, cfg.staking.stakingAssetId⟩ reps)
      cfg.staking.stakingAssetId (receives treasury payout.toNat n.toNat reps) (fun _ => 0) n.toNat 0 := by
  unfold payReporters
  split
  · rename_i hn
    have hno : payout.toNat = 0 ∨ reps = [] := hn.imp_left fun h => by rw [h]; rfl
    have hhe := GenericAsset.freeOf_le_holdings assets cfg.staking.stakingAssetId treasury
    rw [receives_of_none hno]
    exact hsl assets n (by omega)
  · have hpa : (if payout.toNat ≤ n.toNat then payout else n).toNat = min payout.toNat n.toNat := toNat_lesser
    dsimp only
    generalize (if payout.toNat ≤ n.toNat then payout else n) = reward at *
    have hre : reward.toNat ≤ n.toNat := by omega
    rw [split_amount hre]
    dsimp only
    have hper : (BitVec.ofNat 128 (reward.toNat / reps.length)).toNat =
        share payout.toNat n.toNat reps.length := toNat_share hpa
    have hpr := Nat.mul_div_le (min payout.toNat n.toNat) reps.length
    generalize BitVec.ofNat 128 (reward.toNat / reps.length) = per at *
    obtain ⟨hp, hst, hl⟩ := payEach_credits per assets ⟨reward, cfg.staking.stakingAssetId⟩ reps
      (show reps.length * per.toNat ≤ reward.toNat by rw [hper, hpa]; exact hpr)
      (show assets.holdings cfg.staking.stakingAssetId + reward.toNat < 2 ^ 128 by omega)
    generalize payEach cfg per assets ⟨reward, cfg.staking.stakingAssetId⟩ reps = paid at *
    obtain ⟨assets', rest⟩ := paid
    dsimp only at hp hst hl ⊢
    -- what has not been paid is put together again
    have hr : NegativeImbalance.subsume ⟨n - reward, cfg.staking.stakingAssetId⟩ rest =
        ⟨saturatingAdd (n - reward) rest.amount, cfg.staking.stakingAssetId⟩ := rfl
    have hsub : (n - reward).toNat = n.toNat - reward.toNat := toNat_sub_of_le hre
    have hsum : (saturatingAdd (n - reward) rest.amount).toNat = n.toNat - reps.length * per.toNat := by
      have hlt := n.isLt
      rw [toNat_saturatingAdd]
      omega
    rw [hr]
    generalize saturatingAdd (n - reward) rest.amount = left at *
    have hho := hp.holdings
    have hhe := GenericAsset.freeOf_le_holdings assets' cfg.staking.stakingAssetId treasury
    have hall := hp.trans (hsl assets' left (by omega))
    rw [hsum, hper, Nat.add_sub_cancel' (parts_le ..)] at hall
    exact hall

structure MovesMoney (cfg : Config A) (treasury : A) (u : UnappliedSlash A)
    (s slashed s' : Staking.State A) : Prop where
  /-- The sum of all balances and the issuance stay. -/
  holdings : s'.assets.holdings cfg.staking.stakingAssetId = s.assets.holdings cfg.staking.stakingAssetId
  issuance : s'.assets.issuanceOf cfg.staking.stakingAssetId = s.assets.issuanceOf cfg.staking.stakingAssetId
  reserved : ∀ x, s'.assets.reservedOf cfg.staking.stakingAssetId x = s.assets.reservedOf cfg.staking.stakingAssetId x
  /-- Slashing only takes, and all that is taken goes to the reporters and the treasury. -/
  taken : ∀ x, slashed.assets.freeOf cfg.staking.stakingAssetId x ≤ s.assets.freeOf cfg.staking.stakingAssetId x
  received : ∃ total, slashed.assets.holdings cfg.staking.stakingAssetId + total =
      s.assets.holdings cfg.staking.stakingAssetId ∧
    ∀ x, s'.assets.freeOf cfg.staking.stakingAssetId x = slashed.assets.freeOf cfg.staking.stakingAssetId x +
      receives treasury u.payout.toNat total u.reporters x

def slashedBy (cfg : Config A) (s : Staking.State A) (u : UnappliedSlash A) :
    Staking.State A × Balance × NegativeImbalance :=
  let issued := GenericAsset.AssetCurrency.issue s.assets cfg.staking.stakingAssetId 0
  slashStakers cfg ((u.validator, u.own) :: u.others) { s with assets := issued.1 } u.payout issued.2

theorem issue_zero (assets : GenericAsset.State A) (aid : AssetId) :
    Shifted assets (GenericAsset.AssetCurrency.issue assets aid 0).1 aid (fun _ => 0) (fun _ => 0) 0 0 ∧
      (GenericAsset.AssetCurrency.issue assets aid 0).2 = ⟨0, aid⟩ := by
  have hadd : checkedAdd (assets.issuanceOf aid) (0 : Balance) = some (assets.issuanceOf aid) :=
    checkedAdd_eq_some.mpr (Nat.add_zero _)
  unfold GenericAsset.AssetCurrency.issue
  dsimp only
  rw [hadd]
  exact ⟨⟨fun _ => rfl, fun _ => rfl, rfl, getD_insert.trans (if_pos rfl)⟩, rfl⟩

theorem slashedBy_took {s : Staking.State A} (u : UnappliedSlash A)
    (hco : Covered cfg.staking.stakingAssetId s) (hfit : s.assets.holdings cfg.staking.stakingAssetId < 2 ^ 128) :
    ∃ n taken, (slashedBy cfg s u).2 = (u.payout, ⟨n, cfg.staking.stakingAssetId⟩) ∧
      Shifted s.assets (slashedBy cfg s u).1.assets cfg.staking.stakingAssetId (fun _ => 0) taken 0 n.toNat := by
  obtain ⟨hiss, hz⟩ := issue_zero s.assets cfg.staking.stakingAssetId
  unfold slashedBy
  dsimp only
  rw [hz]
  generalize (GenericAsset.AssetCurrency.issue s.assets cfg.staking.stakingAssetId 0).1 = assets at *
  have hho := hiss.holdings
  have hsta : Covered cfg.staking.stakingAssetId { s with assets := assets } := by
    intro stash ctl l hbo hl
    have hle := hco stash ctl l hbo hl
    have hf := hiss.free stash
    dsimp only
    omega
  have hr : (0 : Balance).toNat + assets.holdings cfg.staking.stakingAssetId < 2 ^ 128 := by
    have hno : (0 : Balance).toNat = 0 := rfl
    omega
  obtain ⟨-, hpa, hst, taken, total, hsh, hamo⟩ :
      Took cfg.staking.stakingAssetId { s with assets := assets } u.payout ⟨0, cfg.staking.stakingAssetId⟩ _ :=
    slashStakers_took ((u.validator, u.own) :: u.others) hsta hr
  generalize slashStakers cfg ((u.validator, u.own) :: u.others) { s with assets := assets } u.payout
    ⟨0, cfg.staking.stakingAssetId⟩ = r at *
  obtain ⟨slashed, payout, n, aid⟩ := r
  dsimp only at hpa hst hsh hamo
  have htot : n.toNat = total := hamo.trans (Nat.zero_add total)
  refine ⟨n, taken, by rw [hpa, hst], ?_⟩
  have hall := hiss.trans hsh
  rw [htot]
  simpa only [Nat.zero_add] using hall

variable {cfg : Config A}

/-- Applying a slash only moves money if each stash has free what its ledger holds and the balances add up to a word.
Each occurrence of a reporter gets its part of the payout, or of what was taken if that is less, and the treasury the
rest. -/
theorem applySlash_moves_money {treasury : A} (hslash : CreditsTreasury cfg treasury) (s : Staking.State A)
    (u : UnappliedSlash A) (hcovered : Covered cfg.staking.stakingAssetId s)
    (hfit : s.assets.holdings cfg.staking.stakingAssetId < 2 ^ 128) :
    MovesMoney cfg treasury u s (slashedBy cfg s u).1 (applySlash cfg s u) := by
  obtain ⟨n, taken, hfu, hto⟩ := slashedBy_took u hcovered hfit
  have happ : applySlash cfg s u = { (slashedBy cfg s u).1 with
      assets := payReporters cfg (slashedBy cfg s u).1.assets (slashedBy cfg s u).2.1 (slashedBy cfg s u).2.2 u.reporters } :=
    rfl
  rw [happ, hfu]
  generalize (slashedBy cfg s u).1 = slashed at *
  have hho := hto.holdings
  have hp := payReporters_credits hslash slashed.assets u.payout n u.reporters (by omega)
  have haf := hp.holdings
  constructor
  · dsimp only
    omega
  · exact hp.issuance.trans hto.issuance
  · exact fun x => (hp.reserved x).trans (hto.reserved x)
  · intro x
    have hf := hto.free x
    omega
  · exact ⟨n.toNat, hho, hp.free⟩

def sampleStakers : Staking.State Nat where
  bonds := ⟨((∅ : StorageMap Nat Nat).insert 1 2).insert 3 4,
      ((∅ : StorageMap Nat (StakingLedger Nat)).insert 2 ⟨1, 50, 50, []⟩).insert 4 ⟨3, 50, 50, []⟩⟩
  assets := { GenericAsset.State.genesis 17000 with
    freeBalance := ((∅ : StorageMap (AssetId × Nat) Balance).insert (16000, 1) 100).insert (16000, 3) 100 }
  minimumBond := 1
  currentEra := some 0
  electionClosed := true
  slashingSpans := ∅

def sampleConfig : Config Nat where
  staking := ⟨16000, 28⟩
  slashDeferDuration := 27
  offendingValidatorsThreshold := Perbill.fromPercent 17
  slashRewardFraction := Perbill.fromPercent 10
  onUnbalanced := slashFundsToTreasury 16000 99
  dbWeight := .rocksDb
  weightSoftLimit := 1000000

/-- Of 10 and 7 slashed, 8 are for reporters: account 5, named twice, gets 4, account 6 gets 2, and the treasury 11. -/
theorem reporters_and_treasury_paid :
    let u : UnappliedSlash Nat := ⟨1, 10, [(3, 7)], [5, 6, 5], 8⟩
    let s := applySlash sampleConfig sampleStakers u
    [1, 3, 5, 6, 99].map (s.assets.freeOf 16000) = [90, 93, 4, 2, 11] ∧
      MovesMoney sampleConfig 99 u sampleStakers (slashedBy sampleConfig sampleStakers u).1 s := by
  intro u s
  have hco : Covered 16000 sampleStakers := by
    intro stash ctl l hbo hl
    have hst : stash = 3 ∨ stash = 1 := by
      rcases get?_insert_eq_some.mp hbo with ⟨h, -⟩ | ⟨-, h⟩
      · exact Or.inl h
      · rcases get?_insert_eq_some.mp h with ⟨h, -⟩ | ⟨-, h⟩
        · exact Or.inr h
        · cases h
    have htot : l.total.toNat = 50 := by
      rcases get?_insert_eq_some.mp hl with ⟨-, rfl⟩ | ⟨-, h⟩
      · rfl
      · rcases get?_insert_eq_some.mp h with ⟨-, rfl⟩ | ⟨-, h⟩
        · rfl
        · cases h
    rw [htot]
    rcases hst with rfl | rfl <;> decide
  have hsl : CreditsTreasury sampleConfig 99 := slashFundsToTreasury_credits (by decide) rfl
  exact ⟨by decide +kernel, applySlash_moves_money hsl sampleStakers u hco (by decide +kernel)⟩

end Staking.Slashing
