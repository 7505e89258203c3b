import Cennznet.Theorems.GenericAsset.LockList
import Cennznet.Theorems.Staking.Ledgers
import Cennznet.Theorems.Staking.Pairs

/-! # The ledgers over a run

Every step writes at most one ledger: `Change` says which and how. -/

namespace Staking

open GenericAsset List
open Result StorageMap Steps

variable {A : Type} [DecidableEq A] {cfg : Config} {s s' : State A}

/-! ### What a step does -/

inductive LedgerChange (cfg : Config) (s : State A) : BondingOp A → StakingLedger A →
    StakingLedger A → Prop where
  | bondExtra {stash : A} {maxAdditional : Balance} {l : StakingLedger A} {extra : Balance}
      (room : extra.toNat + l.total.toNat < 2 ^ 128) (minimum : s.minimumBond.toNat ≤ (l.active + extra).toNat) :
      LedgerChange cfg s (.bondExtra stash maxAdditional) l
        { l with total := l.total + extra, active := l.active + extra }
  | unbond {ct : A} {v : Balance} {l : StakingLedger A}
      (held : s.bonds.ledger.get? ct = some l) (active : l.active ≠ 0) :
      LedgerChange cfg s (.unbond ct v) l (l.unbond s.minimumBond v (s.currentEra.getD 0 + cfg.bondingDuration))
  | withdrawn {ct : A} {l : StakingLedger A} {era : EraIndex} (current : s.currentEra = some era) :
      LedgerChange cfg s (.withdrawUnbonded ct) l (l.consolidateUnlocked era)
  | unchanged {op : BondingOp A} {l : StakingLedger A} : LedgerChange cfg s op l l
  | rebond {ct : A} {v : Balance} {l : StakingLedger A} (chunks : l.unlocking ≠ [])
      (minimum : s.minimumBond.toNat ≤ (Word.saturatingAdd l.active v).toNat) :
      LedgerChange cfg s (.rebond ct v) l (l.rebond v)
  | slash {stash : A} {v payout : Balance} {imbalance : GenericAsset.NegativeImbalance}
      {l : StakingLedger A} (minimum : Balance) :
      LedgerChange cfg s (.slash stash v payout imbalance) l (l.slash v minimum).1

def SameTerms (s s' : State A) : Prop := s'.minimumBond = s.minimumBond ∧ s'.currentEra = s.currentEra

def BondingOp.setsTerms : BondingOp A → Bool
  | .setMinimumBond _ | .newEra => true
  | _ => false

inductive Change (cfg : Config) (s : State A) (op : BondingOp A) (s' : State A) : Prop where
  | kept (terms : op.setsTerms = false → SameTerms s s') (bonds : s'.bonds = s.bonds)
      (locks : s'.assets.locks = s.assets.locks)
  | bonded {stash ct : A} {requested v : Balance} (call : op = .bond stash ct requested)
      (unbonded : s.bonds.bonded.get? stash = none) (unpaired : s.bonds.ledger.get? ct = none)
      (minimum : s.minimumBond.toNat ≤ requested.toNat)
      (clamped : v.toNat = min requested.toNat (s.assets.free cfg.stakingAssetId stash).toNat)
      (terms : SameTerms s s') (bonds : s'.bonds =
        ⟨s.bonds.bonded.insert stash ct, s.bonds.ledger.insert ct ⟨stash, v, v, []⟩⟩)
      (locks : s'.assets.locks = (GenericAsset.setLock s.assets stakingId cfg.stakingAssetId stash v .all).locks)
  | updated {ct : A} {l l' : StakingLedger A} (held : s.bonds.ledger.get? ct = some l)
      (change : LedgerChange cfg s op l l') (stash : l'.stash = l.stash)
      (terms : SameTerms s s') (bonds : s'.bonds = ⟨s.bonds.bonded, s.bonds.ledger.insert ct l'⟩)
      (locks : s'.assets.locks = (GenericAsset.setLock s.assets stakingId cfg.stakingAssetId l'.stash l'.total .all).locks)
  | killed {ct owner : A} {l : StakingLedger A} (held : s.bonds.ledger.get? ct = some l)
      (paired : s.bonds.bonded.get? l.stash = some owner)
      (terms : SameTerms s s') (bonds : s'.bonds = ⟨s.bonds.bonded.remove l.stash, s.bonds.ledger.remove owner⟩)
      (locks : s'.assets.locks = (GenericAsset.removeLock s.assets stakingId cfg.stakingAssetId l.stash).locks)
  /-- `withdraw_unbonded` has removed the lock, and fails to remove the ledger. -/
  | unlocked {ct : A} {l : StakingLedger A} (call : op = .withdrawUnbonded ct)
      (held : s.bonds.ledger.get? ct = some l)
      (stuck : s.bonds.bonded.get? l.stash = none ∨ ∃ spans ∈ s.slashingSpans.get? l.stash, 1000 < spans.count)
      (terms : SameTerms s s') (bonds : s'.bonds = s.bonds)
      (locks : s'.assets.locks = (GenericAsset.removeLock s.assets stakingId cfg.stakingAssetId l.stash).locks)
  | moved {stash old ct : A} {l : StakingLedger A} (paired : s.bonds.bonded.get? stash = some old)
      (unpaired : s.bonds.ledger.get? ct = none) (held : s.bonds.ledger.get? old = some l)
      (terms : SameTerms s s') (bonds : s'.bonds =
        ⟨s.bonds.bonded.insert stash ct, (s.bonds.ledger.remove old).insert ct l⟩)
      (locks : s'.assets.locks = s.assets.locks)

theorem bond_change {stash ctl : A} {v : Balance} (h : bond cfg s stash ctl v = .ok s') :
    Change cfg s (.bond stash ctl v) s' := by
  simp only [bond, bind_eq_ok, ensure_eq_ok, pure_eq_ok, not_contains_iff] at h
  obtain ⟨-, hst, -, hco, -, hmi, rfl⟩ := h
  exact .bonded rfl hst hco hmi Word.toNat_lesser ⟨rfl, rfl⟩ rfl rfl

theorem bondExtra_change {stash : A} {maxAdditional : Balance} (h : bondExtra cfg s stash maxAdditional = .ok s') :
    Change cfg s (.bondExtra stash maxAdditional) s' := by
  simp only [bondExtra, bind_eq_ok, ensure_eq_ok, okOr_eq_ok, pure_eq_ok] at h
  obtain ⟨-, -, ctl, -, l, hl, free, hf, -, hmi, rfl⟩ := h
  have hr := (s.assets.free cfg.stakingAssetId stash).isLt
  have hex : (if free.toNat ≤ maxAdditional.toNat then free else maxAdditional).toNat =
      min free.toNat maxAdditional.toNat := Word.toNat_lesser
  have hsum := Word.checkedSub_eq_some.mp hf
  exact .updated hl (.bondExtra (by omega) hmi) rfl ⟨rfl, rfl⟩ rfl rfl

theorem unbond_change {ctl : A} {v : Balance} (h : unbond cfg s ctl v = .ok s') : Change cfg s (.unbond ctl v) s' := by
  simp only [unbond, bind_eq_ok, ensure_eq_ok, okOr_eq_ok] at h
  obtain ⟨-, -, l, hl, -, -, h⟩ := h
  by_cases hz : l.active = 0 ∨ v = 0
  · rw [if_pos hz] at h
    cases h
    exact .kept (fun _ => ⟨rfl, rfl⟩) rfl rfl
  · rw [if_neg hz] at h
    cases h
    have hst (era : EraIndex) : (l.unbond s.minimumBond v era).stash = l.stash := by
      unfold StakingLedger.unbond
      dsimp only
      split <;> rfl
    exact .updated hl (.unbond hl fun h => hz (Or.inl h)) (hst _) ⟨rfl, rfl⟩ rfl rfl

theorem rebond_change {ctl : A} {v : Balance} (h : rebond cfg s ctl v = .ok s') : Change cfg s (.rebond ctl v) s' := by
  simp only [rebond, bind_eq_ok, ensure_eq_ok, okOr_eq_ok, pure_eq_ok, isEmpty_eq_false_iff] at h
  obtain ⟨-, -, l, hl, -, hch, -, hmi, rfl⟩ := h
  exact .updated hl (.rebond hch hmi) rfl ⟨rfl, rfl⟩ rfl rfl

theorem killStash_cases (s : State A) (stash : A) :
    (∃ owner s', killStash s stash = .ok s' ∧ s.bonds.bonded.get? stash = some owner ∧ s'.assets = s.assets ∧
        SameTerms s s' ∧ s'.bonds = ⟨s.bonds.bonded.remove stash, s.bonds.ledger.remove owner⟩) ∨
      (∃ e, killStash s stash = .error e) ∧
        (s.bonds.bonded.get? stash = none ∨ ∃ spans ∈ s.slashingSpans.get? stash, 1000 < spans.count) := by
  unfold killStash clearStashMetadata
  cases hbo : s.bonds.bonded.get? stash with
  | none => exact Or.inr ⟨⟨_, rfl⟩, Or.inl rfl⟩
  | some owner =>
    cases hsp : s.slashingSpans.get? stash with
    | none => exact Or.inl ⟨owner, _, rfl, rfl, rfl, ⟨rfl, rfl⟩, rfl⟩
    | some spans =>
      by_cases hco : spans.count ≤ 1000
      · refine Or.inl ⟨owner, { s with
          bonds := ⟨s.bonds.bonded.remove stash, s.bonds.ledger.remove owner⟩
          slashingSpans := s.slashingSpans.remove stash }, ?_, rfl, rfl, ⟨rfl, rfl⟩, rfl⟩
        simp only [okOr_some, ok_bind, ensure, if_pos hco]
        rfl
      · refine Or.inr ⟨⟨.incorrectSlashingSpans, ?_⟩, Or.inr ⟨spans, rfl, by omega⟩⟩
        simp only [okOr_some, ok_bind, ensure, if_neg hco]
        rfl

theorem withdrawUnbonded_change (cfg : Config) (s : State A) (ctl : A) :
    Change cfg s (.withdrawUnbonded ctl) (withdrawUnbonded cfg s ctl).1 := by
  unfold withdrawUnbonded
  by_cases hcl : s.electionClosed = false
  · rw [if_pos hcl]
    exact .kept (fun _ => ⟨rfl, rfl⟩) rfl rfl
  rw [if_neg hcl]
  cases hl : s.bonds.ledger.get? ctl with
  | none => exact .kept (fun _ => ⟨rfl, rfl⟩) rfl rfl
  | some l =>
    obtain ⟨hst, hch⟩ : ((s.currentEra.map l.consolidateUnlocked).getD l).stash = l.stash ∧
        LedgerChange cfg s (.withdrawUnbonded ctl) l ((s.currentEra.map l.consolidateUnlocked).getD l) := by
      cases hera : s.currentEra with
      | none => exact ⟨rfl, .unchanged⟩
      | some era => exact ⟨rfl, .withdrawn hera⟩
    dsimp only
    generalize (s.currentEra.map l.consolidateUnlocked).getD l = l' at *
    by_cases hey : l'.unlocking.isEmpty ∧ l'.active = 0
    · rw [if_pos hey, hst]
      generalize hss : GenericAsset.removeLock s.assets stakingId cfg.stakingAssetId l.stash = assets
      rcases killStash_cases { s with assets := assets } l.stash with
        ⟨owner, s', hki, hwn, hs, hte, hbo⟩ | ⟨⟨e, hki⟩, hsk⟩
      · rw [hki]
        exact .killed hl hwn hte hbo (congrArg _ (hs.trans hss.symm))
      · rw [hki]
        exact .unlocked rfl hl hsk ⟨rfl, rfl⟩ rfl (congrArg _ hss.symm)
    · rw [if_neg hey]
      exact .updated hl hch hst ⟨rfl, rfl⟩ rfl rfl

theorem setReservedBalance_locks (assets : GenericAsset.State A) (a : GenericAsset.AssetId)
    (who : A) (reserved : Balance) :
    (GenericAsset.setReservedBalance assets a who reserved).locks = assets.locks := by
  unfold GenericAsset.setReservedBalance
  split <;> rfl

theorem locks_slash (assets : GenericAsset.State A) (a : GenericAsset.AssetId) (who : A)
    (v : Balance) : (GenericAsset.AssetCurrency.slash assets a who v).1.locks = assets.locks := by
  have hsl : (GenericAsset.slash assets a who v).1.locks = assets.locks := by
    unfold GenericAsset.slash
    dsimp only
    generalize (if (assets.free a who).toNat ≤ v.toNat then assets.free a who else v) = freeSlash
    split
    · exact setReservedBalance_locks ..
    · rfl
  unfold GenericAsset.AssetCurrency.slash
  split <;> rename_i heq <;> rw [heq] at hsl <;> exact hsl

theorem doSlash_change (cfg : Config) (s : State A) (stash : A) (v payout : Balance)
    (imb : GenericAsset.NegativeImbalance) :
    Change cfg s (.slash stash v payout imb) (doSlash cfg s stash v payout imb).1 := by
  unfold doSlash
  cases hst : s.bonds.bonded.get? stash with
  | none => exact .kept (fun _ => ⟨rfl, rfl⟩) rfl rfl
  | some ctl =>
    dsimp only
    cases hl : s.bonds.ledger.get? ctl with
    | none => exact .kept (fun _ => ⟨rfl, rfl⟩) rfl rfl
    | some l =>
      dsimp only
      split
      · exact .kept (fun _ => ⟨rfl, rfl⟩) rfl rfl
      · have hlo := locks_slash s.assets cfg.stakingAssetId stash
          (l.slash v (s.assets.existentialDeposit cfg.stakingAssetId)).2
        refine .updated hl (.slash (s.assets.existentialDeposit cfg.stakingAssetId)) rfl ⟨rfl, rfl⟩ rfl ?_
        simp only [updateLedger, GenericAsset.setLock, hlo]

theorem setController_change {stash ctl : A} {b : Bonds A}
    (P : s.bonds.Paired) (h : s.bonds.setController stash ctl = .ok b) :
    Change cfg s (.setController stash ctl) { s with bonds := b } := by
  simp only [Bonds.setController, bind_eq_ok, okOr_eq_ok, ensure_eq_ok, not_contains_iff] at h
  obtain ⟨old, hold, -, hf, h⟩ := h
  obtain ⟨l, hl, -⟩ := (P stash old).mp hold
  by_cases hs : ctl ≠ old
  · rw [if_pos hs, hl] at h
    cases h
    exact .moved hold hf hl ⟨rfl, rfl⟩ rfl rfl
  · rw [if_neg hs] at h
    cases h
    exact .kept (fun _ => ⟨rfl, rfl⟩) rfl rfl

theorem bondingStep_change (P : s.bonds.Paired) (op : BondingOp A) : Change cfg s op (bondingStep cfg s op) := by
  cases op with
  | bond stash ctl v =>
    exact getD_cases (P := Change cfg s _) (fun _ h => bond_change h) (.kept (fun _ => ⟨rfl, rfl⟩) rfl rfl)
  | bondExtra stash maxAdditional =>
    exact getD_cases (P := Change cfg s _) (fun _ h => bondExtra_change h) (.kept (fun _ => ⟨rfl, rfl⟩) rfl rfl)
  | unbond ctl v =>
    exact getD_cases (P := Change cfg s _) (fun _ h => unbond_change h) (.kept (fun _ => ⟨rfl, rfl⟩) rfl rfl)
  | withdrawUnbonded ctl => exact withdrawUnbonded_change cfg s ctl
  | rebond ctl v =>
    exact getD_cases (P := Change cfg s _) (fun _ h => rebond_change h) (.kept (fun _ => ⟨rfl, rfl⟩) rfl rfl)
  | setController stash ctl =>
    exact getD_cases (P := fun b => Change cfg s (.setController stash ctl) { s with bonds := b })
      (fun _ h => setController_change P h) (.kept (fun _ => ⟨rfl, rfl⟩) rfl rfl)
  | slash stash v payout imb => exact doSlash_change cfg s stash v payout imb
  | setMinimumBond | newEra => exact .kept (fun h => by cases h) rfl rfl
  | electionStatus | slashingSpans | assets => exact .kept (fun _ => ⟨rfl, rfl⟩) rfl rfl

/-! ### What the changes keep -/

variable {op : BondingOp A}

theorem Change.terms (C : Change cfg s op s') (hop : op.setsTerms = false) : SameTerms s s' := by
  cases C with
  | kept terms => exact terms hop
  | _ => assumption

theorem Change.forall_ledgers {Q : StakingLedger A → Prop} (C : Change cfg s op s')
    (hbo : ∀ {stash ctl requested v}, op = .bond stash ctl requested →
      s.bonds.bonded.get? stash = none → s.bonds.ledger.get? ctl = none →
      s.minimumBond.toNat ≤ requested.toNat →
      v.toNat = min requested.toNat (s.assets.free cfg.stakingAssetId stash).toNat → Q ⟨stash, v, v, []⟩)
    (hch : ∀ {ctl l l'}, s.bonds.ledger.get? ctl = some l → LedgerChange cfg s op l l' → Q l → Q l')
    (h : ∀ {ctl l}, s.bonds.ledger.get? ctl = some l → Q l) {ctl : A}
    {l : StakingLedger A} (hl : s'.bonds.ledger.get? ctl = some l) : Q l := by
  cases C with
  | kept _ bonds _ =>
    rw [bonds] at hl
    exact h hl
  | bonded call unbonded unpaired mn clamped _ bonds _ =>
    rw [bonds] at hl
    rcases get?_insert_eq_some.mp hl with ⟨-, rfl⟩ | ⟨-, hl⟩
    · exact hbo call unbonded unpaired mn clamped
    · exact h hl
  | updated held change stash _ bonds _ =>
    rw [bonds] at hl
    rcases get?_insert_eq_some.mp hl with ⟨-, rfl⟩ | ⟨-, hl⟩
    · exact hch held change (h held)
    · exact h hl
  | killed held paired _ bonds _ =>
    rw [bonds] at hl
    exact h (get?_remove_eq_some.mp hl).2
  | unlocked call held stuck _ bonds _ =>
    rw [bonds] at hl
    exact h hl
  | moved paired unpaired held _ bonds _ =>
    rw [bonds] at hl
    rcases get?_insert_eq_some.mp hl with ⟨-, rfl⟩ | ⟨-, hl⟩
    · exact h held
    · exact h (get?_remove_eq_some.mp hl).2

theorem Change.paired (C : Change cfg s op s') (P : s.bonds.Paired) : s'.bonds.Paired := by
  cases C with
  | kept _ bonds _ =>
    rw [bonds]
    exact P
  | bonded _ unbonded unpaired _ _ _ bonds _ =>
    rw [bonds]
    exact P.pair (l := ⟨_, _, _, []⟩) unbonded unpaired
  | updated held _ stash _ bonds _ =>
    rw [bonds]
    exact P.update held stash
  | killed held paired _ bonds _ =>
    rw [bonds]
    cases paired.symm.trans (P.bonded held)
    exact P.unpair held
  | unlocked _ _ _ _ bonds _ =>
    rw [bonds]
    exact P
  | @moved stash _ _ l paired unpaired held _ bonds _ =>
    rw [bonds]
    obtain ⟨l', hl', rfl⟩ := (P _ _).mp paired
    cases held.symm.trans hl'
    exact P.move held unpaired

/-! ### Consistent ledgers -/

def State.stakingLocks (cfg : Config) (s : State A) (who : A) : List GenericAsset.BalanceLock :=
  (s.assets.locksOf cfg.stakingAssetId who).filter (·.id = stakingId)

/-- The bonds are paired; every ledger is balanced, and its total is locked on the stash. -/
structure Consistent (cfg : Config) (s : State A) : Prop where
  paired : s.bonds.Paired
  balanced : ∀ {ct l}, s.bonds.ledger.get? ct = some l → l.Balanced
  locked : ∀ {ct l}, s.bonds.ledger.get? ct = some l → s.stakingLocks cfg l.stash = [⟨stakingId, l.total, .all⟩]

/-- No more is unbonded than is active, or there is a minimum bond; and the slashing spans of a withdrawn stash can be
cleared. -/
def Orderly (s : State A) : BondingOp A → Prop
  | .unbond ct v =>
    s.minimumBond ≠ 0 ∨ ∀ l ∈ s.bonds.ledger.get? ct, v.toNat ≤ l.active.toNat
  | .withdrawUnbonded ct =>
    ∀ l ∈ s.bonds.ledger.get? ct, ∀ spans ∈ s.slashingSpans.get? l.stash, spans.count ≤ 1000
  | _ => True

theorem LedgerChange.balanced {l l' : StakingLedger A} (C : LedgerChange cfg s op l l') (hop : Orderly s op)
    (h : l.Balanced) : l'.Balanced := by
  cases C with
  | bondExtra room _ => exact (h.bondExtra room).2
  | unbond held _ => exact (h.unbond_iff ..).mpr (hop.imp_right fun hle => hle l held)
  | withdrawn _ => exact h.consolidateUnlocked _
  | unchanged => exact h
  | rebond _ _ => exact (h.rebond_spec _).1
  | slash mn => exact (h.slash_spec _ mn).balanced

theorem stakingLocks_of_setLock {who : A} {n : Balance}
    (locks : s'.assets.locks = (GenericAsset.setLock s.assets stakingId cfg.stakingAssetId who n .all).locks) :
    s'.stakingLocks cfg who = [⟨stakingId, n, .all⟩] ∧
      ∀ other, other ≠ who → s'.stakingLocks cfg other = s.stakingLocks cfg other := by
  have hlo (other : A) : s'.assets.locksOf cfg.stakingAssetId other =
      (GenericAsset.setLock s.assets stakingId cfg.stakingAssetId who n .all).locksOf cfg.stakingAssetId other := by
    unfold GenericAsset.State.locksOf
    rw [locks]
  unfold State.stakingLocks
  refine ⟨?_, fun other hne => ?_⟩
  · rw [hlo, (GenericAsset.filter_setLock n _).2]
    rfl
  · rw [hlo, GenericAsset.locksOf_setLock_ne _ _ hne]

theorem stakingLocks_of_same (locks : s'.assets.locks = s.assets.locks) (who : A) :
    s'.stakingLocks cfg who = s.stakingLocks cfg who := by
  unfold State.stakingLocks GenericAsset.State.locksOf
  rw [locks]

theorem stakingLocks_of_removeLock {who other : A}
    (locks : s'.assets.locks = (GenericAsset.removeLock s.assets stakingId cfg.stakingAssetId who).locks)
    (hne : other ≠ who) : s'.stakingLocks cfg other = s.stakingLocks cfg other := by
  unfold State.stakingLocks
  rw [← GenericAsset.locksOf_removeLock_ne (s := s.assets) hne]
  unfold GenericAsset.State.locksOf
  rw [locks]

theorem Change.locked (C : Change cfg s op s') (K : Consistent cfg s) (hop : Orderly s op) {ctl : A}
    {l : StakingLedger A} (hl : s'.bonds.ledger.get? ctl = some l) :
    s'.stakingLocks cfg l.stash = [⟨stakingId, l.total, .all⟩] := by
  cases C with
  | kept _ bonds locks =>
    rw [bonds] at hl
    rw [stakingLocks_of_same locks]
    exact K.locked hl
  | bonded call unbonded unpaired mn clamped _ bonds locks =>
    obtain ⟨hset, hoth⟩ := stakingLocks_of_setLock locks
    rw [bonds] at hl
    rcases get?_insert_eq_some.mp hl with ⟨-, rfl⟩ | ⟨-, hl⟩
    · exact hset
    · rw [hoth _ fun h => ?_]
      · exact K.locked hl
      · rw [← h, K.paired.bonded hl] at unbonded
        cases unbonded
  | updated held change stash _ bonds locks =>
    obtain ⟨hset, hoth⟩ := stakingLocks_of_setLock locks
    rw [bonds] at hl
    rcases get?_insert_eq_some.mp hl with ⟨-, rfl⟩ | ⟨hne, hl⟩
    · exact hset
    · rw [hoth _ fun h => hne (K.paired.stash_inj hl held (h.trans stash))]
      exact K.locked hl
  | killed held paired _ bonds locks =>
    rw [bonds] at hl
    obtain ⟨hne, hk⟩ := get?_remove_eq_some.mp hl
    cases paired.symm.trans (K.paired.bonded held)
    rw [stakingLocks_of_removeLock locks fun h => hne (K.paired.stash_inj hk held h)]
    exact K.locked hk
  | unlocked call held stuck _ bonds locks =>
    -- the pairing and the condition on the spans leave no way to fail
    subst call
    rcases stuck with hun | ⟨spans, hsp, hco⟩
    · cases hun.symm.trans (K.paired.bonded held)
    · have := hop _ held spans hsp
      omega
  | moved paired unpaired held _ bonds locks =>
    rw [bonds] at hl
    rw [stakingLocks_of_same locks]
    rcases get?_insert_eq_some.mp hl with ⟨-, rfl⟩ | ⟨-, hl⟩
    · exact K.locked held
    · exact K.locked (get?_remove_eq_some.mp hl).2

theorem Consistent.step (K : Consistent cfg s) (hop : Orderly s op) : Consistent cfg (bondingStep cfg s op) := by
  have C : Change cfg s op (bondingStep cfg s op) := bondingStep_change K.paired op
  refine ⟨C.paired K.paired, fun hl => ?_, C.locked K hop⟩
  exact C.forall_ledgers (fun _ _ _ _ _ => (Nat.add_zero _).symm) (fun _ change => change.balanced hop) K.balanced hl

def State.Unbonded (s : State A) : Prop := s.bonds.bonded = ∅ ∧ s.bonds.ledger = ∅

theorem State.Unbonded.paired (h : s.Unbonded) : s.bonds.Paired := by
  intro stash ctl
  rw [h.1, h.2, get?_empty, get?_empty]
  refine iff_of_false (fun h => ?_) (fun ⟨l, hl, _⟩ => ?_)
  · cases h
  · cases hl

theorem State.Unbonded.consistent (h : s.Unbonded) : Consistent cfg s := by
  refine ⟨h.paired, fun hl => ?_, fun hl => ?_⟩ <;>
    rw [h.2, get?_empty] at hl <;> cases hl

/-- The ledger adds up and is locked. A slash takes from it in order what its total falls by, and bonding again leaves
no more active than the total. -/
structure LedgerSound (cfg : Config) (s : State A) (l : StakingLedger A) : Prop where
  balanced : l.total.toNat = l.active.toNat + (l.unlocking.map (·.value.toNat)).sum
  locked : s.stakingLocks cfg l.stash = [⟨stakingId, l.total, .all⟩]
  slash : ∀ v minimum, l.Slashed (l.slash v minimum).1 (l.slash v minimum).2
  rebond : ∀ v, (l.rebond v).active.toNat ≤ (l.rebond v).total.toNat

section
variable {cfg : Config} {s : State A}

/-- In a run that unbonds no more than is active, or keeps a minimum bond, and withdraws no stash with too many slashing
spans, every ledger is always sound. -/
theorem ledgers_sound (hstart : s.Unbonded) (ops : List (BondingOp A)) (hrun : Each (bondingStep cfg) Orderly s ops)
    (done : List (BondingOp A)) (hdone : done <+: ops) (controller : A) (l : StakingLedger A)
    (hl : (execute (bondingStep cfg) s done).bonds.ledger.get? controller = some l) :
    LedgerSound cfg (execute (bondingStep cfg) s done) l := by
  have K : Consistent cfg (execute (bondingStep cfg) s done) :=
    hrun.throughout (I := fun s => Consistent cfg s) (fun _ _ hop K => K.step hop) hstart.consistent hdone
  have hba := K.balanced hl
  refine ⟨hba, K.locked hl, hba.slash_spec, fun v => ?_⟩
  have hre := (hba.rebond_spec v).1
  unfold StakingLedger.Balanced at hre
  omega

end

def sampleStaker (minimumBond : Balance) : State Nat where
  bonds := ⟨∅, ∅⟩
  assets := { GenericAsset.State.genesis 17000 with
    freeBalance := (∅ : StorageMap (GenericAsset.AssetId × Nat) Balance).insert (16000, 1) 100 }
  minimumBond := minimumBond
  currentEra := some 0
  electionClosed := true
  slashingSpans := ∅

/-- With a minimum bond of 10 an `unbond` of 80 from a stake of 50 schedules the 50; 20 are bonded again and 5 slashed.
-/
theorem ledger_of_unbonded_sound :
    let ops : List (BondingOp Nat) := [.bond 1 2 50, .unbond 2 80, .rebond 2 20, .slash 1 5 0 ⟨0, 16000⟩]
    let s := execute (bondingStep ⟨16000, 28⟩) (sampleStaker 10) ops
    s.bonds.ledger.get? 2 = some ⟨1, 45, 15, [⟨30, 28⟩]⟩ ∧ LedgerSound ⟨16000, 28⟩ s ⟨1, 45, 15, [⟨30, 28⟩]⟩ := by
  intro ops s
  have hl : s.bonds.ledger.get? 2 = some ⟨1, 45, 15, [⟨30, 28⟩]⟩ := by decide +kernel
  have hrun : Each (bondingStep ⟨16000, 28⟩) Orderly (sampleStaker 10) ops :=
    ⟨trivial, Or.inl (by decide +kernel), trivial, trivial, trivial⟩
  exact ⟨hl, ledgers_sound ⟨rfl, rfl⟩ ops hrun ops prefix_rfl 2 _ hl⟩

/-- Without a minimum bond, `unbond` schedules 80 out of a stake of 50, and 60 of it can be bonded again. And a stash
with 1001 slashing spans loses its lock in a `withdraw_unbonded` that fails. -/
theorem ledgers_unsound :
    let s := execute (bondingStep ⟨16000, 28⟩) (sampleStaker 0) [.bond 1 2 50, .unbond 2 80]
    let s' := bondingStep ⟨16000, 28⟩ s (.rebond 2 60)
    let t := execute (bondingStep ⟨16000, 0⟩) (sampleStaker 10)
      [.bond 1 2 50, .unbond 2 50, .slashingSpans 1 ⟨List.replicate 1000 1⟩, .withdrawUnbonded 2]
    (s.bonds.ledger.get? 2 = some ⟨1, 50, 0, [⟨80, 28⟩]⟩ ∧ s'.bonds.ledger.get? 2 = some ⟨1, 50, 60, [⟨20, 28⟩]⟩) ∧
      (t.bonds.ledger.get? 2 = some ⟨1, 50, 0, [⟨50, 0⟩]⟩ ∧ t.stakingLocks ⟨16000, 0⟩ 1 = []) := by
  decide +kernel

/-! ### Stashes that are removed -/

theorem killStash_paired {stash : A} (P : s.bonds.Paired) (h : killStash s stash = .ok s') : s'.bonds.Paired := by
  rcases killStash_cases s stash with ⟨owner, t, hki, hwn, -, -, hbo⟩ | ⟨⟨e, hki⟩, -⟩
  · cases h.symm.trans hki
    obtain ⟨l, hl, rfl⟩ := (P _ _).mp hwn
    rw [hbo]
    exact P.unpair hl
  · cases h.symm.trans hki

theorem stakingStep_paired (cfg : Config) (P : s.bonds.Paired) (op : StakingOp A) :
    (stakingStep cfg s op).bonds.Paired := by
  cases op with
  | bonding op => exact (bondingStep_change P op).paired P
  | forceUnstake stash =>
    refine getD_cases (P := fun t : State A => t.bonds.Paired) (fun t h => ?_) P
    simp only [forceUnstake, bind_eq_ok, pure_eq_ok] at h
    obtain ⟨t, hki, rfl⟩ := h
    have hpa : t.bonds.Paired := killStash_paired P hki
    exact hpa
  | reapStash stash =>
    refine getD_cases (P := fun t : State A => t.bonds.Paired) (fun t h => ?_) P
    simp only [reapStash, bind_eq_ok, ensure_eq_ok, pure_eq_ok] at h
    obtain ⟨-, -, t, hki, rfl⟩ := h
    have hpa : t.bonds.Paired := killStash_paired P hki
    exact hpa
  | other => exact P

variable {s : State A}

/-- Stashes and ledgers correspond one to one in every state of a run that starts without bonds. -/
theorem stashes_correspond (cfg : Config) (hstart : s.Unbonded) (ops : List (StakingOp A)) :
    let bonds := (execute (stakingStep cfg) s ops).bonds
    (∀ stash controller, bonds.bonded.get? stash = some controller ↔
      ∃ l, bonds.ledger.get? controller = some l ∧ l.stash = stash) ∧
    (∀ stash stash' controller, bonds.bonded.get? stash = some controller → bonds.bonded.get? stash' = some controller →
      stash = stash') ∧
    ∀ controller l, bonds.ledger.get? controller = some l → bonds.bonded.get? l.stash = some controller := by
  have P : (execute (stakingStep cfg) s ops).bonds.Paired :=
    execute_invariant (I := fun s : State A => s.bonds.Paired) (fun op _ _ P => stakingStep_paired cfg P op) hstart.paired
  refine ⟨P, fun stash stash' controller hst hst' => ?_, fun controller l hl => P.bonded hl⟩
  obtain ⟨l, hl, rfl⟩ := (P _ _).mp hst
  obtain ⟨l', hl', rfl⟩ := (P _ _).mp hst'
  cases hl.symm.trans hl'
  rfl

theorem stash_rebonded_corresponds :
    let ops : List (StakingOp Nat) := [.bonding (.bond 1 2 50), .bonding (.setController 1 3), .forceUnstake 1,
      .bonding (.bond 1 2 20), .reapStash 1]
    let bonds := (execute (stakingStep ⟨16000, 28⟩) (sampleStaker 10) ops).bonds
    bonds.bonded.get? 1 = some 2 ∧ ∃ l, bonds.ledger.get? 2 = some l ∧ l.stash = 1 := by
  intro ops bonds
  have hbo : bonds.bonded.get? 1 = some 2 := by decide +kernel
  exact ⟨hbo, ((stashes_correspond ⟨16000, 28⟩ ⟨rfl, rfl⟩ ops).1 1 2).mp hbo⟩

end Staking
