import Cennznet.Theorems.Staking.Bonding

/-! # Dust stakes

The amount asked for is tested against the minimum bond, and less may be moved. -/

namespace Staking

open GenericAsset (Balance)
open Result Word Steps List

variable {A : Type}

def StakingLedger.NotDust (l : StakingLedger A) (m : Balance) : Prop := l.active = 0 ∨ m.toNat ≤ l.active.toNat

structure UnlocksInOrder (bound : Nat) (chunks : List UnlockChunk) : Prop where
  sorted : (chunks.map UnlockChunk.era).Pairwise fun a b => a.toNat ≤ b.toNat
  bounded : ∀ era ∈ chunks.map UnlockChunk.era, era.toNat ≤ bound

/-- The ledger is balanced and unlocks in order. It has at least `m` at stake, or nothing, with at least `m` in the last
chunk if any. -/
structure StakingLedger.Whole (l : StakingLedger A) (m : Balance) (bound : Nat) : Prop where
  balanced : l.Balanced
  inOrder : UnlocksInOrder bound l.unlocking
  stake : m.toNat ≤ l.active.toNat ∨ l.active = 0 ∧
    ∀ chunks last, l.unlocking = chunks ++ [last] → m.toNat ≤ last.value.toNat

section
variable {bound bound' : Nat} {chunks chunks' : List UnlockChunk}

theorem UnlocksInOrder.mono (h : UnlocksInOrder bound chunks) (hle : bound ≤ bound') : UnlocksInOrder bound' chunks :=
  ⟨h.sorted, fun era hera => (h.bounded era hera).trans hle⟩

theorem UnlocksInOrder.sublist (h : UnlocksInOrder bound chunks)
    (hsub : List.Sublist (chunks'.map UnlockChunk.era) (chunks.map UnlockChunk.era)) : UnlocksInOrder bound chunks' :=
  ⟨h.sorted.sublist hsub, fun era hera => h.bounded era (hsub.subset hera)⟩

theorem UnlocksInOrder.push (h : UnlocksInOrder bound chunks) (v : Balance) {era : EraIndex} (hera : era.toNat = bound) :
    UnlocksInOrder bound (chunks ++ [⟨v, era⟩]) := by
  constructor
  · rw [map_append, pairwise_append]
    refine ⟨h.sorted, pairwise_singleton _ _, fun a ha b hb => ?_⟩
    rw [map_singleton, mem_singleton] at hb
    rw [hb, hera]
    exact h.bounded a ha
  · intro e he
    rw [map_append, map_singleton, mem_append, mem_singleton] at he
    rcases he with he | rfl
    · exact h.bounded e he
    · exact hera.le

theorem UnlocksInOrder.filter_last {last : UnlockChunk} (h : UnlocksInOrder bound (chunks ++ [last])) (era : EraIndex) :
    (chunks ++ [last]).filter (fun chunk => era.toNat < chunk.era.toNat) = [] ∨
      ∃ rest, (chunks ++ [last]).filter (fun chunk => era.toNat < chunk.era.toNat) = rest ++ [last] := by
  by_cases hl : era.toNat < last.era.toNat
  · refine Or.inr ⟨chunks.filter (fun chunk => era.toNat < chunk.era.toNat), ?_⟩
    rw [filter_append, filter_cons_of_pos (by simpa using hl), filter_nil]
  · refine Or.inl (filter_eq_nil_iff.mpr fun chunk hch => ?_)
    have hso := h.sorted
    rw [map_append, pairwise_append] at hso
    rcases mem_append.mp hch with hmem | hmem
    · have hle := hso.2.2 chunk.era (mem_map_of_mem hmem) last.era (by simp)
      simp only [decide_eq_true_eq]
      omega
    · rw [mem_singleton.mp hmem]
      simpa using hl

end

/-! ### What keeps a ledger whole -/

namespace StakingLedger.Whole

variable {l : StakingLedger A} {m : Balance} {bound bound' : Nat}

theorem mono (h : l.Whole m bound) (hle : bound ≤ bound') : l.Whole m bound' :=
  ⟨h.balanced, h.inOrder.mono hle, h.stake⟩

theorem bondExtra (h : l.Whole m bound) {extra : Balance} (room : extra.toNat + l.total.toNat < 2 ^ 128)
    (mn : m.toNat ≤ (l.active + extra).toNat) :
    { l with total := l.total + extra, active := l.active + extra }.Whole m bound :=
  ⟨(h.balanced.bondExtra room).2, h.inOrder, Or.inl mn⟩

theorem unbond (h : l.Whole m bound) (hm : m ≠ 0) (hac : l.active ≠ 0) (v : Balance) {era : EraIndex}
    (hera : era.toNat = bound) : (l.unbond m v era).Whole m bound := by
  have hst : m.toNat ≤ l.active.toNat := h.stake.elim id fun h => absurd h.1 hac
  have hba := (h.balanced.unbond_iff m v era).mpr (Or.inl hm)
  unfold StakingLedger.unbond at hba ⊢
  dsimp only at hba ⊢
  by_cases hall : ((checkedSub l.active v).getD 0).toNat < m.toNat
  · rw [if_pos hall] at hba ⊢
    refine ⟨hba, h.inOrder.push _ hera, Or.inr ⟨rfl, fun chunks last hl => ?_⟩⟩
    obtain ⟨-, hl⟩ := append_inj' hl rfl
    rw [← (List.cons.inj hl).1]
    exact hst
  · rw [if_neg hall] at hba ⊢
    exact ⟨hba, h.inOrder.push _ hera, Or.inl (by dsimp only; omega)⟩

theorem consolidateUnlocked (h : l.Whole m bound) (era : EraIndex) : (l.consolidateUnlocked era).Whole m bound := by
  have hun := h.balanced.unlocking_consolidateUnlocked era
  refine ⟨h.balanced.consolidateUnlocked era, ?_, h.stake.imp_right fun ⟨hac, hl⟩ => ⟨hac, ?_⟩⟩
  · rw [hun]
    exact h.inOrder.sublist (filter_sublist.map _)
  · intro chunks last heq
    rw [hun] at heq
    rcases eq_nil_or_concat l.unlocking with hnil | ⟨chunks', last', hco⟩
    · rw [hnil, filter_nil] at heq
      cases chunks <;> cases heq
    · have hch : l.unlocking = chunks' ++ [last'] := by simpa using hco
      have hio := h.inOrder
      rw [hch] at hio heq
      rcases hio.filter_last era with hn | ⟨rest, hr⟩
      · rw [hn] at heq
        cases chunks <;> cases heq
      · obtain ⟨-, hs⟩ := append_inj' (hr.symm.trans heq) rfl
        rw [← (List.cons.inj hs).1]
        exact hl chunks' last' hch

theorem rebond (h : l.Whole m bound) (hch : l.unlocking ≠ []) {v : Balance}
    (mn : m.toNat ≤ (saturatingAdd l.active v).toNat) : (l.rebond v).Whole m bound := by
  obtain ⟨hba, -, -, hac, hera⟩ := h.balanced.rebond_spec v
  refine ⟨hba, h.inOrder.sublist hera.sublist, Or.inl ?_⟩
  rw [hac]
  rcases h.stake with hst | ⟨hz, hl⟩
  · omega
  · rw [toNat_saturatingAdd, hz] at mn
    have hva := v.isLt
    have hn : (0 : Balance).toNat = 0 := rfl
    obtain ⟨chunks, last, hco⟩ := (eq_nil_or_concat l.unlocking).resolve_left hch
    have hun : l.unlocking = chunks ++ [last] := by simpa using hco
    have htot : chunksTotal l.unlocking = chunksTotal chunks + last.value.toNat := by
      rw [hun]
      simp
    have hmi := hl chunks last hun
    omega

end StakingLedger.Whole

variable [DecidableEq A] {cfg : Config} {s s' : State A} {m : Balance}

def NoDust (s : State A) : Prop :=
  ∀ ct l, s.bonds.ledger.get? ct = some l → l.NotDust s.minimumBond

def State.lastUnlock (cfg : Config) (s : State A) : Nat :=
  (s.currentEra.getD 0).toNat + cfg.bondingDuration.toNat

/-- Nothing is slashed, the minimum bond stays, and the indices of eras do not run out. -/
def Unslashed (cfg : Config) (s : State A) : BondingOp A → Prop
  | .slash .. | .setMinimumBond _ => False
  | .unbond _ _ => s.lastUnlock cfg < 2 ^ 32
  | .newEra => (s.currentEra.getD 0).toNat + 1 < 2 ^ 32
  | _ => True

/-- A stash that is bonded has the minimum bond, or has nothing. -/
def BondsWhole (cfg : Config) (s : State A) : BondingOp A → Prop
  | .bond stash ct v =>
    s.bonds.bonded.get? stash = none → s.bonds.ledger.get? ct = none → s.minimumBond.toNat ≤ v.toNat →
      s.assets.free cfg.stakingAssetId stash = 0 ∨ s.minimumBond.toNat ≤ (s.assets.free cfg.stakingAssetId stash).toNat
  | _ => True

instance (cfg : Config) (s : State A) : (op : BondingOp A) → Decidable (Unslashed cfg s op)
  | .slash .. | .setMinimumBond _ => isFalse id
  | .unbond _ _ | .newEra => Nat.decLt _ _
  | .bond .. | .bondExtra .. | .withdrawUnbonded _ | .rebond .. | .setController .. | .electionStatus _
  | .slashingSpans .. | .assets _ => isTrue trivial

instance (cfg : Config) (s : State A) : (op : BondingOp A) → Decidable (BondsWhole cfg s op)
  | .bond .. => inferInstanceAs (Decidable (_ → _ → _ → _ ∨ _))
  | .slash .. | .setMinimumBond _ | .unbond _ _ | .newEra | .bondExtra .. | .withdrawUnbonded _ | .rebond ..
  | .setController .. | .electionStatus _ | .slashingSpans .. | .assets _ => isTrue trivial

structure Stakes (cfg : Config) (m : Balance) (s : State A) : Prop where
  minimum : s.minimumBond = m
  paired : s.bonds.Paired
  whole : m ≠ 0 → ∀ {ct l}, s.bonds.ledger.get? ct = some l → l.Whole m (s.lastUnlock cfg)

theorem Stakes.noDust (S : Stakes cfg m s) : NoDust s := by
  intro ctl l hl
  rw [S.minimum]
  by_cases hm : m = 0
  · rw [hm]
    exact Or.inr (Nat.zero_le _)
  · exact (S.whole hm hl).stake.elim Or.inr fun h => Or.inl h.1

variable {op : BondingOp A}

theorem lastUnlock_le (C : Change cfg s op (bondingStep cfg s op)) (hop : Unslashed cfg s op) :
    (bondingStep cfg s op).minimumBond = s.minimumBond ∧ s.lastUnlock cfg ≤ (bondingStep cfg s op).lastUnlock cfg := by
  by_cases hte : op.setsTerms = false
  · obtain ⟨hmi, hera⟩ := C.terms hte
    refine ⟨hmi, ?_⟩
    unfold State.lastUnlock
    rw [hera]
  · cases op with
    | newEra =>
      refine ⟨rfl, Nat.add_le_add_right ?_ _⟩
      have hr : (s.currentEra.getD 0).toNat + 1 < 2 ^ 32 := hop
      show _ ≤ ((s.currentEra.map (· + 1)).getD 0).toNat
      cases hera : s.currentEra with
      | none => exact Nat.le_refl _
      | some era =>
        rw [hera] at hr
        simp only [Option.map_some, Option.getD_some] at hr ⊢
        bv_omega
    | setMinimumBond v => cases hop
    | _ => exact absurd rfl hte

theorem LedgerChange.whole {l l' : StakingLedger A} (C : LedgerChange cfg s op l l') (hm : s.minimumBond ≠ 0)
    (hop : Unslashed cfg s op) (h : l.Whole s.minimumBond (s.lastUnlock cfg)) :
    l'.Whole s.minimumBond (s.lastUnlock cfg) := by
  cases C with
  | bondExtra room mn => exact h.bondExtra room mn
  | unbond held active => exact h.unbond hm active _ (BitVec.toNat_add_of_lt hop)
  | withdrawn _ => exact h.consolidateUnlocked _
  | unchanged => exact h
  | rebond chunks mn => exact h.rebond chunks mn
  | slash _ => cases hop

theorem Stakes.step (S : Stakes cfg m s) (hop : Unslashed cfg s op) (hbo : BondsWhole cfg s op) :
    Stakes cfg m (bondingStep cfg s op) := by
  have C : Change cfg s op (bondingStep cfg s op) := bondingStep_change S.paired op
  obtain ⟨hmi, hle⟩ := lastUnlock_le C hop
  obtain rfl := S.minimum
  refine ⟨hmi, C.paired S.paired, fun hm _ _ hl => ?_⟩
  refine C.forall_ledgers (Q := fun l => l.Whole s.minimumBond (State.lastUnlock cfg (bondingStep cfg s op))) ?_ ?_
    (fun hl => (S.whole hm hl).mono hle) hl
  · intro stash ctl requested v hc hun hud hre hcl
    subst hc
    have hf := hbo hun hud hre
    refine ⟨(Nat.add_zero _).symm, ⟨List.Pairwise.nil, fun era h => by cases h⟩, ?_⟩
    rcases hf with hn | hf
    · refine Or.inr ⟨?_, fun chunks last h => by cases chunks <;> cases h⟩
      rw [hn] at hcl
      exact toNat_eq_zero.mp (hcl.trans (Nat.min_eq_right (Nat.zero_le _)))
    · exact Or.inl (by dsimp only; omega)
  · intro ctl l l' held change _
    exact (change.whole hm hop (S.whole hm held)).mono hle

theorem bond_ok (cfg : Config) {stash ctl : A} {v : Balance} (unbonded : s.bonds.bonded.get? stash = none)
    (unpaired : s.bonds.ledger.get? ctl = none) (mn : s.minimumBond.toNat ≤ v.toNat) :
    ∃ s' stake, bond cfg s stash ctl v = .ok s' ∧ s'.minimumBond = s.minimumBond ∧
      s'.bonds.ledger.get? ctl = some ⟨stash, stake, stake, []⟩ ∧
      stake.toNat = min v.toNat (s.assets.free cfg.stakingAssetId stash).toNat := by
  have hcl := toNat_lesser (a := v) (b := s.assets.free cfg.stakingAssetId stash)
  generalize hst : (if v.toNat ≤ (s.assets.free cfg.stakingAssetId stash).toNat then v
    else s.assets.free cfg.stakingAssetId stash) = stake at hcl
  refine ⟨updateLedger cfg { s with bonds := { s.bonds with bonded := s.bonds.bonded.insert stash ctl } } ctl
    ⟨stash, stake, stake, []⟩, stake, ?_, rfl, StorageMap.get?_insert_self, hcl⟩
  simp only [bond, bind_eq_ok, ensure_eq_ok, StorageMap.not_contains_iff, hst]
  exact ⟨(), unbonded, (), unpaired, (), mn, rfl⟩

theorem bondsWhole_of_noDust (h : NoDust (bondingStep cfg s op)) : BondsWhole cfg s op := by
  cases op with
  | bond stash ctl v =>
    intro unbonded unpaired mn
    obtain ⟨s', stake, hb, hmi, hl, hst⟩ := bond_ok cfg unbonded unpaired mn
    have hs : bondingStep cfg s (.bond stash ctl v) = s' := by
      show Result.getD (bond cfg s stash ctl v) s = s'
      rw [hb]
      rfl
    rw [hs] at h
    have hz : (0 : Balance).toNat = 0 := rfl
    rcases h ctl _ hl with hn | hwh
    · have hn : stake.toNat = 0 := congrArg BitVec.toNat hn
      by_cases hf : (s.assets.free cfg.stakingAssetId stash).toNat = 0
      · exact Or.inl (toNat_eq_zero.mp hf)
      · exact Or.inr (by omega)
    · rw [hmi] at hwh
      exact Or.inr (hwh.trans (hst.trans_le (Nat.min_le_right _ _)))
  | _ => trivial

variable {cfg : Config} {s : State A}

/-- Under a minimum bond that stays, and without slashing, no ledger ever has a dust stake exactly if no stash is bonded
that has something, but less than the minimum. -/
theorem no_dust_iff (hstart : s.Unbonded) (ops : List (BondingOp A))
    (hrun : Each (bondingStep cfg) (Unslashed cfg) s ops) :
    (∀ done, done <+: ops → NoDust (execute (bondingStep cfg) s done)) ↔
      Each (bondingStep cfg) (BondsWhole cfg) s ops := by
  have hini : Stakes cfg s.minimumBond s := by
    refine ⟨rfl, hstart.paired, fun _ _ _ hl => ?_⟩
    rw [hstart.2, StorageMap.get?_empty] at hl
    cases hl
  exact throughout_iff_each (I := Stakes cfg s.minimumBond) (fun _ S => S.noDust)
    (fun _ _ hop S => ⟨bondsWhole_of_noDust, S.step hop⟩) hrun hini

/-- Under a minimum bond of 10, 50 of 100 are bonded, 45 unbonded, which takes all, 20 bonded again, and the rest
withdrawn 28 eras later. -/
theorem no_dust_of_rebonded :
    let ops : List (BondingOp Nat) :=
      [.bond 1 2 50, .unbond 2 45, .rebond 2 20] ++ List.replicate 28 .newEra ++ [.withdrawUnbonded 2, .bondExtra 1 3]
    let s := execute (bondingStep ⟨16000, 28⟩) (sampleStaker 10) ops
    s.bonds.ledger.get? 2 = some ⟨1, 23, 23, []⟩ ∧ NoDust s := by
  intro ops s
  refine ⟨by decide +kernel, ?_⟩
  have hrun : Each (bondingStep ⟨16000, 28⟩) (Unslashed ⟨16000, 28⟩) (sampleStaker 10) ops := by
    decide +kernel
  have hbo : Each (bondingStep ⟨16000, 28⟩) (BondsWhole ⟨16000, 28⟩) (sampleStaker 10) ops := by
    decide +kernel
  exact (no_dust_iff ⟨rfl, rfl⟩ ops hrun).mpr hbo ops prefix_rfl

theorem dust_bonded :
    let s := bondingStep ⟨16000, 28⟩ (sampleStaker 150) (.bond 1 2 200)
    s.bonds.ledger.get? 2 = some ⟨1, 100, 100, []⟩ ∧ s.minimumBond = 150 ∧ ¬NoDust s := by
  intro s
  have hl : s.bonds.ledger.get? 2 = some ⟨1, 100, 100, []⟩ := by decide +kernel
  refine ⟨hl, rfl, fun h => ?_⟩
  have hdu := h 2 _ hl
  rcases hdu with hn | hwh
  · revert hn
    decide
  · revert hwh
    decide

end Staking
