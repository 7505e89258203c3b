import Cennznet.Staking.Bonding

/-! # What is in a ledger -/

namespace Staking

open Word List
open GenericAsset (Balance)

def chunksTotal (chunks : List UnlockChunk) : Nat := (chunks.map (·.value.toNat)).sum

@[simp] theorem sum_values (chunks : List UnlockChunk) : (chunks.map (·.value.toNat)).sum = chunksTotal chunks := rfl

@[simp] theorem chunksTotal_nil : chunksTotal [] = 0 := rfl

@[simp] theorem chunksTotal_cons (chunk : UnlockChunk) (chunks : List UnlockChunk) :
    chunksTotal (chunk :: chunks) = chunk.value.toNat + chunksTotal chunks := by
  simp only [chunksTotal, map_cons, sum_cons]

@[simp] theorem chunksTotal_append (l l' : List UnlockChunk) : chunksTotal (l ++ l') = chunksTotal l + chunksTotal l' := by
  simp only [chunksTotal, map_append, sum_append]

@[simp] theorem chunksTotal_reverse (l : List UnlockChunk) : chunksTotal l.reverse = chunksTotal l := by
  simp only [chunksTotal, map_reverse, sum_reverse]

/-- What is taken in order: some funds are drained, then one may be lowered, and the rest is left. -/
inductive TakenInOrder : List Nat → List Nat → Prop where
  | nil : TakenInOrder [] []
  | lowered {fund kept : Nat} (rest : List Nat) (h : kept ≤ fund) : TakenInOrder (fund :: rest) (kept :: rest)
  | drained (fund : Nat) {rest left : List Nat} (h : TakenInOrder rest left) : TakenInOrder (fund :: rest) (0 :: left)

theorem TakenInOrder.sum_le {before left : List Nat} (h : TakenInOrder before left) : left.sum ≤ before.sum := by
  induction h with
  | nil => exact Nat.le_refl _
  | lowered rest hle => simpa using hle
  | drained fund _ ih =>
    simp only [sum_cons]
    omega

namespace StakingLedger

variable {A : Type} {l : StakingLedger A}

def Balanced (l : StakingLedger A) : Prop := l.total.toNat = l.active.toNat + chunksTotal l.unlocking

def funds (l : StakingLedger A) (drained : Nat) : List Nat :=
  l.active.toNat :: (List.replicate drained 0 ++ l.unlocking.map (·.value.toNat))

/-! ### Bonding more -/

theorem Balanced.bondExtra (h : l.Balanced) {extra : Balance} (room : extra.toNat + l.total.toNat < 2 ^ 128) :
    (l.active + extra).toNat = l.active.toNat + extra.toNat ∧
      { l with total := l.total + extra, active := l.active + extra }.Balanced := by
  unfold Balanced at h ⊢
  have hac : (l.active + extra).toNat = l.active.toNat + extra.toNat := BitVec.toNat_add_of_lt (by omega)
  have htot : (l.total + extra).toNat = l.total.toNat + extra.toNat := BitVec.toNat_add_of_lt (by omega)
  refine ⟨hac, ?_⟩
  dsimp only
  omega

theorem consolidateChunks_spec (era : EraIndex) (total : Balance) (cs : List UnlockChunk)
    (h : chunksTotal cs ≤ total.toNat) :
    (consolidateChunks era total cs).2 = cs.filter (fun chunk => era.toNat < chunk.era.toNat) ∧
      (consolidateChunks era total cs).1.toNat + chunksTotal cs =
        total.toNat + chunksTotal (consolidateChunks era total cs).2 := by
  induction cs generalizing total with
  | nil => exact ⟨rfl, rfl⟩
  | cons chunk cs ih =>
    rw [chunksTotal_cons] at h
    unfold consolidateChunks
    by_cases hera : era.toNat < chunk.era.toNat
    · obtain ⟨hch, htot⟩ := ih total (by omega)
      rw [if_pos hera, filter_cons_of_pos (by simpa using hera)]
      refine ⟨congrArg _ hch, ?_⟩
      simp only [chunksTotal_cons]
      omega
    · have hsub : (saturatingSub total chunk.value).toNat = total.toNat - chunk.value.toNat := toNat_saturatingSub
      obtain ⟨hch, htot⟩ := ih (saturatingSub total chunk.value) (by omega)
      rw [if_neg hera, filter_cons_of_neg (by simpa using hera)]
      refine ⟨hch, ?_⟩
      rw [chunksTotal_cons]
      omega

theorem Balanced.consolidateUnlocked (h : l.Balanced) (era : EraIndex) : (l.consolidateUnlocked era).Balanced := by
  unfold Balanced at h
  obtain ⟨-, htot⟩ := consolidateChunks_spec era l.total l.unlocking (by omega)
  show (consolidateChunks era l.total l.unlocking).1.toNat = l.active.toNat + chunksTotal _
  have heq : (l.consolidateUnlocked era).unlocking = (consolidateChunks era l.total l.unlocking).2 := rfl
  rw [heq]
  omega

theorem Balanced.unlocking_consolidateUnlocked (h : l.Balanced) (era : EraIndex) :
    (l.consolidateUnlocked era).unlocking = l.unlocking.filter (fun chunk => era.toNat < chunk.era.toNat) := by
  unfold Balanced at h
  exact (consolidateChunks_spec era l.total l.unlocking (by omega)).1

/-! ### Bonding again -/

theorem rebondChunks_spec {v : Balance} (rebonded active : Balance) (cs : List UnlockChunk)
    (hle : rebonded.toNat ≤ v.toNat) (hr : active.toNat + chunksTotal cs < 2 ^ 128) :
    (rebondChunks v rebonded active cs).1.toNat = active.toNat + min (v.toNat - rebonded.toNat) (chunksTotal cs) ∧
      (rebondChunks v rebonded active cs).1.toNat + chunksTotal (rebondChunks v rebonded active cs).2 =
        active.toNat + chunksTotal cs ∧
      (rebondChunks v rebonded active cs).2.map UnlockChunk.era <:+ cs.map UnlockChunk.era := by
  induction cs generalizing rebonded active with
  | nil => exact ⟨by simp [rebondChunks], rfl, suffix_rfl⟩
  | cons last cs ih =>
    rw [chunksTotal_cons] at hr
    have hre : (v - rebonded).toNat = v.toNat - rebonded.toNat := toNat_sub_of_le hle
    have hva := v.isLt
    unfold rebondChunks
    by_cases hpop : last.value.toNat ≤ (v - rebonded).toNat
    · have hrb : (rebonded + last.value).toNat = rebonded.toNat + last.value.toNat := BitVec.toNat_add_of_lt (by omega)
      have hac : (active + last.value).toNat = active.toNat + last.value.toNat := BitVec.toNat_add_of_lt (by omega)
      rw [if_pos hpop]
      by_cases hdo : v.toNat ≤ (rebonded + last.value).toNat
      · rw [if_pos hdo]
        exact ⟨by simp only [chunksTotal_cons]; omega, by simp only [chunksTotal_cons]; omega, suffix_cons _ _⟩
      · rw [if_neg hdo]
        obtain ⟨hmin, hsum, hsu⟩ := ih (rebonded + last.value) (active + last.value) (by omega) (by omega)
        refine ⟨by simp only [chunksTotal_cons]; omega, by simp only [chunksTotal_cons]; omega,
          hsu.trans (suffix_cons _ _)⟩
    · have hac : (active + (v - rebonded)).toNat = active.toNat + (v - rebonded).toNat :=
        BitVec.toNat_add_of_lt (by omega)
      have hl : (last.value - (v - rebonded)).toNat = last.value.toNat - (v - rebonded).toNat :=
        toNat_sub_of_le (by omega)
      rw [if_neg hpop]
      exact ⟨by simp only [chunksTotal_cons]; omega, by simp only [chunksTotal_cons]; omega, suffix_rfl⟩

theorem Balanced.rebond_spec (h : l.Balanced) (v : Balance) :
    (l.rebond v).Balanced ∧ (l.rebond v).stash = l.stash ∧ (l.rebond v).total = l.total ∧
      (l.rebond v).active.toNat = l.active.toNat + min v.toNat (chunksTotal l.unlocking) ∧
      (l.rebond v).unlocking.map UnlockChunk.era <+: l.unlocking.map UnlockChunk.era := by
  have hr := l.total.isLt
  unfold Balanced at h
  obtain ⟨hmin, hsum, hsu⟩ := rebondChunks_spec 0 l.active l.unlocking.reverse
    (Nat.zero_le v.toNat) (by rw [chunksTotal_reverse]; omega)
  rw [chunksTotal_reverse] at hmin hsum
  have hun : (l.rebond v).unlocking = (rebondChunks v 0 l.active l.unlocking.reverse).2.reverse := rfl
  have hac : (l.rebond v).active = (rebondChunks v 0 l.active l.unlocking.reverse).1 := rfl
  refine ⟨?_, rfl, rfl, hac ▸ hmin, ?_⟩
  · show l.total.toNat = _
    rw [hun, chunksTotal_reverse, hac]
    omega
  · rw [hun, map_reverse, ← reverse_suffix, reverse_reverse, ← map_reverse]
    exact hsu

/-! ### Slashing -/

theorem applySlash_spec (total target slash mn : Balance) (h : target.toNat ≤ total.toNat) :
    (applySlash total target slash mn).1.toNat + target.toNat =
        total.toNat + (applySlash total target slash mn).2.1.toNat ∧
      (applySlash total target slash mn).2.1.toNat ≤ target.toNat ∧
      ((applySlash total target slash mn).2.1 = 0 ∨ (applySlash total target slash mn).2.2 = 0) := by
  have hsl : (if slash.toNat ≤ target.toNat then slash else target).toNat = min slash.toNat target.toNat := toNat_lesser
  unfold applySlash
  generalize hfr : (if slash.toNat ≤ target.toNat then slash else target) = slashed at *
  dsimp only
  have hta : (target - slashed).toNat = target.toNat - slashed.toNat := toNat_sub_of_le (by omega)
  have hre : target - slashed = 0 ∨ slash - slashed = 0 := by
    rw [← hfr]
    split
    · exact Or.inr (BitVec.sub_self _)
    · exact Or.inl (BitVec.sub_self _)
  by_cases hn : slashed = 0
  · rw [if_pos hn]
    refine ⟨rfl, Nat.le_refl _, ?_⟩
    simpa [hn] using hre
  · rw [if_neg hn]
    by_cases hdu : (target - slashed).toNat ≤ mn.toNat
    · rw [if_pos hdu]
      refine ⟨?_, Nat.zero_le _, Or.inl rfl⟩
      have hz : (0 : Balance).toNat = 0 := rfl
      simp only [toNat_saturatingSub]
      omega
    · rw [if_neg hdu]
      refine ⟨?_, ?_, hre⟩
      · simp only [toNat_saturatingSub]
        omega
      · dsimp only
        omega

theorem applySlash_zero (total target mn : Balance) :
    applySlash total target 0 mn = (total, target, 0) := by
  unfold applySlash
  simp

theorem slashChunks_spec (mn total v : Balance) (cs : List UnlockChunk) (h : chunksTotal cs ≤ total.toNat) :
    ∃ drained, (slashChunks mn total v cs).1.toNat + chunksTotal cs =
        total.toNat + chunksTotal (slashChunks mn total v cs).2 ∧
      TakenInOrder (cs.map (·.value.toNat))
        (List.replicate drained 0 ++ (slashChunks mn total v cs).2.map (·.value.toNat)) ∧
      (slashChunks mn total v cs).2.map UnlockChunk.era = (cs.map UnlockChunk.era).drop drained := by
  induction cs generalizing total v with
  | nil => exact ⟨0, rfl, .nil, rfl⟩
  | cons chunk cs ih =>
    rw [chunksTotal_cons] at h
    obtain ⟨htot, hle, -⟩ := applySlash_spec total chunk.value v mn (by omega)
    unfold slashChunks
    generalize applySlash total chunk.value v mn = slashed at *
    obtain ⟨total', chunkValue, v'⟩ := slashed
    dsimp only at *
    by_cases hdr : chunkValue = 0
    · rw [if_pos hdr]
      rw [hdr] at htot
      have hz : (0 : Balance).toNat = 0 := rfl
      obtain ⟨drained, hsum, hr, hera⟩ := ih total' v' (by omega)
      refine ⟨drained + 1, ?_, ?_, hera⟩
      · rw [chunksTotal_cons]
        omega
      · rw [replicate_succ]
        exact .drained _ hr
    · rw [if_neg hdr]
      refine ⟨0, ?_, .lowered _ hle, rfl⟩
      simp only [chunksTotal_cons]
      omega

theorem slashChunks_zero (mn total : Balance) (cs : List UnlockChunk) :
    ∃ drained, (slashChunks mn total 0 cs).1 = total ∧ cs.map (·.value.toNat) =
        List.replicate drained 0 ++ (slashChunks mn total 0 cs).2.map (·.value.toNat) ∧
      (slashChunks mn total 0 cs).2.map UnlockChunk.era = (cs.map UnlockChunk.era).drop drained := by
  induction cs with
  | nil => exact ⟨0, rfl, rfl, rfl⟩
  | cons chunk cs ih =>
    unfold slashChunks
    rw [applySlash_zero]
    dsimp only
    by_cases hey : chunk.value = 0
    · rw [if_pos hey]
      obtain ⟨drained, htot, hva, hera⟩ := ih
      refine ⟨drained + 1, htot, ?_, hera⟩
      rw [map_cons, hey, hva, replicate_succ]
      rfl
    · rw [if_neg hey]
      exact ⟨0, rfl, rfl, rfl⟩

structure Slashed (l l' : StakingLedger A) (slashed : Balance) : Prop where
  stash : l'.stash = l.stash
  balanced : l'.Balanced
  decrease : l'.total.toNat + slashed.toNat = l.total.toNat
  inOrder : ∃ drained, TakenInOrder (l.funds 0) (l'.funds drained) ∧
    l'.unlocking.map UnlockChunk.era = (l.unlocking.map UnlockChunk.era).drop drained

theorem Balanced.slash_spec (h : l.Balanced) (v mn : Balance) : l.Slashed (l.slash v mn).1 (l.slash v mn).2 := by
  unfold Balanced at h
  obtain ⟨htot, hle, hend⟩ := applySlash_spec l.total l.active v mn (by omega)
  unfold StakingLedger.slash
  generalize applySlash l.total l.active v mn = slashed at *
  obtain ⟨total, active, v'⟩ := slashed
  dsimp only at *
  obtain ⟨drained, hsum, hor, hera⟩ : ∃ drained,
      (slashChunks mn total v' l.unlocking).1.toNat + chunksTotal l.unlocking =
        total.toNat + chunksTotal (slashChunks mn total v' l.unlocking).2 ∧
      TakenInOrder (l.funds 0) (active.toNat ::
        (List.replicate drained 0 ++ (slashChunks mn total v' l.unlocking).2.map (·.value.toNat))) ∧
      (slashChunks mn total v' l.unlocking).2.map UnlockChunk.era = (l.unlocking.map UnlockChunk.era).drop drained := by
    rcases hend with rfl | rfl
    · obtain ⟨drained, hsum, hor, hera⟩ := slashChunks_spec mn total v' l.unlocking (by omega)
      exact ⟨drained, hsum, .drained _ hor, hera⟩
    · obtain ⟨drained, hsum, hva, hera⟩ := slashChunks_zero mn total l.unlocking
      have hch : chunksTotal l.unlocking = chunksTotal (slashChunks mn total 0 l.unlocking).2 := by
        simpa using congrArg List.sum hva
      refine ⟨drained, ?_, ?_, hera⟩
      · rw [hsum, ← hch]
      · rw [← hva]
        exact .lowered _ hle
  generalize slashChunks mn total v' l.unlocking = rest at *
  obtain ⟨total', unlocking⟩ := rest
  dsimp only at *
  have hre : (saturatingSub l.total total').toNat = l.total.toNat - total'.toNat := toNat_saturatingSub
  have hls : active.toNat + chunksTotal unlocking ≤ l.active.toNat + chunksTotal l.unlocking := by
    simpa [funds] using hor.sum_le
  refine ⟨rfl, ?_, ?_, drained, hor, hera⟩
  · show total'.toNat = active.toNat + chunksTotal unlocking
    omega
  · show total'.toNat + _ = _
    omega

/-! ### Unbonding -/

theorem Balanced.unbond_iff (h : l.Balanced) (minimumBond v : Balance) (era : EraIndex) :
    (l.unbond minimumBond v era).Balanced ↔ minimumBond ≠ 0 ∨ v.toNat ≤ l.active.toNat := by
  unfold Balanced at h
  unfold StakingLedger.unbond
  have hz : (0 : Balance).toNat = 0 := rfl
  cases hsub : checkedSub l.active v with
  | some rem =>
    have hre := checkedSub_eq_some.mp hsub
    refine iff_of_true ?_ (Or.inr (by omega))
    simp only [Option.getD_some]
    split <;> simp only [Balanced, chunksTotal_append, chunksTotal_cons, chunksTotal_nil] <;> omega
  | none =>
    have hls := checkedSub_eq_none.mp hsub
    simp only [Option.getD_none]
    split <;> rename_i hmi <;> simp only [Balanced, chunksTotal_append, chunksTotal_cons, chunksTotal_nil]
    · refine iff_of_true (by omega) (Or.inl ?_)
      rintro rfl
      exact absurd hmi (Nat.lt_irrefl _)
    · have hn : minimumBond = 0 := toNat_eq_zero.mp (by omega)
      refine iff_of_false (by omega) ?_
      rintro (hne | hle)
      · exact hne hn
      · omega

end StakingLedger

end Staking
