import Cennznet.Theorems.Staking.Notaries

/-! # The flag of the final session

The flag is raised a session early, maybe under another mode of forcing. -/

namespace Staking

open Steps

variable {A K : Type}

def Chain.StartsEra (s : Chain K A) : Prop :=
  ((s.eras.endSession s.currentIndex).startSession (s.currentIndex + 1)).activeEra ≠ s.eras.activeEra

/-- The flag of the active session is set exactly if the session is the last of its era. -/
def FinalFlagRight (s : Chain K A) : Prop :=
  s.eras.isActiveSessionFinal = true ↔ s.StartsEra

instance (s : Chain K A) : Decidable s.StartsEra := inferInstanceAs (Decidable (¬_ = _))

def Eras.Heeds (s : Eras) : Prop :=
  (s.forceEra = .forceNone → s.isCurrentSessionFinal = false) ∧
    (s.forceEra = .forceAlways → s.isCurrentSessionFinal = true)

instance (s : Eras) : Decidable s.Heeds := inferInstanceAs (Decidable ((_ → _) ∧ (_ → _)))

/-! ### Rotations -/

/-- Where the chain is in era `c`, which starts at session `e`. While eras are not forced, the flag of the planned
session is right by the number of sessions; when one is to be forced, it is set. -/
structure Tracked (spe : SessionIndex) (s : Chain K A) (c : EraIndex) (e : SessionIndex) : Prop where
  underway : s.eras.Underway c e (s.currentIndex + 1)
  room : s.currentIndex.toNat + 1 < 2 ^ 32
  activeEra : (e = s.currentIndex + 1 ∧ ∃ a, s.eras.activeEra = some a ∧ a + 1 = c) ∨
    (e ≠ s.currentIndex + 1 ∧ s.eras.activeEra = some c)
  unforced : s.eras.forceEra = .notForcing → s.currentIndex.toNat + 1 < e.toNat + spe.toNat ∧
    s.eras.isCurrentSessionFinal = decide (s.currentIndex.toNat + 2 = e.toNat + spe.toNat)
  forced : s.eras.forceEra = .forceNew → s.eras.isCurrentSessionFinal = true

section
variable {spe : SessionIndex} {s : Chain K A} {c : EraIndex} {e : SessionIndex}
  {r : Rotation K A}

theorem Agreed.tracked (A : Agreed spe s c e) : Tracked spe s c e := by
  have hix : (s.currentIndex + 1).toNat = s.currentIndex.toNat + 1 := by
    have := A.room
    bv_omega
  refine ⟨A.planned.underway, A.room, A.activeEra, fun _ => ⟨hix ▸ A.planned.length, A.final⟩, fun h => ?_⟩
  rw [A.planned.notForced] at h
  cases h

theorem Tracked.startsEra_iff (T : Tracked spe s c e) : s.StartsEra ↔ e = s.currentIndex + 1 := by
  obtain ⟨forced, hst⟩ := T.underway.started T.room T.activeEra
  unfold Chain.StartsEra
  rw [hst]
  rcases T.activeEra with ⟨he, a, ha, rfl⟩ | ⟨he, ha⟩
  · refine iff_of_true (fun h => ?_) he
    have hs : a + 1 = a := Option.some.inj (h.trans ha)
    bv_omega
  · exact iff_of_false (fun h => h ha.symm) he

theorem Tracked.heeds_iff (T : Tracked spe s c e) {next : SessionIndex} (hx : next.toNat = s.currentIndex.toNat + 2) :
    s.eras.Heeds ↔ (s.eras.isCurrentSessionFinal = true ↔ s.eras.Plans spe e next) := by
  unfold Eras.Heeds Eras.Plans
  cases hfo : s.eras.forceEra with
  | notForcing =>
    obtain ⟨hle, hfl⟩ := T.unforced hfo
    simp only [hfl, decide_eq_true_eq, hx, reduceCtorEq, false_implies, and_self, true_iff]
    omega
  | forceNew => simp [T.forced hfo]
  | forceNone => simp
  | forceAlways => simp

theorem Tracked.rotate (hN : 2 ≤ spe.toNat) (T : Tracked spe s c e) (hr : s.currentIndex.toNat + 2 < 2 ^ 32) :
    ∃ c' e', Tracked spe (rotateSession spe r s) c' e' ∧ (FinalFlagRight (rotateSession spe r s) ↔ s.eras.Heeds) := by
  obtain ⟨forced, hst⟩ := T.underway.started T.room T.activeEra
  have hix : (s.currentIndex + 1).toNat = s.currentIndex.toNat + 1 := by bv_omega
  have hx : (s.currentIndex + 1 + 1).toNat = s.currentIndex.toNat + 2 := by bv_omega
  have hbe := T.underway.begun
  have U : { s.eras with activeEra := some c, wasEndEraForced := forced }.Underway c e (s.currentIndex + 1) :=
    T.underway.of_eq rfl rfl rfl
  rw [T.heeds_iff hx]
  by_cases hpl : s.eras.Plans spe e (s.currentIndex + 1 + 1)
  · obtain ⟨planned, hpd, U', hcu, hac, hera, hfo⟩ :=
      newSession_of_plans r.election (s.currentIndex + 1 + 1) U (by omega) hpl
    obtain ⟨rfl, hi⟩ := rotateSession_eras hst hpd
    generalize rotateSession spe r s = t at *
    have hi' : t.currentIndex.toNat = s.currentIndex.toNat + 1 := by rw [hi, hix]
    have T' : Tracked spe t (c + 1) (s.currentIndex + 1 + 1) := by
      refine ⟨hi ▸ U', by omega, Or.inl ⟨by rw [hi], c, hera, rfl⟩, fun _ => ⟨by omega, ?_⟩, fun h => ?_⟩
      · exact hcu.trans (decide_eq_false (by omega)).symm
      · rw [hfo] at h
        exact absurd h (Forcing.spent_ne_forceNew _)
    refine ⟨_, _, T', ?_⟩
    rw [FinalFlagRight, T'.startsEra_iff, hi, hac]
    simp only [iff_true_intro hpl]
  · obtain ⟨planned, hpd, U', hcu, hac, hera, hfo⟩ :=
      newSession_of_not_plans r.election (s.currentIndex + 1 + 1) hN U (by omega) hpl
    obtain ⟨rfl, hi⟩ := rotateSession_eras hst hpd
    generalize rotateSession spe r s = t at *
    have hi' : t.currentIndex.toNat = s.currentIndex.toNat + 1 := by rw [hi, hix]
    have hne : e ≠ s.currentIndex + 1 + 1 := fun h => by
      rw [h] at hbe
      omega
    have T' : Tracked spe t c e := by
      have hfo' : t.eras.forceEra = s.eras.forceEra := hfo
      refine ⟨hi ▸ U', by omega, Or.inr ⟨hi ▸ hne, hera⟩, fun h => ⟨?_, ?_⟩, fun h => ?_⟩
      · rw [hfo'] at h
        have hsh : ¬e.toNat + spe.toNat ≤ (s.currentIndex + 1 + 1).toNat := by
          simpa only [Eras.Plans, h] using hpl
        omega
      · rw [hcu, hi, hx, hix]
      · rw [hfo'] at h
        exact absurd (by simp only [Eras.Plans, h]) hpl
    refine ⟨_, _, T', ?_⟩
    rw [FinalFlagRight, T'.startsEra_iff, hi, hac]
    simp only [iff_false_intro hpl, iff_false_intro hne]

end

def RoomToRotate (s : Chain K A) (op : ChainOp K A) : Prop :=
  op.rotation?.isSome → s.currentIndex.toNat + 2 < 2 ^ 32

/-- A session is rotated only while the mode of forcing agrees with the flag of the planned session. -/
def HeedsFlag (s : Chain K A) (op : ChainOp K A) : Prop :=
  op.rotation?.isSome → s.eras.Heeds

instance (s : Chain K A) (op : ChainOp K A) : Decidable (RoomToRotate s op) :=
  inferInstanceAs (Decidable (_ → _))

instance (s : Chain K A) (op : ChainOp K A) : Decidable (HeedsFlag s op) :=
  inferInstanceAs (Decidable (_ → _))

section
variable {spe : SessionIndex} {s : Chain K A} {c : EraIndex} {e : SessionIndex}

theorem Tracked.of_eras (T : Tracked spe s c e) {t : Chain K A} {force : Forcing} (final : Bool)
    (hera : t.eras = { s.eras with forceEra := force, isCurrentSessionFinal := final })
    (hix : t.currentIndex = s.currentIndex)
    (hfo : force ≠ .notForcing ∧ (force = .forceNew → final = true) ∨
      force = s.eras.forceEra ∧ final = s.eras.isCurrentSessionFinal) :
    Tracked spe t c e ∧ (FinalFlagRight t ↔ FinalFlagRight s) := by
  have T' : Tracked spe t c e := by
    have U : t.eras.Underway c e (t.currentIndex + 1) := by
      rw [hera, hix]
      exact T.underway.of_eq rfl rfl rfl
    refine ⟨U, hix ▸ T.room, ?_, fun h => ?_, fun h => ?_⟩
    · rw [hera, hix]
      exact T.activeEra
    · rw [hera] at h
      rcases hfo with ⟨hne, -⟩ | ⟨rfl, rfl⟩
      · exact absurd h hne
      · rw [hera, hix]
        exact T.unforced h
    · rw [hera] at h
      rw [hera]
      rcases hfo with ⟨-, hnew⟩ | ⟨rfl, rfl⟩
      · exact hnew h
      · exact T.forced h
  refine ⟨T', ?_⟩
  rw [FinalFlagRight, FinalFlagRight, T'.startsEra_iff, T.startsEra_iff, hera, hix]

variable [DecidableEq K]

theorem Tracked.chainStep (hN : 2 ≤ spe.toNat) (cfg : EthBridge.Config) (T : Tracked spe s c e) {op : ChainOp K A}
    (hr : RoomToRotate s op) :
    (∃ c' e', Tracked spe (chainStep cfg spe s op) c' e') ∧
      (FinalFlagRight s → (FinalFlagRight (chainStep cfg spe s op) ↔ HeedsFlag s op)) := by
  have hoth {t : Chain K A} (h : Tracked spe t c e ∧ (FinalFlagRight t ↔ FinalFlagRight s))
      (hop : op.rotation? = none) : (∃ c' e', Tracked spe t c' e') ∧
        (FinalFlagRight s → (FinalFlagRight t ↔ HeedsFlag s op)) := by
    refine ⟨⟨c, e, h.1⟩, fun hri => iff_of_true (h.2.mpr hri) fun hro => ?_⟩
    rw [hop] at hro
    cases hro
  cases op with
  | rotateSession r =>
    obtain ⟨c', e', T', hri⟩ := T.rotate (r := r) hN (hr rfl)
    exact ⟨⟨c', e', T'⟩, fun _ => hri.trans ⟨fun h _ => h, fun h => h rfl⟩⟩
  | forceNoEras =>
    exact hoth (T.of_eras s.eras.isCurrentSessionFinal rfl rfl (Or.inl ⟨by decide, fun h => absurd h (by decide)⟩)) rfl
  | forceNewEraAlways => exact hoth (T.of_eras _ rfl rfl (Or.inl ⟨by decide, fun h => absurd h (by decide)⟩)) rfl
  | forceNewEra =>
    refine hoth (T.of_eras _ rfl rfl (Or.inl ⟨?_, fun _ => rfl⟩)) rfl
    split <;> decide
  | bridge op => exact hoth (T.of_eras _ rfl rfl (Or.inr ⟨rfl, rfl⟩)) rfl

end

variable [DecidableEq K]

/-- Throughout a run of rotations and calls that force eras, the flag of the active session is right exactly if each
rotation meets a mode of forcing that agrees with the flag of the planned session. -/
theorem final_flag_right_iff (cfg : EthBridge.Config) {sessionsPerEra : SessionIndex} (hN : 2 ≤ sessionsPerEra.toNat)
    {historyDepth : EraIndex} (hdepth : historyDepth.toNat + 1 < 2 ^ 32) (first : Rotation K A)
    (initialValidators : List A) (deadline : EthBridge.Seconds) (ops : List (ChainOp K A))
    (hroom : Each (chainStep cfg sessionsPerEra) RoomToRotate
      (Chain.genesis sessionsPerEra historyDepth first initialValidators deadline) ops) :
    (∀ done, done <+: ops → FinalFlagRight (execute (chainStep cfg sessionsPerEra)
        (Chain.genesis sessionsPerEra historyDepth first initialValidators deadline) done)) ↔
      Each (chainStep cfg sessionsPerEra) HeedsFlag
        (Chain.genesis sessionsPerEra historyDepth first initialValidators deadline) ops := by
  have A := genesis_agreed hN hdepth first initialValidators deadline
  generalize Chain.genesis sessionsPerEra historyDepth first initialValidators deadline = s at *
  have hst : FinalFlagRight s := by
    rw [FinalFlagRight, A.tracked.startsEra_iff, A.active, decide_eq_true_iff]
  -- where the chain is in its eras is known in every state; the flag is the part that can go wrong
  refine throughout_iff_each (I := fun s => (∃ c e, Tracked sessionsPerEra s c e) ∧ FinalFlagRight s)
    (fun _ h => h.2) (fun s op hop ⟨⟨c, e, T⟩, hri⟩ => ?_) hroom ⟨⟨0, 0, A.tracked⟩, hst⟩
  obtain ⟨htr, hfl⟩ := T.chainStep hN cfg hop
  exact ⟨(hfl hri).mp, fun hhe => ⟨htr, (hfl hri).mpr hhe⟩⟩

theorem final_flag_of_forced_era :
    let ops := [electing [1, 2], .forceNewEra, electing [1, 2], electing [1, 2]]
    (∀ done, done <+: ops → FinalFlagRight (execute (chainStep EthBridge.runtimeConfig 3) sampleChain done)) ∧
      (execute (chainStep EthBridge.runtimeConfig 3) sampleChain ops).eras.activeEra = some 1 := by
  intro ops
  refine ⟨?_, by decide +kernel⟩
  exact (final_flag_right_iff EthBridge.runtimeConfig (by decide) (by decide) _ [] _ ops (by decide +kernel)).mpr
    (by decide +kernel)

/-- Under `ForceAlways` an era starts after a session without the flag. An era forced and then forbidden does not start
after a session with it. -/
theorem final_flag_wrong :
    let always := execute (chainStep EthBridge.runtimeConfig 3) sampleChain [.forceNewEraAlways, electing [1, 2]]
    let never := execute (chainStep EthBridge.runtimeConfig 3) sampleChain
      [.forceNewEra, .forceNoEras, electing [1, 2]]
    (always.eras.isActiveSessionFinal = false ∧ always.StartsEra) ∧
      (never.eras.isActiveSessionFinal = true ∧ ¬never.StartsEra) := by
  decide +kernel

end Staking
