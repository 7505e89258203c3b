import Cennznet.Staking.Session

/-! # The flags of a session -/

namespace Staking

open Word

variable {A : Type}

theorem moveFlags_eq (s : Eras) : s.moveFlags = { s with
    isCurrentSessionFinal := false
    isActiveSessionFinal := s.isCurrentSessionFinal
    wasEndEraForced := s.wasEndEraForced || s.willEraBeForced } := by
  obtain ⟨currentEra, activeEra, starts, depth, force, isCurrent, isActive, forced⟩ := s
  cases force <;> cases isCurrent <;> cases isActive <;> cases forced <;> rfl

theorem newEra_leaves (election : Option (List A)) (s : Eras) (ix : SessionIndex) :
    let s' := (s.newEra election ix).1
    s'.currentEra = some ((s.currentEra.map (· + 1)).getD 0) ∧ s'.activeEra = s.activeEra ∧
      s'.historyDepth = s.historyDepth ∧ s'.forceEra = s.forceEra ∧
      s'.isActiveSessionFinal = s.isActiveSessionFinal ∧
      s'.isCurrentSessionFinal = (if election.isSome then false else s.isCurrentSessionFinal) := by
  cases election <;> exact ⟨rfl, rfl, rfl, rfl, rfl, rfl⟩

theorem newSession_isActive (spe : SessionIndex) (election : Option (List A)) {s : Eras}
    (ix : SessionIndex) (hera : s.currentEra ≠ none) :
    (s.newSession spe election ix).1.isActiveSessionFinal = s.isCurrentSessionFinal := by
  have hnew (t : Eras) : (t.newEra election ix).1.isActiveSessionFinal = t.isActiveSessionFinal :=
    (newEra_leaves election t ix).2.2.2.2.1
  unfold Eras.newSession
  rw [moveFlags_eq]
  split
  · dsimp only
    repeat' split
    all_goals first
      | rfl
      | exact hnew _
  · rename_i hn
    exact absurd hn hera

theorem newSession_snd (spe : SessionIndex) (election : Option (List A)) (s : Eras) (ix : SessionIndex) :
    (s.newSession spe election ix).2 = none ∨ (s.newSession spe election ix).2 = election := by
  unfold Eras.newSession
  dsimp only
  repeat' split
  all_goals first
    | exact Or.inl rfl
    | exact Or.inr (by cases election <;> rfl)

theorem startSession_leaves (s : Eras) (ix : SessionIndex) :
    ∃ active, s.startSession ix = { s with activeEra := active } := by
  unfold Eras.startSession Eras.startEra
  dsimp only
  repeat' split
  all_goals exact ⟨_, rfl⟩

/-! ### Eras -/

structure Eras.Underway (s : Eras) (c : EraIndex) (e planned : SessionIndex) : Prop where
  era : s.currentEra = some c
  start : s.erasStartSessionIndex.get? c = some e
  last : ∀ {k : EraIndex}, c.toNat < k.toNat → s.erasStartSessionIndex.get? k = none
  depth : s.historyDepth.toNat + 1 < 2 ^ 32
  counted : c.toNat ≤ e.toNat
  begun : e.toNat ≤ planned.toNat

section
variable {s : Eras} {c : EraIndex} {e planned : SessionIndex} (election : Option (List A)) (next : SessionIndex)

theorem Eras.Underway.of_eq {t : Eras} (U : s.Underway c e planned) (hera : t.currentEra = s.currentEra)
    (hst : t.erasStartSessionIndex = s.erasStartSessionIndex) (hde : t.historyDepth = s.historyDepth) :
    t.Underway c e planned :=
  ⟨hera.trans U.era, hst ▸ U.start, hst ▸ U.last, hde ▸ U.depth, U.counted, U.begun⟩

theorem toNat_eraLength (h : s.erasStartSessionIndex.get? c = some e) (hle : e.toNat ≤ next.toNat) :
    (s.eraLength c next).toNat = next.toNat - e.toNat := by
  obtain ⟨n, hn⟩ := exists_toNat_eq (w := 32) (n := next.toNat - e.toNat) (by omega)
  have hsub : checkedSub next e = some n := checkedSub_eq_some.mpr (by omega)
  unfold Eras.eraLength
  rw [StorageMap.getD_of_get? h, hsub]
  exact hn

theorem newEra_eq (era : s.currentEra = some c) (hfl : s.isCurrentSessionFinal = false) :
    ∃ starts, s.newEra election next =
        ({ s with currentEra := some (c + 1), erasStartSessionIndex := starts }, election) ∧
      ∀ k, starts.get? k = if checkedSub (c + 1) (s.historyDepth + 1) = some k then none
        else if k = c + 1 then some next else s.erasStartSessionIndex.get? k := by
  obtain ⟨currentEra, activeEra, starts, depth, force, isCurrent, isActive, forced⟩ := s
  cases era
  cases hfl
  cases hold : checkedSub (c + 1) (depth + 1) with
  | none =>
    refine ⟨starts.insert (c + 1) next, ?_, fun k => ?_⟩
    · cases election <;>
        simp only [Eras.newEra, Option.map_some, Option.getD_some, hold, Eras.closeElectionWindow]
    · simp
  | some old =>
    refine ⟨(starts.insert (c + 1) next).remove old, ?_, fun k => ?_⟩
    · cases election <;>
        simp only [Eras.newEra, Option.map_some, Option.getD_some, hold, Eras.closeElectionWindow]
    · simp [eq_comm]

theorem newEra_underway (U : s.Underway c e planned) (hfl : s.isCurrentSessionFinal = false)
    (hx : next.toNat = planned.toNat + 1) :
    ∃ starts, s.newEra election next =
        ({ s with currentEra := some (c + 1), erasStartSessionIndex := starts }, election) ∧
      { s with currentEra := some (c + 1), erasStartSessionIndex := starts }.Underway (c + 1) next next := by
  obtain ⟨starts, hera, hst⟩ := newEra_eq election next U.era hfl
  have hbe := U.begun
  have hco := U.counted
  have hr := next.isLt
  have hsu : (c + 1).toNat = c.toNat + 1 := by bv_omega
  have hcl : ∀ {k}, checkedSub (c + 1) (s.historyDepth + 1) = some k → k.toNat ≤ c.toNat := by
    intro k hk
    have hde : (s.historyDepth + 1).toNat = s.historyDepth.toNat + 1 := by
      have := U.depth
      bv_omega
    have := checkedSub_eq_some.mp hk
    omega
  refine ⟨starts, hera, rfl, ?_, fun {k} hk => ?_, U.depth, by omega, Nat.le_refl _⟩
  · show starts.get? (c + 1) = some next
    rw [hst, if_neg fun h => by have := hcl h; omega, if_pos rfl]
  · show starts.get? k = none
    rw [hst, if_neg fun h => by have := hcl h; omega, if_neg fun h => by rw [h] at hk; omega]
    exact U.last (by omega)

end

/-! ### Planning under every mode -/

def Eras.Plans (s : Eras) (spe e next : SessionIndex) : Prop :=
  match s.forceEra with
  | .forceNew | .forceAlways => True
  | .notForcing => e.toNat + spe.toNat ≤ next.toNat
  | .forceNone => False

def Forcing.spent : Forcing → Forcing
  | .forceNew => .notForcing
  | force => force

theorem Forcing.spent_ne_forceNew (force : Forcing) : force.spent ≠ .forceNew := by
  cases force <;> decide

section
variable {s : Eras} {spe : SessionIndex} {c : EraIndex} {e planned : SessionIndex}
  (election : Option (List A)) (next : SessionIndex)

theorem newSession_eq_newEra (U : s.Underway c e planned) (hx : next.toNat = planned.toNat + 1)
    (hpl : s.Plans spe e next) :
    s.newSession spe election next = Eras.newEra election { s with
      forceEra := s.forceEra.spent
      isCurrentSessionFinal := false
      isActiveSessionFinal := s.isCurrentSessionFinal
      wasEndEraForced := s.wasEndEraForced || s.willEraBeForced } next := by
  have hbe := U.begun
  have hle := toNat_eraLength next U.start (by omega)
  unfold Eras.Plans at hpl
  unfold Eras.newSession
  simp only [moveFlags_eq]
  rw [U.era]
  cases hfo : s.forceEra with
  | forceNew => rfl
  | forceAlways => rfl
  | notForcing =>
    rw [hfo] at hpl
    exact if_pos (by omega)
  | forceNone =>
    rw [hfo] at hpl
    exact hpl.elim

theorem newSession_of_plans (U : s.Underway c e planned) (hx : next.toNat = planned.toNat + 1)
    (hpl : s.Plans spe e next) :
    ∃ s', s.newSession spe election next = (s', election) ∧ s'.Underway (c + 1) next next ∧
      s'.isCurrentSessionFinal = false ∧ s'.isActiveSessionFinal = s.isCurrentSessionFinal ∧
      s'.activeEra = s.activeEra ∧ s'.forceEra = s.forceEra.spent := by
  obtain ⟨starts, hera, U'⟩ := newEra_underway election next (s := { s with
      forceEra := s.forceEra.spent
      isCurrentSessionFinal := false
      isActiveSessionFinal := s.isCurrentSessionFinal
      wasEndEraForced := s.wasEndEraForced || s.willEraBeForced }) (U.of_eq rfl rfl rfl) rfl hx
  exact ⟨_, (newSession_eq_newEra election next U hx hpl).trans hera, U', rfl, rfl, rfl, rfl⟩

theorem newSession_of_not_plans (hN : 2 ≤ spe.toNat) (U : s.Underway c e planned)
    (hx : next.toNat = planned.toNat + 1) (hpl : ¬s.Plans spe e next) :
    ∃ s', s.newSession spe election next = (s', none) ∧ s'.Underway c e next ∧
      s'.isCurrentSessionFinal = decide (next.toNat + 1 = e.toNat + spe.toNat) ∧
      s'.isActiveSessionFinal = s.isCurrentSessionFinal ∧ s'.activeEra = s.activeEra ∧ s'.forceEra = s.forceEra := by
  have hbe := U.begun
  have hle := toNat_eraLength next U.start (by omega)
  have hl : s.eraLength c next + 1 = spe ↔ next.toNat + 1 = e.toNat + spe.toNat := by
    have hr := spe.isLt
    have hone : (1 : SessionIndex).toNat = 1 := rfl
    rw [← BitVec.toNat_inj, BitVec.toNat_add, hone]
    omega
  refine ⟨{ s.moveFlags with
    isCurrentSessionFinal := decide (next.toNat + 1 = e.toNat + spe.toNat) }, ?_, ?_, rfl, ?_, ?_, ?_⟩
  · unfold Eras.Plans at hpl
    unfold Eras.newSession
    simp only [U.era, moveFlags_eq, hl]
    cases hfo : s.forceEra with
    | forceNew =>
      rw [hfo] at hpl
      exact absurd trivial hpl
    | forceAlways =>
      rw [hfo] at hpl
      exact absurd trivial hpl
    | notForcing =>
      rw [hfo] at hpl
      have hsh : ¬spe.toNat ≤ (s.eraLength c next).toNat := by omega
      simp only [if_neg hsh]
      split <;> rename_i h <;> simp [h]
    | forceNone =>
      simp only [Eras.closeElectionWindow, ite_self]
      split <;> rename_i h <;> simp [h]
  · rw [moveFlags_eq]
    exact ⟨U.era, U.start, U.last, U.depth, U.counted, by omega⟩
  all_goals rw [moveFlags_eq]

end

/-! ### Starting a session -/

theorem endSession_eq (s : Eras) (i : SessionIndex) :
    s.endSession i = s ∨ s.endSession i = { s with wasEndEraForced := false } := by
  unfold Eras.endSession Eras.endEra
  repeat' split
  all_goals first
    | exact Or.inl rfl
    | exact Or.inr rfl

theorem Eras.Underway.started {s : Eras} {c : EraIndex} {e i : SessionIndex} (U : s.Underway c e (i + 1))
    (hr : i.toNat + 1 < 2 ^ 32)
    (active : (e = i + 1 ∧ ∃ a, s.activeEra = some a ∧ a + 1 = c) ∨ (e ≠ i + 1 ∧ s.activeEra = some c)) :
    ∃ forced, (s.endSession i).startSession (i + 1) = { s with activeEra := some c, wasEndEraForced := forced } := by
  have hst (forced : Bool) : { s with wasEndEraForced := forced }.startSession (i + 1) =
      { s with activeEra := some c, wasEndEraForced := forced } := by
    unfold Eras.startSession Eras.startEra
    rcases active with ⟨rfl, a, ha, rfl⟩ | ⟨hne, ha⟩
    · simp only [ha, Option.map_some, Option.getD_some, U.start, if_true]
    · have hco := U.counted
      have hbe := U.begun
      have hx : s.erasStartSessionIndex.get? (c + 1) = none := U.last (by bv_omega)
      simp only [ha, Option.map_some, Option.getD_some, hx]
  rcases endSession_eq s i with hed | hed
  · rw [hed]
    exact ⟨_, hst s.wasEndEraForced⟩
  · rw [hed]
    exact ⟨_, hst false⟩

end Staking
