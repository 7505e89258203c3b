import Mathlib.Data.List.Perm.Basic
import Cennznet.Theorems.Staking.Deferred

/-! # Deferred reports

A deferred report is handled as if its strategy were `WhenSlashed`. -/

namespace Staking.Slashing

open List

section
variable {A : Type} [DecidableEq A] {cfg : Config A} {s : State A}

/-! ### The queue is not read -/

def withQueue (s : State A) (queue : List (DeferredOffence A)) : State A :=
  { s with deferredOffences := queue }

variable (queue : List (DeferredOffence A))

theorem addOffendingValidator_withQueue (s : State A) (stash : A) (disable : Bool) :
    addOffendingValidator cfg (withQueue s queue) stash disable =
      withQueue (addOffendingValidator cfg s stash disable) queue := by
  unfold addOffendingValidator withQueue
  dsimp only
  cases s.sessionValidators.findIdx? (· = stash) with
  | none => rfl
  | some validatorIndex =>
    dsimp only
    cases Search.binarySearch (s.offendingValidators.map (·.1.toNat)) (BitVec.ofNat 32 validatorIndex).toNat with
    | error i => rfl
    | ok i =>
      dsimp only
      split
      · split <;> rfl
      · rfl

theorem kickOutIfRecent_withQueue (s : State A) (params : SlashParams A) :
    kickOutIfRecent cfg (withQueue s queue) params = withQueue (kickOutIfRecent cfg s params) queue := by
  have hme : (withQueue s queue).metadata = s.metadata := rfl
  unfold kickOutIfRecent
  simp only [hme]
  by_cases hre : ((fetchSpans s.metadata params.stash params.windowStart params.rewardProportion).2.spans.eraSpan
      params.slashEra).map (·.index) =
      some (fetchSpans s.metadata params.stash params.windowStart params.rewardProportion).2.spans.spanIndex
  · simp only [if_pos hre]
    exact addOffendingValidator_withQueue queue { chillStash s params.stash with metadata := _ } _ _
  · simp only [if_neg hre]
    exact addOffendingValidator_withQueue queue { s with metadata := _ } _ _

theorem chilledOffender_withQueue (s : State A) (stash : A) (recent disable : Bool) (m : Metadata A) :
    { addOffendingValidator cfg (if recent then chillStash (withQueue s queue) stash else withQueue s queue) stash disable
      with metadata := m } =
    withQueue { addOffendingValidator cfg (if recent then chillStash s stash else s) stash disable with metadata := m }
      queue := by
  have hch : (if recent then chillStash (withQueue s queue) stash else withQueue s queue) =
      withQueue (if recent then chillStash s stash else s) queue := by
    cases recent <;> rfl
  rw [hch, addOffendingValidator_withQueue]
  rfl

theorem computeOutcomes_withQueue (s : State A) (params : SlashParams A) :
    computeOutcomes cfg (withQueue s queue) params =
      (withQueue (computeOutcomes cfg s params).1 queue, (computeOutcomes cfg s params).2) := by
  have hme : (withQueue s queue).metadata = s.metadata := rfl
  unfold computeOutcomes
  simp only [hme]
  split
  · exact congrArg (·, none) (kickOutIfRecent_withQueue queue s params)
  · split
    · exact congrArg (·, some _) (chilledOffender_withQueue queue s _ _ _ _)
    · rfl

theorem slashOffender_withQueue (s : State A) (details : OffenceDetails A) (params : SlashParams A) :
    slashOffender cfg (withQueue s queue) details params =
      (withQueue (slashOffender cfg s details params).1 queue, (slashOffender cfg s details params).2) := by
  simp only [slashOffender, computeSlash, computeOutcomes_withQueue]

def withQueue₁ (r : State A × Weight) (queue : List (DeferredOffence A)) : State A × Weight :=
  (withQueue r.1 queue, r.2)

theorem handleOffender_withQueue (terms : ReportTerms) (r : State A × Weight) (offender : OffenceDetails A × Perbill) :
    handleOffender cfg terms (withQueue₁ r queue) offender = withQueue₁ (handleOffender cfg terms r offender) queue := by
  have hinv : (withQueue r.1 queue).invulnerables = r.1.invulnerables := rfl
  simp only [handleOffender, withQueue₁, hinv, slashOffender_withQueue]
  split
  · rfl
  · rcases slashOffender cfg r.1 offender.1 (terms.params cfg offender.1 offender.2) with ⟨t, _ | unapplied⟩
    · rfl
    · refine congrArg (·, _) ?_
      unfold recordSlash
      split <;> rfl

theorem handleOffenders_withQueue (terms : ReportTerms) (offenders : List (OffenceDetails A × Perbill))
    (r : State A × Weight) :
    offenders.foldl (handleOffender cfg terms) (withQueue₁ r queue) =
      withQueue₁ (offenders.foldl (handleOffender cfg terms) r) queue := by
  induction offenders generalizing r with
  | nil => rfl
  | cons offender offenders ih =>
    rw [foldl_cons, handleOffender_withQueue, ih]
    rfl

section
variable (offence : DeferredOffence A) (strat : DisableStrategy)

theorem onOffence_withQueue (hcl : s.staking.electionClosed = true) :
    onOffence cfg (withQueue s queue) offence strat = withQueue₁ (onOffence cfg s offence strat) queue := by
  have hopn : ¬ s.staking.electionClosed = false := by simp [hcl]
  have hqu : ¬ (withQueue s queue).staking.electionClosed = false := hopn
  have hera : slashEra cfg (withQueue s queue) = slashEra cfg s := rfl
  have heras : (withQueue s queue).eras = s.eras := rfl
  unfold onOffence
  rw [if_neg hopn, if_neg hqu, hera, heras]
  cases s.eras.activeEra with
  | none => rfl
  | some activeEra =>
    dsimp only
    cases (slashEra cfg s activeEra offence.slashSession).1 with
    | none => rfl
    | some era =>
      exact handleOffenders_withQueue queue _ (offence.offenders.zip offence.slashFraction)
        ({ s with earliestUnappliedSlash := some (s.earliestUnappliedSlash.getD activeEra) }, _)

theorem onOffence_deferredOffences (hcl : s.staking.electionClosed = true) :
    (onOffence cfg s offence strat).1.deferredOffences = s.deferredOffences := by
  have hs : onOffence cfg s offence strat = withQueue₁ (onOffence cfg s offence strat) s.deferredOffences :=
    onOffence_withQueue s.deferredOffences offence strat hcl
  exact congrArg (fun r : State A × Weight => r.1.deferredOffences) hs

/-! ### One report -/

def closeWindow (s : State A) : State A :=
  { s with staking := { s.staking with electionClosed := true } }

theorem closeWindow_onOffence (hopn : s.staking.electionClosed = false) (hey : s.deferredOffences = []) :
    closeWindow (onOffence cfg s offence strat).1 = withQueue (closeWindow s) [offence] := by
  unfold onOffence
  rw [if_pos hopn, hey]
  rfl

omit [DecidableEq A] in
theorem limit_not_le_zero (hli : cfg.weightSoftLimit ≠ 0) : ¬ cfg.weightSoftLimit.toNat ≤ (0 : Weight).toNat :=
  fun hle => hli (BitVec.eq_of_toNat_eq (Nat.le_zero.mp hle))

theorem deferred_outcome (hopn : s.staking.electionClosed = false) (hey : s.deferredOffences = [])
    (hli : cfg.weightSoftLimit ≠ 0) :
    (offencesOnInitialize cfg (closeWindow (onOffence cfg s offence strat).1)).1 =
      (onOffence cfg (closeWindow s) offence .whenSlashed).1 := by
  have hha : onOffence cfg (withQueue (closeWindow s) [offence]) offence .whenSlashed =
      withQueue₁ (onOffence cfg (closeWindow s) offence .whenSlashed) [offence] := onOffence_withQueue _ _ _ rfl
  have hre : retainDeferred cfg (withQueue (closeWindow s) [offence]) 0 [offence] =
      ((withQueue₁ (onOffence cfg (closeWindow s) offence .whenSlashed) [offence]).1,
        0 + (withQueue₁ (onOffence cfg (closeWindow s) offence .whenSlashed) [offence]).2, []) := by
    rw [retainDeferred, if_neg (limit_not_le_zero hli), hha]
    rfl
  have hqu : (onOffence cfg (closeWindow s) offence .whenSlashed).1.deferredOffences = [] :=
    (onOffence_deferredOffences offence .whenSlashed rfl).trans hey
  have hcl : ¬ (withQueue (closeWindow s) [offence]).staking.electionClosed = false :=
    fun h => Bool.false_ne_true h.symm
  rw [closeWindow_onOffence offence strat hopn hey, offencesOnInitialize, if_neg hcl]
  show withQueue (retainDeferred cfg _ 0 [offence]).1 (retainDeferred cfg _ 0 [offence]).2.2 = _
  rw [hre, ← hqu]
  rfl

end

theorem retainDeferred_zero (hli : cfg.weightSoftLimit = 0) (used : Weight)
    (deferred : List (DeferredOffence A)) : retainDeferred cfg s used deferred = (s, used, deferred) := by
  induction deferred with
  | nil => rfl
  | cons offence deferred ih =>
    rw [retainDeferred, if_pos (hli ▸ Nat.zero_le _), ih]

theorem offencesOnInitialize_zero (hli : cfg.weightSoftLimit = 0) (s : State A) :
    (offencesOnInitialize cfg s).1 = s := by
  unfold offencesOnInitialize
  split
  · rfl
  · rw [retainDeferred_zero hli]

/-! ### The strategy of a report -/

/-- One validator, and an open election window. -/
def onDuty (stash : A) : State A :=
  .unreported ⟨⟨∅, ∅⟩, .genesis 0, 0, none, false, ∅⟩ 0 [stash]

/-- All of a stake of one is slashed, or nothing. -/
def reportOf (stash : A) (slash : Bool) : DeferredOffence A :=
  ⟨[⟨(stash, ⟨1, 1, []⟩), []⟩], [Perbill.fromPercent (if slash then 100 else 0)], 0⟩

def disables (strat : DisableStrategy) (slash : Perbill) (total : GenericAsset.Balance) : Bool :=
  if slash.mul total = 0 then strat = .always else strat ≠ .never

theorem disabled_addOffendingValidator {stash : A} (hse : s.sessionValidators = [stash])
    (hof : s.offendingValidators = []) (disable : Bool) :
    (addOffendingValidator cfg s stash disable).disabled = s.disabled ++ if disable then [0] else [] := by
  have hix : s.sessionValidators.findIdx? (· = stash) = some 0 := by simp [hse]
  unfold addOffendingValidator
  rw [hix, hof]
  cases disable
  · exact (append_nil _).symm
  · rfl

theorem disabled_computeOutcomes {params : SlashParams A} (hse : s.sessionValidators = [params.stash])
    (hof : s.offendingValidators = []) (hme : s.metadata = .empty) :
    (computeOutcomes cfg s params).1.disabled = s.disabled ++
      if disables params.disableStrategy params.slash params.exposure.total then [0] else [] := by
  unfold computeOutcomes disables
  dsimp only
  by_cases hz : params.slash.mul params.exposure.total = 0
  · simp only [if_pos hz]
    unfold kickOutIfRecent
    dsimp only
    split <;> exact disabled_addOffendingValidator (by exact hse) (by exact hof) _
  · have hpr : (Perbill.fromPercent 0).parts < params.slash.parts := by
      refine Nat.pos_of_ne_zero fun h0 => hz (BitVec.eq_of_toNat_eq ?_)
      rw [Perbill.toNat_mul, h0, Nat.zero_mul, Rounding.nearest_zero]
      rfl
    have hno : s.metadata.validatorSlashInEra.get? (params.slashEra, params.stash) = none := by
      rw [hme]
      rfl
    simp only [if_neg hz, hno, Option.map_none, Option.getD_none, if_pos hpr]
    split <;> exact disabled_addOffendingValidator (by exact hse) (by exact hof) _

theorem disabled_handleOffender {terms : ReportTerms} {r : State A × Weight} {o : OffenceDetails A × Perbill}
    (h : o.1.offender.1 ∉ r.1.invulnerables) : (handleOffender cfg terms r o).1.disabled =
      (computeOutcomes cfg r.1 (terms.params cfg o.1 o.2)).1.disabled := by
  unfold handleOffender slashOffender computeSlash
  rw [if_neg h]
  dsimp only
  cases (computeOutcomes cfg r.1 (terms.params cfg o.1 o.2)).2 with
  | none => rfl
  | some outcome =>
    simp only [Option.map_some]
    unfold recordSlash
    split <;> rfl

theorem disabled_onDuty (stash : A) (slash : Bool) (strat : DisableStrategy) :
    (onOffence cfg (closeWindow (onDuty stash)) (reportOf stash slash) strat).1.disabled =
      if disables strat (Perbill.fromPercent (if slash then 100 else 0)) 1 then [0] else [] := by
  change (handleOffender cfg ⟨0, 0, Word.saturatingSub 0 cfg.staking.bondingDuration, strat⟩
    ({ closeWindow (onDuty stash) with earliestUnappliedSlash := some 0 }, _)
    (⟨(stash, ⟨1, 1, []⟩), []⟩, Perbill.fromPercent (if slash then 100 else 0))).1.disabled = _
  rw [disabled_handleOffender (by exact not_mem_nil), disabled_computeOutcomes (by rfl) (by rfl) (by rfl)]
  rfl

theorem deferral_harmless_iff_strategy (stash : A) (strat : DisableStrategy) :
    (∀ s offence, s.staking.electionClosed = false → s.deferredOffences = [] →
      (offencesOnInitialize cfg (closeWindow (onOffence cfg s offence strat).1)).1 =
        (onOffence cfg (closeWindow s) offence strat).1) ↔ cfg.weightSoftLimit ≠ 0 ∧ strat = .whenSlashed := by
  refine ⟨fun h => ?_, ?_⟩
  · have hli : cfg.weightSoftLimit ≠ 0 := fun hli => by
      -- the report stays in the queue
      have hqu := congrArg State.deferredOffences (h (onDuty stash) (reportOf stash true) rfl rfl)
      rw [onOffence_deferredOffences _ _ rfl, closeWindow_onOffence _ _ rfl rfl, offencesOnInitialize_zero hli] at hqu
      cases hqu
    have hdi (slash : Bool) := congrArg State.disabled
      ((deferred_outcome (reportOf stash slash) strat rfl rfl hli).symm.trans
        (h (onDuty stash) (reportOf stash slash) rfl rfl))
    simp only [disabled_onDuty] at hdi
    cases strat with
    | never => exact absurd (hdi true) (by decide)
    | whenSlashed => exact ⟨hli, rfl⟩
    | always => exact absurd (hdi false) (by decide)
  · rintro ⟨hli, rfl⟩ s offence hopn hey
    exact deferred_outcome offence .whenSlashed hopn hey hli

/-! ### The queue -/

def handled (cfg : Config A) (s : State A) (used : Weight) : List (DeferredOffence A) → List (DeferredOffence A)
  | [] => []
  | offence :: deferred =>
    if cfg.weightSoftLimit.toNat ≤ used.toNat then handled cfg s used deferred
    else
      offence :: handled cfg (onOffence cfg s offence .whenSlashed).1
        (used + (onOffence cfg s offence .whenSlashed).2) deferred

def handleAll (cfg : Config A) (s : State A) (reports : List (DeferredOffence A)) : State A :=
  reports.foldl (fun s offence => (onOffence cfg s offence .whenSlashed).1) s

variable {used : Weight} {deferred : List (DeferredOffence A)} {offence : DeferredOffence A}

theorem retainDeferred_state :
    (retainDeferred cfg s used deferred).1 = handleAll cfg s (handled cfg s used deferred) := by
  induction deferred generalizing s used with
  | nil => rfl
  | cons offence deferred ih =>
    rw [retainDeferred, handled]
    split
    · exact ih
    · exact ih

theorem handled_perm : (handled cfg s used deferred ++ (retainDeferred cfg s used deferred).2.2).Perm deferred := by
  induction deferred generalizing s used with
  | nil => exact .nil
  | cons offence deferred ih =>
    rw [retainDeferred, handled]
    split
    · exact perm_middle.trans (ih.cons offence)
    · exact ih.cons offence

theorem retainDeferred_sublist : (retainDeferred cfg s used deferred).2.2.Sublist deferred := by
  induction deferred generalizing s used with
  | nil => exact .slnil
  | cons offence deferred ih =>
    rw [retainDeferred]
    split
    · exact ih.cons_cons offence
    · exact ih.cons offence

theorem retainDeferred_cons_sublist (hli : cfg.weightSoftLimit ≠ 0) :
    (retainDeferred cfg s 0 (offence :: deferred)).2.2.Sublist deferred := by
  rw [retainDeferred, if_neg (limit_not_le_zero hli)]
  exact retainDeferred_sublist

def handledOnInitialize (cfg : Config A) (s : State A) : List (DeferredOffence A) :=
  if s.staking.electionClosed = false then [] else handled cfg s 0 s.deferredOffences

/-- A report, the hook, or anything else that leaves the queue alone. -/
inductive ReportOp (A : Type) where
  | onOffence (offence : DeferredOffence A) (disableStrategy : DisableStrategy)
  | offencesOnInitialize
  | other (s : State A)

/-- The reports that were queued and those that the hook has handled, in order, and how often the hook has run while the
window was closed. -/
structure QueueLog (A : Type) where
  deferred : List (DeferredOffence A)
  handled : List (DeferredOffence A)
  rounds : Nat

def queueStep (cfg : Config A) (r : State A × QueueLog A) : ReportOp A → State A × QueueLog A
  | .onOffence offence disableStrategy =>
    ((onOffence cfg r.1 offence disableStrategy).1,
      if r.1.staking.electionClosed = false then { r.2 with deferred := r.2.deferred ++ [offence] } else r.2)
  | .offencesOnInitialize =>
    ((offencesOnInitialize cfg r.1).1,
      if r.1.staking.electionClosed = false then r.2
      else { r.2 with handled := r.2.handled ++ handledOnInitialize cfg r.1, rounds := r.2.rounds + 1 })
  | .other t => ({ t with deferredOffences := r.1.deferredOffences }, r.2)

variable {r r' : State A × QueueLog A} {op : ReportOp A}

/-- Every report queued has been handled once, or is in the queue. -/
def Accounted (r : State A × QueueLog A) : Prop :=
  r.2.deferred.Perm (r.2.handled ++ r.1.deferredOffences)

inductive QueueEffect (cfg : Config A) (r r' : State A × QueueLog A) : Prop where
  | defer (offence : DeferredOffence A) (queue : r'.1.deferredOffences = r.1.deferredOffences ++ [offence])
      (log : r'.2 = { r.2 with deferred := r.2.deferred ++ [offence] })
  | handle (queue : r'.1.deferredOffences = (retainDeferred cfg r.1 0 r.1.deferredOffences).2.2)
      (log : r'.2 = { r.2 with
        handled := r.2.handled ++ Slashing.handled cfg r.1 0 r.1.deferredOffences, rounds := r.2.rounds + 1 })
  | keep (queue : r'.1.deferredOffences = r.1.deferredOffences) (log : r'.2 = r.2)

theorem queueStep_effect (r : State A × QueueLog A) (op : ReportOp A) : QueueEffect cfg r (queueStep cfg r op) := by
  cases op with
  | onOffence offence strat =>
    by_cases hopn : r.1.staking.electionClosed = false
    · refine .defer offence ?_ (if_pos hopn)
      show (onOffence cfg r.1 offence strat).1.deferredOffences = _
      rw [onOffence, if_pos hopn]
    · have hcl : r.1.staking.electionClosed = true := by simpa using hopn
      exact .keep (onOffence_deferredOffences offence strat hcl) (if_neg hopn)
  | offencesOnInitialize =>
    by_cases hopn : r.1.staking.electionClosed = false
    · refine .keep ?_ (if_pos hopn)
      show (offencesOnInitialize cfg r.1).1.deferredOffences = _
      rw [offencesOnInitialize, if_pos hopn]
    · refine .handle ?_ ?_
      · show (offencesOnInitialize cfg r.1).1.deferredOffences = _
        rw [offencesOnInitialize, if_neg hopn]
      · show (if r.1.staking.electionClosed = false then r.2 else _) = _
        rw [if_neg hopn, handledOnInitialize, if_neg hopn]
  | other t => exact .keep rfl rfl

theorem QueueEffect.accounted (he : QueueEffect cfg r r') (h : Accounted r) : Accounted r' := by
  unfold Accounted at h ⊢
  cases he with
  | defer offence queue log =>
    rw [queue, log, ← append_assoc]
    exact h.append_right [offence]
  | handle queue log =>
    rw [queue, log, append_assoc]
    exact h.trans (handled_perm.symm.append_left _)
  | keep queue log =>
    rw [queue, log]
    exact h

/-- Since `r₀` the queue has moved on by at least a report with each round: what is left of the queue of `r₀` stands
first, and behind it what was queued since. -/
def Moved (r₀ r : State A × QueueLog A) : Prop :=
  ∃ early late since, r.1.deferredOffences = early ++ late ∧ r.2.deferred = r₀.2.deferred ++ since ∧
    r₀.2.rounds ≤ r.2.rounds ∧ early.Sublist (r₀.1.deferredOffences.drop (r.2.rounds - r₀.2.rounds)) ∧ late.Sublist since

theorem QueueEffect.moved {r₀ : State A × QueueLog A} (hli : cfg.weightSoftLimit ≠ 0)
    (he : QueueEffect cfg r r') (h : Moved r₀ r) : Moved r₀ r' := by
  obtain ⟨early, late, since, hqu, hlog, hro, hea, hla⟩ := h
  cases he with
  | defer offence queue log =>
    refine ⟨early, late ++ [offence], since ++ [offence], ?_, ?_, ?_, ?_, hla.append_right [offence]⟩
    · rw [queue, hqu, append_assoc]
    · rw [log, ← append_assoc, ← hlog]
    · rwa [log]
    · rwa [log]
  | handle queue log =>
    have hx : r'.2.rounds - r₀.2.rounds = (r.2.rounds - r₀.2.rounds) + 1 := by
      rw [log]
      exact Nat.succ_sub hro
    -- at least the first report has gone
    obtain ⟨early', late', hsp, hea', hla'⟩ : ∃ early' late', r'.1.deferredOffences = early' ++ late' ∧
        early'.Sublist early.tail ∧ late'.Sublist late := by
      rw [queue, hqu]
      cases early with
      | nil => exact ⟨[], _, rfl, .slnil, retainDeferred_sublist⟩
      | cons first early => exact sublist_append_iff.mp (retainDeferred_cons_sublist hli)
    refine ⟨early', late', since, hsp, ?_, ?_, ?_, hla'.trans hla⟩
    · rw [log]
      exact hlog
    · rw [log]
      exact Nat.le_succ_of_le hro
    · rw [hx, ← tail_drop]
      exact hea'.trans hea.tail
  | keep queue log => exact ⟨early, late, since, queue.trans hqu, log ▸ hlog, log ▸ hro, log ▸ hea, hla⟩

/-- Deferred and handled in the same era, in a state otherwise the same, a report has the same outcome exactly if the
limit is not zero and its strategy is `WhenSlashed`. Reports are handled in order, once, and unless the limit is zero
the hook empties the queue in at most as many rounds as it has reports. -/
theorem deferral_harmless_iff [Inhabited A] (cfg : Config A) :
    (∀ disableStrategy, (∀ s offence, s.staking.electionClosed = false → s.deferredOffences = [] →
        (offencesOnInitialize cfg (closeWindow (onOffence cfg s offence disableStrategy).1)).1 =
          (onOffence cfg (closeWindow s) offence disableStrategy).1) ↔
      cfg.weightSoftLimit ≠ 0 ∧ disableStrategy = .whenSlashed) ∧
    (∀ s, s.staking.electionClosed = true → (offencesOnInitialize cfg s).1 =
      withQueue (handleAll cfg s (handledOnInitialize cfg s)) (offencesOnInitialize cfg s).1.deferredOffences) ∧
    (∀ s ops, s.deferredOffences = [] → Accounted (Steps.execute (queueStep cfg) (s, ⟨[], [], 0⟩) ops)) ∧
    (cfg.weightSoftLimit ≠ 0 → ∀ r ops,
      let r' := Steps.execute (queueStep cfg) r ops
      r.2.rounds + r.1.deferredOffences.length ≤ r'.2.rounds →
        ∃ since, r'.2.deferred = r.2.deferred ++ since ∧ r'.1.deferredOffences.Sublist since) := by
  refine ⟨deferral_harmless_iff_strategy default, fun s hcl => ?_, fun s ops hey => ?_, ?_⟩
  · have hopn : ¬ s.staking.electionClosed = false := by simp [hcl]
    rw [offencesOnInitialize, if_neg hopn, handledOnInitialize, if_neg hopn, ← retainDeferred_state]
    rfl
  · have hke : ∀ op ∈ ops, ∀ r : State A × QueueLog A, Accounted r → Accounted (queueStep cfg r op) :=
      fun op _ r h => (queueStep_effect r op).accounted h
    have hini : Accounted (s, (⟨[], [], 0⟩ : QueueLog A)) := by
      unfold Accounted
      rw [hey]
      exact .nil
    exact Steps.execute_invariant hke hini
  · intro hli r ops r' hro
    have hke : ∀ op ∈ ops, ∀ r₁ : State A × QueueLog A, Moved r r₁ → Moved r (queueStep cfg r₁ op) :=
      fun op _ r₁ h => (queueStep_effect r₁ op).moved hli h
    have hini : Moved r r := ⟨r.1.deferredOffences, [], [], (append_nil _).symm, (append_nil _).symm, Nat.le_refl _, by
        rw [Nat.sub_self, drop_zero], .slnil⟩
    obtain ⟨early, late, since, hqu, hlog, hle, hea, hla⟩ : Moved r r' := Steps.execute_invariant hke hini
    have hgo : early = [] := by
      rw [drop_eq_nil_of_le (by omega)] at hea
      exact sublist_nil.mp hea
    refine ⟨since, hlog, ?_⟩
    rw [hqu, hgo]
    exact hla

end

def openWindow : State Nat := { sampleState 5 with staking := { sampleStakers with electionClosed := false } }

theorem deferred_report_same :
    let direct := (onOffence sampleConfig (closeWindow openWindow) sampleReport .whenSlashed).1
    direct.disabled = [0] ∧ (direct.unappliedSlashes.getD 5 []).length = 1 ∧ (offencesOnInitialize sampleConfig
        (closeWindow (onOffence sampleConfig openWindow sampleReport .whenSlashed).1)).1 = direct := by
  refine ⟨by decide +kernel, by decide +kernel, ?_⟩
  exact ((deferral_harmless_iff sampleConfig).1 .whenSlashed).mpr ⟨by decide, rfl⟩ openWindow sampleReport rfl rfl

/-- A deferred report with `Never` disables the validator, and one with `Always` that slashes nothing does not. With a
limit of zero the report is not handled. -/
theorem deferral_forgets_strategy :
    let never := sampleReport
    let always : DeferredOffence Nat := { sampleReport with slashFraction := [Perbill.fromPercent 0] }
    let deferred (report : DeferredOffence Nat) (disableStrategy : DisableStrategy) :=
      (offencesOnInitialize sampleConfig (closeWindow (onOffence sampleConfig openWindow report disableStrategy).1)).1
    let direct (report : DeferredOffence Nat) (disableStrategy : DisableStrategy) :=
      (onOffence sampleConfig (closeWindow openWindow) report disableStrategy).1
    let zero : Config Nat := { sampleConfig with weightSoftLimit := 0 }
    (deferred never .never).disabled = [0] ∧ (direct never .never).disabled = [] ∧
      (deferred always .always).disabled = [] ∧ (direct always .always).disabled = [0] ∧
      (offencesOnInitialize zero
        (closeWindow (onOffence zero openWindow never .whenSlashed).1)).1.deferredOffences.length = 1 := by
  decide +kernel

end Staking.Slashing
