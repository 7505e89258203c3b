import Mathlib.Data.List.Basic

/-! # Runs of a step function

A system is a step function on states. `Each` says that every operation of a run is admitted in the state it meets. -/

namespace Steps

variable {σ ι : Type}

def execute (step : σ → ι → σ) (s : σ) (ops : List ι) : σ := ops.foldl step s

/-- Each operation of the run is admitted by `ok` in the state it meets. -/
def Each (step : σ → ι → σ) (ok : σ → ι → Prop) : σ → List ι → Prop
  | _, [] => True
  | s, op :: ops => ok s op ∧ Each step ok (step s op) ops

instance decidableEach (step : σ → ι → σ) (ok : σ → ι → Prop) [∀ s op, Decidable (ok s op)] :
    ∀ s ops, Decidable (Each step ok s ops)
  | _, [] => isTrue trivial
  | s, op :: ops =>
    have := decidableEach step ok (step s op) ops
    inferInstanceAs (Decidable (ok s op ∧ Each step ok (step s op) ops))

section
variable {step : σ → ι → σ} {ok ok' : σ → ι → Prop} {s : σ} {ops ops' : List ι} {op : ι}

@[simp] theorem execute_cons : execute step s (op :: ops) = execute step (step s op) ops := rfl

theorem execute_append : execute step s (ops ++ ops') = execute step (execute step s ops) ops' :=
  List.foldl_append

theorem execute_concat : execute step s (ops ++ [op]) = step (execute step s ops) op := by
  rw [execute_append]
  rfl

theorem execute_invariant {I : σ → Prop} (keep : ∀ op ∈ ops, ∀ s, I s → I (step s op)) (init : I s) :
    I (execute step s ops) := by
  induction ops generalizing s with
  | nil => exact init
  | cons op ops ih =>
    have hr : ∀ op' ∈ ops, ∀ s, I s → I (step s op') := fun op' h => keep op' (List.mem_cons_of_mem op h)
    exact ih hr (keep op List.mem_cons_self s init)

theorem each_append : Each step ok s (ops ++ ops') ↔ Each step ok s ops ∧ Each step ok (execute step s ops) ops' := by
  induction ops generalizing s with
  | nil => exact (and_iff_right trivial).symm
  | cons op ops ih => exact (and_congr_right fun _ => ih).trans and_assoc.symm

theorem each_and : Each step (fun s op => ok s op ∧ ok' s op) s ops ↔ Each step ok s ops ∧ Each step ok' s ops := by
  induction ops generalizing s with
  | nil => exact (and_self_iff (a := True)).symm
  | cons op ops ih => exact (and_congr_right fun _ => ih).trans and_and_and_comm

theorem each_iff_forall {q : ι → Prop} : Each step (fun _ op => q op) s ops ↔ ∀ op ∈ ops, q op := by
  induction ops generalizing s with
  | nil => exact iff_of_true trivial fun op h => absurd h List.not_mem_nil
  | cons op ops ih => exact (and_congr_right fun _ => ih).trans List.forall_mem_cons.symm

theorem Each.invariant {I : σ → Prop} (keep : ∀ s op, ok s op → I s → I (step s op))
    (run : Each step ok s ops) (init : I s) : I (execute step s ops) := by
  induction ops generalizing s with
  | nil => exact init
  | cons op ops ih => exact ih run.2 (keep s op run.1 init)

theorem Each.throughout {I : σ → Prop} (keep : ∀ s op, ok s op → I s → I (step s op))
    (run : Each step ok s ops) (init : I s) {done : List ι} (hdo : done <+: ops) : I (execute step s done) := by
  obtain ⟨rest, rfl⟩ := hdo
  exact (each_append.mp run).1.invariant keep init

/-- Where an invariant makes one condition imply another, a run that meets the first meets the second. -/
theorem Each.imp {I : σ → Prop} (keep : ∀ s op, ok s op → I s → I (step s op))
    (h : ∀ s op, I s → ok s op → ok' s op) (run : Each step ok s ops) (init : I s) : Each step ok' s ops := by
  induction ops generalizing s with
  | nil => trivial
  | cons op ops ih => exact ⟨h s op init run.1, ih run.2 (keep s op run.1 init)⟩

/-- Where every step keeps an invariant that implies a condition, every run meets the condition. -/
theorem each_of_invariant {I : σ → Prop} (keep : ∀ s op, I s → I (step s op)) (h : ∀ s op, I s → ok s op)
    (init : I s) : Each step ok s ops := by
  induction ops generalizing s with
  | nil => trivial
  | cons op ops ih => exact ⟨h s op init, ih (keep s op init)⟩

theorem each_congr (h : ∀ s op, ok s op ↔ ok' s op) : Each step ok s ops ↔ Each step ok' s ops := by
  induction ops generalizing s with
  | nil => exact Iff.rfl
  | cons op ops ih => exact and_congr (h s op) ih

/-- An admitted step keeps an invariant that implies `P`, and a step that keeps `P` is admitted. Then `P` holds
throughout a run exactly if each step is admitted. -/
theorem throughout_iff_each {I P : σ → Prop} {may : σ → ι → Prop} (hP : ∀ s, I s → P s)
    (keep : ∀ s op, may s op → I s → (P (step s op) → ok s op) ∧ (ok s op → I (step s op)))
    (run : Each step may s ops) (init : I s) :
    (∀ done, done <+: ops → P (execute step s done)) ↔ Each step ok s ops := by
  induction ops generalizing s with
  | nil =>
    refine iff_of_true (fun done h => ?_) trivial
    rw [List.prefix_nil.mp h]
    exact hP s init
  | cons op ops ih =>
    obtain ⟨had, hk⟩ := keep s op run.1 init
    constructor
    · intro h
      have hop : ok s op := had (h [op] (List.prefix_append [op] ops))
      exact ⟨hop, (ih run.2 (hk hop)).mp fun done hdo => h (op :: done) (List.prefix_cons_inj op |>.mpr hdo)⟩
    · rintro ⟨hop, hr⟩ done hdo
      cases done with
      | nil => exact hP s init
      | cons op' done =>
        obtain ⟨rfl, hta⟩ := List.cons_prefix_cons.mp hdo
        exact (ih run.2 (hk hop)).mpr hr done hta

/-- Where a possible step keeps an invariant exactly if it is admitted, the invariant holds throughout a run exactly if
each step is admitted. -/
theorem invariant_iff_each {I : σ → Prop} {may : σ → ι → Prop}
    (keep : ∀ s op, may s op → I s → (I (step s op) ↔ ok s op)) (run : Each step may s ops) (init : I s) :
    (∀ done, done <+: ops → I (execute step s done)) ↔ Each step ok s ops :=
  throughout_iff_each (fun _ => id) (fun s op hmay hI => ⟨(keep s op hmay hI).mp, (keep s op hmay hI).mpr⟩) run init

end

end Steps
