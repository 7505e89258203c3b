import Mathlib.Data.Nat.Init

/-! # Fallible computations

A fallible computation is an `Except`. The lemmas here say when a computation built from guards and binds succeeds, so
a proof takes a successful run apart with `simp only` and `obtain` and never unfolds a bind. -/

namespace Result

variable {ε ε' α β : Type}

def ensure (c : Prop) [Decidable c] (e : ε) : Except ε Unit := if c then .ok () else .error e

def okOr (o : Option α) (e : ε) : Except ε α :=
  match o with
  | some a => .ok a
  | none => .error e

/-- The result of a computation, or `a` if it failed. -/
def getD (x : Except ε α) (a : α) : α :=
  match x with
  | .ok b => b
  | .error _ => a

theorem getD_cases {x : Except ε α} {a : α} {P : α → Prop} (hok : ∀ b, x = .ok b → P b) (herr : P a) :
    P (getD x a) := by
  cases x with
  | ok b => exact hok b rfl
  | error e => exact herr

theorem bind_eq_ok {x : Except ε α} {f : α → Except ε β} {b : β} : x >>= f = .ok b ↔ ∃ a, x = .ok a ∧ f a = .ok b := by
  cases x with
  | error e =>
    constructor
    · intro h
      cases h
    · rintro ⟨a, ha, -⟩
      cases ha
  | ok a =>
    refine ⟨fun h => ⟨a, rfl, h⟩, ?_⟩
    rintro ⟨a', ha, h⟩
    cases ha
    exact h

theorem bind_eq_error {x : Except ε α} {f : α → Except ε β} {e : ε} :
    x >>= f = .error e ↔ x = .error e ∨ ∃ a, x = .ok a ∧ f a = .error e := by
  cases x with
  | error e' => simp [bind, Except.bind]
  | ok a => simp [bind, Except.bind]

theorem ok_bind {a : α} {f : α → Except ε β} : (Except.ok a >>= f) = f a := rfl

theorem okOr_some {a : α} {e : ε} : okOr (some a) e = .ok a := rfl

theorem map_eq_ok {x : Except ε α} {f : α → β} {b : β} : f <$> x = .ok b ↔ ∃ a, x = .ok a ∧ f a = b := by
  cases x <;> simp [Functor.map, Except.map]

theorem map_eq_error {x : Except ε α} {f : α → β} {e : ε} : f <$> x = .error e ↔ x = .error e := by
  cases x <;> simp [Functor.map, Except.map]

theorem ensure_eq_ok {c : Prop} [Decidable c] {e : ε} {u : Unit} : ensure c e = .ok u ↔ c := by
  unfold ensure
  by_cases h : c <;> simp [h]

theorem ensure_eq_error {c : Prop} [Decidable c] {e e' : ε} : ensure c e = .error e' ↔ ¬c ∧ e = e' := by
  unfold ensure
  by_cases h : c <;> simp [h]

theorem okOr_eq_error {o : Option α} {e e' : ε} : okOr o e = .error e' ↔ o = none ∧ e = e' := by
  cases o <;> simp [okOr]

theorem okOr_eq_ok {o : Option α} {e : ε} {a : α} : okOr o e = .ok a ↔ o = some a := by
  cases o <;> simp [okOr]

theorem mapError_eq_ok {x : Except ε α} {f : ε → ε'} {a : α} : x.mapError f = .ok a ↔ x = .ok a := by
  constructor <;> intro h <;> cases x <;> cases h <;> rfl

theorem exists_eq_ok {x : Except ε α} (h : x.isOk = true) : ∃ a, x = .ok a := by
  cases x with
  | ok a => exact ⟨a, rfl⟩
  | error e => cases h

theorem pure_eq_ok {a b : α} : (pure a : Except ε α) = .ok b ↔ a = b := by
  simp [pure, Except.pure]

/-! ### Pre- and postconditions -/

/-- Ends in a result with `P`, or in an error with `E`. -/
def Ends (x : Except ε α) (P : α → Prop) (E : ε → Prop) : Prop :=
  match x with
  | .ok a => P a
  | .error e => E e

section
variable {x : Except ε α} {f : α → Except ε β} {P : α → Prop} {Q : β → Prop} {E : ε → Prop}

theorem Ends.ok {a : α} (h : Ends x P E) (hx : x = .ok a) : P a := by
  rw [hx] at h
  exact h

theorem Ends.error {e : ε} (h : Ends x P E) (hx : x = .error e) : E e := by
  rw [hx] at h
  exact h

theorem Ends.mono {P' : α → Prop} (h : Ends x P E) (hP : ∀ a, P a → P' a) : Ends x P' E := by
  cases x with
  | error e => exact h
  | ok a => exact hP a h

theorem Ends.bind (hx : Ends x P E) (hf : ∀ a, x = .ok a → P a → Ends (f a) Q E) : Ends (x >>= f) Q E := by
  cases x with
  | error e => exact hx
  | ok a => exact hf a rfl hx

theorem Ends.ensure {c : Prop} [Decidable c] {e : ε} (he : E e) : Ends (Result.ensure c e) (fun _ => c) E := by
  unfold Result.ensure
  by_cases h : c
  · rw [if_pos h]
    exact h
  · rw [if_neg h]
    exact he

theorem Ends.okOr {o : Option α} {e : ε} (he : E e) : Ends (Result.okOr o e) (fun a => o = some a) E := by
  cases o with
  | some a => exact rfl
  | none => exact he

theorem Ends.forM {g : α → Except ε PUnit} {l : List α} (h : ∀ a, Ends (g a) (fun _ => True) E) :
    Ends (l.forM g) (fun _ => True) E := by
  induction l with
  | nil => exact trivial
  | cons a l ih =>
    rw [List.forM_eq_forM, List.forM_cons]
    exact (h a).bind fun _ _ _ => ih

theorem Ends.foldlM {g : β → α → Except ε β} {l : List α} {b : β} (keep : ∀ b a, Q b → Ends (g b a) Q E) (init : Q b) :
    Ends (l.foldlM g b) Q E := by
  induction l generalizing b with
  | nil => exact init
  | cons a l ih =>
    rw [List.foldlM_cons]
    exact (keep b a init).bind fun b' _ hb' => ih hb'

end

end Result
