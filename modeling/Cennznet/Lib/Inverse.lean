import Mathlib.Data.Option.Basic

/-! # Lookups that are inverse

Two maps that index each other: one leads from `a` to `b` exactly if the other leads back. -/

namespace Lookup

variable {α β : Type} {f f' : α → Option β} {g g' : β → Option α} {a : α} {b : β}

/-- Each lookup leads back from where the other leads. -/
def Inverse (f : α → Option β) (g : β → Option α) : Prop := ∀ a b, f a = some b ↔ g b = some a

namespace Inverse

theorem of_none (hf : ∀ a, f a = none) (hg : ∀ b, g b = none) : Inverse f g := by
  intro a b
  rw [hf a, hg b]
  exact iff_of_false (Option.some_ne_none b).symm (Option.some_ne_none a).symm

theorem ne_of_none (h : Inverse f g) (ha : f a = none) : g b ≠ some a := by
  intro hb
  rw [(h a b).mpr hb] at ha
  cases ha

theorem symm (h : Inverse f g) : Inverse g f := fun b a => (h a b).symm

variable [DecidableEq α] [DecidableEq β]

theorem insert (h : Inverse f g) (ha : f a = none) (hb : g b = none)
    (hf : ∀ x, f' x = if x = a then some b else f x) (hg : ∀ y, g' y = if y = b then some a else g y) :
    Inverse f' g' := by
  intro x y
  rw [hf, hg]
  by_cases hx : x = a
  · subst hx
    rw [if_pos rfl]
    by_cases hy : y = b
    · rw [if_pos hy, hy]
      exact iff_of_true rfl rfl
    · rw [if_neg hy]
      exact iff_of_false (fun heq => hy (Option.some.inj heq).symm) (h.ne_of_none ha)
  · rw [if_neg hx]
    by_cases hy : y = b
    · subst hy
      rw [if_pos rfl]
      exact iff_of_false (h.symm.ne_of_none hb) fun heq => hx (Option.some.inj heq).symm
    · rw [if_neg hy]
      exact h x y

theorem remove (h : Inverse f g) (hab : f a = some b) (hf : ∀ x, f' x = if x = a then none else f x)
    (hg : ∀ y, g' y = if y = b then none else g y) : Inverse f' g' := by
  have hba : g b = some a := (h a b).mp hab
  intro x y
  rw [hf, hg]
  by_cases hx : x = a
  · subst hx
    rw [if_pos rfl]
    refine iff_of_false (Option.some_ne_none y).symm fun heq => ?_
    split at heq
    · cases heq
    · rename_i hy
      rw [(h x y).mpr heq] at hab
      exact hy (Option.some.inj hab)
  · rw [if_neg hx]
    by_cases hy : y = b
    · subst hy
      rw [if_pos rfl]
      refine iff_of_false (fun heq => ?_) (Option.some_ne_none x).symm
      rw [(h x y).mp heq] at hba
      exact hx (Option.some.inj hba)
    · rw [if_neg hy]
      exact h x y

end Inverse

end Lookup
