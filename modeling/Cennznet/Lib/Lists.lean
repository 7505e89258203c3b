import Mathlib.Data.List.Basic

/-! # Lists

What stands before an entry of a list, and lists made entry by entry. -/

namespace Lists

open List

variable {α β : Type} {a b e : α} {l l₁ l₂ : List α}

theorem mem_left_of_sublist (hno : (l₁ ++ b :: l₂).Nodup) (h : Sublist [a, b] (l₁ ++ b :: l₂)) : a ∈ l₁ := by
  have hb : b ∉ l₂ := (nodup_cons.mp (nodup_append.mp hno).2.1).1
  obtain ⟨k₁, k₂, heq, h₁, h₂⟩ := sublist_append_iff.mp h
  cases k₁ with
  | nil =>
    obtain rfl : [a, b] = k₂ := heq
    cases h₂ with
    | cons _ h₂ => exact absurd (h₂.subset (by simp)) hb
    | cons_cons _ h₂ => exact absurd (h₂.subset (by simp)) hb
  | cons c k₁ =>
    obtain rfl : a = c := (List.cons.inj heq).1
    exact h₁.subset mem_cons_self

theorem sublist_of_concat (hne : b ≠ e) (h : Sublist [a, b] (l₁ ++ [e])) : Sublist [a, b] l₁ := by
  obtain ⟨k₁, k₂, heq, h₁, h₂⟩ := sublist_append_iff.mp h
  rcases eq_nil_or_concat k₂ with rfl | ⟨k, c, rfl⟩
  · rw [heq, append_nil]
    exact h₁
  · obtain rfl : c = e := by simpa using h₂.subset (by simp : c ∈ k.concat c)
    have hl := congrArg List.getLast? heq
    simp at hl
    exact absurd hl hne

theorem mem_left_of_append {new l l' : List α} (heq : l ++ new = l₁ ++ b :: l')
    (hold : ∀ {k}, l = l₁ ++ b :: k → a ∈ l₁) (hnew : b ∈ new → a ∈ l) : a ∈ l₁ := by
  rcases append_eq_append_iff.mp heq with ⟨k, rfl, hk⟩ | ⟨k, hk, hk'⟩
  · refine mem_append_left _ (hnew ?_)
    rw [hk]
    exact mem_append_right _ mem_cons_self
  · cases k with
    | nil =>
      rw [append_nil] at hk
      rw [nil_append] at hk'
      rw [← hk]
      refine hnew ?_
      rw [← hk']
      exact mem_cons_self
    | cons c k =>
      obtain ⟨rfl, -⟩ := List.cons.inj hk'
      exact hold hk

theorem mapM_eq_some {f : α → Option β} {g : α → β} (h : ∀ x ∈ l, f x = some (g x)) :
    l.mapM f = some (l.map g) := by
  induction l with
  | nil => rfl
  | cons x l ih =>
    obtain ⟨hx, hl⟩ := forall_mem_cons.mp h
    rw [mapM_cons, hx, ih hl]
    rfl

theorem flatMap_of_single [DecidableEq α] {f : α → List β} (hno : l.Nodup)
    (hey : ∀ x ∈ l, x ≠ a → f x = []) : l.flatMap f = if a ∈ l then f a else [] := by
  induction l with
  | nil => rfl
  | cons x l ih =>
    obtain ⟨hx, hl⟩ := nodup_cons.mp hno
    have hr := ih hl fun y hy => hey y (mem_cons_of_mem x hy)
    rw [flatMap_cons, hr]
    by_cases hxa : x = a
    · rw [hxa, if_neg (hxa ▸ hx), if_pos mem_cons_self, append_nil]
    · have hmem : a ∈ x :: l ↔ a ∈ l := by
        rw [mem_cons]
        exact or_iff_right (Ne.symm hxa)
      rw [hey x mem_cons_self hxa, nil_append, if_congr hmem rfl rfl]

end Lists
