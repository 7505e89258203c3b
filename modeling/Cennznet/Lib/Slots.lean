import Mathlib.Data.List.Basic

/-! # Slots

A list whose places are written one by one. Entries with distinct indices all stay where they were put. -/

namespace Slots

variable {α : Type}

/-- Writes an entry in its slot; `none` if there is none. -/
def put (slots : List α) (entry : Nat × α) : Option (List α) :=
  if entry.1 < slots.length then some (slots.set entry.1 entry.2) else none

/-- The slots with all entries written, except those out of range. -/
def write (slots : List α) (entries : List (Nat × α)) : List α := entries.foldl (fun s e => s.set e.1 e.2) slots

variable {slots : List α} {entries : List (Nat × α)} {entry : Nat × α} {i : Nat}

@[simp] theorem length_write : (write slots entries).length = slots.length := by
  induction entries generalizing slots with
  | nil => rfl
  | cons e rest ih => exact ih.trans List.length_set

theorem foldlM_put (h : ∀ e ∈ entries, e.1 < slots.length) : entries.foldlM put slots = some (write slots entries) := by
  induction entries generalizing slots with
  | nil => rfl
  | cons e rest ih =>
    have hput : put slots e = some (slots.set e.1 e.2) := if_pos (h e List.mem_cons_self)
    rw [List.foldlM_cons, hput]
    refine ih fun e' he' => ?_
    rw [List.length_set]
    exact h e' (List.mem_cons_of_mem e he')

theorem getElem?_write_of_notMem (h : i ∉ entries.map Prod.fst) : (write slots entries)[i]? = slots[i]? := by
  induction entries generalizing slots with
  | nil => rfl
  | cons e rest ih =>
    rw [List.map_cons, List.mem_cons, not_or] at h
    obtain ⟨hne, hr⟩ := h
    exact (ih hr).trans (List.getElem?_set_ne (Ne.symm hne))

theorem getElem?_write_of_mem (hno : (entries.map Prod.fst).Nodup) (hmem : entry ∈ entries)
    (hlt : entry.1 < slots.length) : (write slots entries)[entry.1]? = some entry.2 := by
  induction entries generalizing slots with
  | nil => cases hmem
  | cons e rest ih =>
    obtain ⟨hnot, hno⟩ := List.nodup_cons.mp hno
    rcases List.mem_cons.mp hmem with rfl | hmem
    · exact (getElem?_write_of_notMem hnot).trans (List.getElem?_set_self hlt)
    · exact ih hno hmem (by rwa [List.length_set])

theorem getElem?_write (hno : (entries.map Prod.fst).Nodup) {a : α} (h : (write slots entries)[i]? = some a) :
    slots[i]? = some a ∨ (i, a) ∈ entries := by
  by_cases hi : i ∈ entries.map Prod.fst
  · obtain ⟨e, he, rfl⟩ := List.mem_map.mp hi
    obtain ⟨hlt, -⟩ := List.getElem?_eq_some_iff.mp h
    rw [getElem?_write_of_mem hno he (by rwa [length_write] at hlt)] at h
    cases h
    exact Or.inr he
  · exact Or.inl (getElem?_write_of_notMem hi ▸ h)

theorem countP_write {p : α → Bool} {blank : α} (hno : (entries.map Prod.fst).Nodup)
    (hbl : ∀ e ∈ entries, slots[e.1]? = some blank) (hp : p blank = false) (hent : ∀ e ∈ entries, p e.2 = true) :
    (write slots entries).countP p = slots.countP p + entries.length := by
  induction entries generalizing slots with
  | nil => rfl
  | cons e rest ih =>
    obtain ⟨hnot, hno⟩ := List.nodup_cons.mp hno
    obtain ⟨hlt, hsl⟩ := List.getElem?_eq_some_iff.mp (hbl e List.mem_cons_self)
    have hr : ∀ e' ∈ rest, (slots.set e.1 e.2)[e'.1]? = some blank := by
      intro e' he'
      have hne : e.1 ≠ e'.1 := fun heq => hnot (heq ▸ List.mem_map_of_mem he')
      exact (List.getElem?_set_ne hne).trans (hbl e' (List.mem_cons_of_mem e he'))
    have hset : (slots.set e.1 e.2).countP p = slots.countP p + 1 := by
      rw [List.countP_set hlt, hsl, hp, hent e List.mem_cons_self]
      simp
    show (write (slots.set e.1 e.2) rest).countP p = _
    rw [ih hno hr fun e' he' => hent e' (List.mem_cons_of_mem e he'), hset, List.length_cons]
    omega

end Slots
