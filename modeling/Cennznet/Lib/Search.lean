import Mathlib.Data.List.Sort
import Mathlib.Order.Defs.LinearOrder

/-! # Binary search

The loop halves the window `left..right`: what lies before the window is smaller than the element sought, and what lies
from its end on is greater. -/

namespace Search

variable {α : Type} [LinearOrder α]

/-- Each round shrinks the window, so a fuel of its size is enough. -/
def loop (l : List α) (x : α) : Nat → Nat → Nat → Except Nat Nat
  | 0, left, _ => .error left
  | fuel + 1, left, right =>
    if left < right then
      let mid := left + (right - left) / 2
      match l[mid]? with
      | some y => if y < x then loop l x fuel (mid + 1) right else if x < y then loop l x fuel left mid else .ok mid
      | none => .error left
    else .error left

/-- The index of `x` in a sorted list, or where it can be inserted. -/
def binarySearch (l : List α) (x : α) : Except Nat Nat := loop l x l.length 0 l.length

/-- What is before `left` is smaller than `x`, and what is from `right` on greater. -/
structure Window (l : List α) (x : α) (left right : Nat) : Prop where
  le : left ≤ right
  fits : right ≤ l.length
  below : ∀ {i y}, l[i]? = some y → i < left → y < x
  above : ∀ {i y}, l[i]? = some y → right ≤ i → x < y

/-- What a search may answer. -/
def Answers (l : List α) (x : α) : Except Nat Nat → Prop
  | .ok i => l[i]? = some x
  | .error i => Window l x i i

variable {l : List α} {x : α} {left right i : Nat}

theorem lt_of_sorted (hl : l.Pairwise (· < ·)) {i j : Nat} {y z : α} (hi : l[i]? = some y) (hj : l[j]? = some z)
    (hij : i < j) : y < z := by
  obtain ⟨hilt, rfl⟩ := List.getElem?_eq_some_iff.mp hi
  obtain ⟨hjlt, rfl⟩ := List.getElem?_eq_some_iff.mp hj
  exact List.pairwise_iff_getElem.mp hl i j hilt hjlt hij

theorem Window.upper (hl : l.Pairwise (· < ·)) (W : Window l x left right) {mid : Nat} {y : α} (hmid : l[mid]? = some y)
    (hlt : mid < right) (hy : y < x) : Window l x (mid + 1) right where
  le := hlt
  fits := W.fits
  below {i z} hz hi := by
    rcases Nat.lt_or_ge i mid with h | h
    · exact (lt_of_sorted hl hz hmid h).trans hy
    · obtain rfl : i = mid := by omega
      rw [hmid] at hz
      cases hz
      exact hy
  above := W.above

theorem Window.lower (hl : l.Pairwise (· < ·)) (W : Window l x left right) {mid : Nat} {y : α} (hmid : l[mid]? = some y)
    (hle : left ≤ mid) (hlt : mid < right) (hy : x < y) : Window l x left mid where
  le := hle
  fits := by
    have := W.fits
    omega
  below := W.below
  above {i z} hz hi := by
    rcases Nat.lt_or_ge mid i with h | h
    · exact hy.trans (lt_of_sorted hl hmid hz h)
    · obtain rfl : i = mid := by omega
      rw [hmid] at hz
      cases hz
      exact hy

theorem loop_answers (hl : l.Pairwise (· < ·)) {fuel : Nat} (W : Window l x left right) (hfu : right - left ≤ fuel) :
    Answers l x (loop l x fuel left right) := by
  induction fuel generalizing left right with
  | zero =>
    obtain rfl : left = right := by
      have := W.le
      omega
    exact W
  | succ fuel ih =>
    unfold loop
    split_ifs with hlt
    · have hf := W.fits
      obtain ⟨y, hy⟩ : ∃ y, l[left + (right - left) / 2]? = some y :=
        ⟨_, List.getElem?_eq_getElem (show left + (right - left) / 2 < l.length by omega)⟩
      simp only [hy]
      split
      · rename_i hyx
        exact ih (W.upper hl hy (by omega) hyx) (by omega)
      · rename_i hyx
        split_ifs with hxy
        · exact ih (W.lower hl hy (by omega) (by omega) hxy) (by omega)
        · rw [le_antisymm (not_lt.mp hyx) (not_lt.mp hxy)]
          exact hy
    · obtain rfl : left = right := by
        have := W.le
        omega
      exact W

theorem binarySearch_answers (hl : l.Pairwise (· < ·)) (x : α) : Answers l x (binarySearch l x) :=
  loop_answers hl
    { le := Nat.zero_le _
      fits := Nat.le_refl _
      below := fun _ h => absurd h (Nat.not_lt_zero _)
      above := fun hy h => by
        obtain ⟨hlt, -⟩ := List.getElem?_eq_some_iff.mp hy
        omega }
    (Nat.le_of_eq (Nat.sub_zero _))

theorem getElem?_of_search (hl : l.Pairwise (· < ·)) (h : binarySearch l x = .ok i) : l[i]? = some x := by
  have := binarySearch_answers hl x
  rw [h] at this
  exact this

theorem window_of_search (hl : l.Pairwise (· < ·)) (h : binarySearch l x = .error i) : Window l x i i := by
  have := binarySearch_answers hl x
  rw [h] at this
  exact this

/-! ### Insertion and removal -/

theorem sorted_of_lt (h : ∀ {i j : Nat} {y z : α}, l[i]? = some y → l[j]? = some z → i < j → y < z) : l.Pairwise (· < ·) :=
  List.pairwise_iff_getElem.mpr fun _ _ hi hj hij =>
    h (List.getElem?_eq_getElem hi) (List.getElem?_eq_getElem hj) hij

theorem Window.getElem?_insertIdx (W : Window l x i i) {j : Nat} :
    (l.insertIdx i x)[j]? = if j < i then l[j]? else if j = i then some x else l[j - 1]? := by
  rw [List.getElem?_insertIdx]
  have hf := W.fits
  split
  · rfl
  · split
    · rename_i hj
      rw [if_pos (by omega)]
    · rfl

theorem Window.sorted_insertIdx (hl : l.Pairwise (· < ·)) (W : Window l x i i) : (l.insertIdx i x).Pairwise (· < ·) := by
  refine sorted_of_lt fun {j k y z} hj hk hjk => ?_
  rw [W.getElem?_insertIdx] at hj hk
  rcases Nat.lt_trichotomy j i with hji | rfl | hji
  · rw [if_pos hji] at hj
    rcases Nat.lt_trichotomy k i with hki | rfl | hki
    · rw [if_pos hki] at hk
      exact lt_of_sorted hl hj hk hjk
    · rw [if_neg (Nat.lt_irrefl _), if_pos rfl] at hk
      cases hk
      exact W.below hj hji
    · rw [if_neg (by omega), if_neg (by omega)] at hk
      exact lt_of_sorted hl hj hk (by omega)
  · rw [if_neg (Nat.lt_irrefl _), if_pos rfl] at hj
    rw [if_neg (by omega), if_neg (by omega)] at hk
    cases hj
    exact W.above hk (by omega)
  · rw [if_neg (by omega), if_neg (by omega)] at hj hk
    exact lt_of_sorted hl hj hk (by omega)

theorem Window.not_mem (W : Window l x i i) : x ∉ l := by
  intro hmem
  obtain ⟨j, hj⟩ := List.getElem?_of_mem hmem
  rcases Nat.lt_or_ge j i with h | h
  · exact lt_irrefl x (W.below hj h)
  · exact lt_irrefl x (W.above hj h)

end Search
