import Cennznet.Lib.Word
import Mathlib.Data.List.Count
import Mathlib.Data.Nat.Bitwise

/-! # Rows of bits

A machine word holds one bit for each index of a list. Each operation that shifts the bits from an index on has one
lemma that reads it bit by bit. -/

namespace Bits

variable {w : Nat}

/-- The bits below the index `i`. -/
def lowMask (w i : Nat) : BitVec w := (1#w <<< i) - 1#w

/-- Makes room at index `i`: the bits from `i` on move up. -/
def insertBit (x : BitVec w) (i : Nat) : BitVec w :=
  let lowMask := lowMask w i
  let highMask := ~~~lowMask
  ((x &&& highMask) <<< 1) ||| (x &&& lowMask)

/-- Takes out the bit at index `i`: those above move down. -/
def removeBit (x : BitVec w) (i : Nat) : BitVec w :=
  let lowMask := lowMask w i
  let highMask := (~~~lowMask) <<< 1
  ((x &&& highMask) >>> 1) ||| (x &&& lowMask)

def countOnes (x : BitVec w) : Nat := (List.range w).countP x.getLsbD

variable {x y : BitVec w} {i j : Nat}

theorem getLsbD_lowMask (hi : i < w) : (lowMask w i).getLsbD j = decide (j < i) := by
  have hpow : 2 ^ i < 2 ^ w := Nat.pow_lt_pow_right (by decide) hi
  have hone : (1#w).toNat = 1 := BitVec.toNat_one (by omega)
  have hsh : (1#w <<< i).toNat = 2 ^ i := by
    rw [BitVec.toNat_shiftLeft, hone, Nat.one_shiftLeft, Nat.mod_eq_of_lt hpow]
  have hma : (lowMask w i).toNat = 2 ^ i - 1 := by
    unfold lowMask
    rw [BitVec.toNat_sub_of_le (by rw [BitVec.le_def, hone, hsh]; exact Nat.one_le_two_pow), hone, hsh]
  rw [← BitVec.testBit_toNat, hma, Nat.testBit_two_pow_sub_one]

theorem getLsbD_insertBit (hi : i < w) : (insertBit x i).getLsbD j =
    if j < i then x.getLsbD j else if j = i then false else decide (j < w) && x.getLsbD (j - 1) := by
  simp only [insertBit, BitVec.getLsbD_or, BitVec.getLsbD_shiftLeft, BitVec.getLsbD_and, BitVec.getLsbD_not,
    getLsbD_lowMask hi]
  rcases Nat.lt_trichotomy j i with h | rfl | h
  · have hlow : j - 1 < i := by omega
    simp [h, hlow]
  · rcases Nat.eq_zero_or_pos j with rfl | hpos
    · simp
    · simp [show j - 1 < j by omega]
  · have hhi : ¬j - 1 < i := by omega
    have hpos : ¬j < 1 := by omega
    simp only [if_neg (show ¬j < i by omega), if_neg (show j ≠ i by omega), decide_eq_false hhi, decide_eq_false hpos,
      decide_eq_false (show ¬j < i by omega), Bool.not_false, Bool.and_true, Bool.and_false, Bool.or_false]
    by_cases hw : j < w
    · simp [hw, show j - 1 < w by omega]
    · simp [hw]

theorem getLsbD_removeBit (hi : i < w) : (removeBit x i).getLsbD j =
    if j < i then x.getLsbD j else x.getLsbD (j + 1) := by
  simp only [removeBit, BitVec.getLsbD_or, BitVec.getLsbD_shiftLeft, BitVec.getLsbD_ushiftRight, BitVec.getLsbD_and,
    BitVec.getLsbD_not, getLsbD_lowMask hi, Nat.add_comm 1 j, Nat.add_sub_cancel]
  by_cases h : j < i
  · simp [h]
  · by_cases hw : j + 1 < w
    · simp [h, hw, show j < w by omega]
    · simp [h, hw, BitVec.getLsbD_of_ge x (j + 1) (by omega)]

theorem getLsbD_or_one (hi : i < w) : (x ||| (1#w <<< i)).getLsbD j = (x.getLsbD j || decide (j = i)) := by
  simp only [BitVec.getLsbD_or, BitVec.getLsbD_shiftLeft, BitVec.getLsbD_one]
  rcases Nat.lt_trichotomy j i with h | rfl | h
  · simp [h, show j ≠ i by omega]
  · simp [hi, show 0 < w by omega]
  · simp [show j ≠ i by omega, show j - i ≠ 0 by omega]

theorem and_one_pos (hi : i < w) : 0 < x &&& (1#w <<< i) ↔ x.getLsbD i = true := by
  have hz : x &&& (1#w <<< i) = 0 ↔ x.getLsbD i = false := by
    rw [show (0 : BitVec w) = 0#w from rfl, BitVec.zero_iff_eq_false]
    constructor
    · intro h
      have hbit := h i
      simpa [hi, show 0 < w by omega] using hbit
    · intro h j
      by_cases hj : j = i
      · simp [hj, h]
      · rw [BitVec.getLsbD_and, BitVec.getLsbD_shiftLeft, BitVec.getLsbD_one]
        rcases Nat.lt_or_gt_of_ne hj with hlt | hgt
        · simp [hlt]
        · simp [show j - i ≠ 0 by omega]
  rw [BitVec.lt_def, show (0 : BitVec w).toNat = 0 from BitVec.toNat_zero, Word.toNat_pos, Ne, hz, Bool.not_eq_false]

/-! ### Counting -/

theorem countP_range {α : Type} {l : List α} {w : Nat} {p : Nat → Bool} {q : α → Bool} (hl : l.length ≤ w)
    (hin : ∀ {j m}, l[j]? = some m → p j = q m) (hout : ∀ {j}, l.length ≤ j → p j = false) :
    (List.range w).countP p = l.countP q := by
  induction l generalizing w p with
  | nil =>
    rw [List.countP_nil, List.countP_eq_zero]
    intro j _
    rw [hout (Nat.zero_le j)]
    exact Bool.false_ne_true
  | cons m l ih =>
    obtain ⟨w, rfl⟩ : ∃ n, w = n + 1 := Nat.exists_eq_add_one.mpr (Nat.lt_of_lt_of_le (Nat.succ_pos _) hl)
    have hr : (List.range w).countP (p ∘ Nat.succ) = l.countP q :=
      ih (Nat.le_of_succ_le_succ hl) (fun {j m} h => hin (j := j + 1) h) fun h => hout (Nat.succ_le_succ h)
    rw [List.range_succ_eq_map, List.countP_cons, List.countP_map, hr, hin (j := 0) (m := m) rfl, List.countP_cons]

theorem countP_range_or {n : Nat} {p : Nat → Bool} {i : Nat} (hi : i < n) (hp : p i = false) :
    (List.range n).countP (fun j => p j || decide (j = i)) = (List.range n).countP p + 1 := by
  induction n with
  | zero => exact absurd hi (Nat.not_lt_zero i)
  | succ n ih =>
    simp only [List.range_succ, List.countP_append, List.countP_singleton]
    rcases Nat.lt_succ_iff_lt_or_eq.mp hi with hlt | rfl
    · rw [ih hlt, decide_eq_false (Nat.ne_of_gt hlt), Bool.or_false]
      omega
    · have hs : (List.range i).countP (fun j => p j || decide (j = i)) = (List.range i).countP p := by
        refine List.countP_congr fun j hj => ?_
        rw [decide_eq_false (Nat.ne_of_lt (List.mem_range.mp hj)), Bool.or_false]
      simp [hs, hp]

theorem countOnes_or_one {w i : Nat} {x : BitVec w} (hi : i < w) (hcl : x.getLsbD i = false) :
    countOnes (x ||| (1#w <<< i)) = countOnes x + 1 := by
  have hbi : (x ||| (1#w <<< i)).getLsbD = fun j => x.getLsbD j || decide (j = i) :=
    funext fun j => getLsbD_or_one hi
  rw [countOnes, hbi]
  exact countP_range_or hi hcl

theorem countOnes_le {w : Nat} (x : BitVec w) : countOnes x ≤ w :=
  List.countP_le_length.trans_eq List.length_range

end Bits
