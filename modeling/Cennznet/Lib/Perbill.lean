import Cennznet.Lib.Rounding

/-! # Parts per billion

Whole parts of a billion. A ratio of two numbers is rounded down to it, and its share of a word is rounded to the
nearest integer, ties down. -/

/-- A ratio of at most one, in parts per billion. -/
structure Perbill where
  parts : Nat
  parts_le : parts ≤ 1000000000
deriving DecidableEq

namespace Perbill

def accuracy : Nat := 1000000000

def ofRatio (p q : Nat) : Perbill :=
  ⟨accuracy * min p (max q 1) / max q 1, by
    have hmin : accuracy * min p (max q 1) ≤ max q 1 * accuracy := by
      rw [Nat.mul_comm (max q 1)]
      exact Nat.mul_le_mul_left _ (Nat.min_le_right p _)
    exact Nat.div_le_of_le_mul hmin⟩

def fromPercent (p : Nat) : Perbill :=
  ⟨10000000 * min p 100, by
    have hmin := Nat.min_le_right p 100
    omega⟩

variable {w : Nat}

def mul (r : Perbill) (x : BitVec w) : BitVec w := BitVec.ofNat w (Rounding.nearest (r.parts * x.toNat) accuracy)

theorem nearest_le (r : Perbill) (n : Nat) : Rounding.nearest (r.parts * n) accuracy ≤ n := by
  refine Rounding.nearest_le (by decide) ?_
  rw [Nat.mul_comm n]
  exact Nat.mul_le_mul_right n r.parts_le

@[simp] theorem toNat_mul (r : Perbill) (x : BitVec w) :
    (r.mul x).toNat = Rounding.nearest (r.parts * x.toNat) accuracy := by
  have hlt : Rounding.nearest (r.parts * x.toNat) accuracy < 2 ^ w := (r.nearest_le x.toNat).trans_lt x.isLt
  exact BitVec.toNat_ofNat _ _ ▸ Nat.mod_eq_of_lt hlt

theorem mul_le (r : Perbill) (x : BitVec w) : (r.mul x).toNat ≤ x.toNat := by
  rw [toNat_mul]
  exact r.nearest_le x.toNat

theorem mul_le_mul {r r' : Perbill} {x y : BitVec w} (hr : r.parts ≤ r'.parts) (hx : x.toNat ≤ y.toNat) :
    (r.mul x).toNat ≤ (r'.mul y).toNat := by
  rw [toNat_mul, toNat_mul]
  exact Rounding.nearest_le_nearest (Nat.mul_le_mul hr hx)

end Perbill
