import Mathlib.Data.Nat.Init
import Mathlib.Tactic.Ring

/-! # Machine words

Unsigned machine integers are bit vectors. `+`, `-` and `*` wrap around. Each checked or saturating operation has one
lemma that reads it in the natural numbers. -/

namespace Word

variable {w : Nat} {a b c : BitVec w}

def maxValue (w : Nat) : BitVec w := BitVec.allOnes w

def checkedAdd (a b : BitVec w) : Option (BitVec w) :=
  if a.toNat + b.toNat < 2 ^ w then some (a + b) else none

def checkedSub (a b : BitVec w) : Option (BitVec w) :=
  if b.toNat ≤ a.toNat then some (a - b) else none

def checkedMul (a b : BitVec w) : Option (BitVec w) :=
  if a.toNat * b.toNat < 2 ^ w then some (a * b) else none

def checkedDiv (a b : BitVec w) : Option (BitVec w) :=
  if b.toNat = 0 then none else some (a / b)

def saturatingAdd (a b : BitVec w) : BitVec w :=
  if a.toNat + b.toNat < 2 ^ w then a + b else maxValue w

def saturatingSub (a b : BitVec w) : BitVec w :=
  if b.toNat ≤ a.toNat then a - b else 0

def saturatingMul (a b : BitVec w) : BitVec w :=
  if a.toNat * b.toNat < 2 ^ w then a * b else maxValue w

/-- The value in a word of another width, or nothing if it does not fit. -/
def tryFrom (v : Nat) (a : BitVec w) : Option (BitVec v) :=
  if a.toNat < 2 ^ v then some (a.setWidth v) else none

/-- The value in a word of another width, capped at its greatest value. -/
def saturatedInto (v : Nat) (a : BitVec w) : BitVec v :=
  if a.toNat < 2 ^ v then a.setWidth v else maxValue v

theorem toNat_maxValue : (maxValue w).toNat = 2 ^ w - 1 := BitVec.toNat_allOnes

theorem exists_toNat_eq {n : Nat} (h : n < 2 ^ w) : ∃ x : BitVec w, x.toNat = n := ⟨BitVec.ofNatLT n h, rfl⟩

theorem toNat_eq_zero : a.toNat = 0 ↔ a = 0 := by
  simp [← BitVec.toNat_inj]

theorem toNat_pos : 0 < a.toNat ↔ a ≠ 0 := by
  rw [Nat.pos_iff_ne_zero, Ne, toNat_eq_zero]

theorem toNat_sub_of_le (h : b.toNat ≤ a.toNat) : (a - b).toNat = a.toNat - b.toNat :=
  BitVec.toNat_sub_of_le (BitVec.le_def.mpr h)

theorem checkedAdd_eq_some : checkedAdd a b = some c ↔ a.toNat + b.toNat = c.toNat := by
  unfold checkedAdd
  split_ifs with h
  · rw [Option.some_inj, ← BitVec.toNat_inj, BitVec.toNat_add_of_lt h]
  · have := c.isLt
    constructor
    · intro h'; cases h'
    · intro h'; omega

theorem checkedSub_eq_some : checkedSub a b = some c ↔ c.toNat + b.toNat = a.toNat := by
  unfold checkedSub
  split_ifs with h
  · rw [Option.some_inj, ← BitVec.toNat_inj, toNat_sub_of_le h]
    omega
  · constructor
    · intro h'; cases h'
    · intro h'; omega

theorem checkedSub_eq_none : checkedSub a b = none ↔ a.toNat < b.toNat := by
  unfold checkedSub
  split_ifs with h
  · exact iff_of_false (fun h' => by cases h') (Nat.not_lt.mpr h)
  · exact iff_of_true rfl (Nat.not_le.mp h)

theorem checkedMul_eq_some : checkedMul a b = some c ↔ a.toNat * b.toNat = c.toNat := by
  unfold checkedMul
  split_ifs with h
  · rw [Option.some_inj, ← BitVec.toNat_inj, BitVec.toNat_mul, Nat.mod_eq_of_lt h]
  · have := c.isLt
    constructor
    · intro h'; cases h'
    · intro h'; omega

theorem checkedDiv_eq_some : checkedDiv a b = some c ↔ b.toNat ≠ 0 ∧ a.toNat / b.toNat = c.toNat := by
  unfold checkedDiv
  split_ifs with h
  · simp [h]
  · rw [Option.some_inj, ← BitVec.toNat_inj, BitVec.toNat_udiv]
    exact ⟨fun h' => ⟨h, h'⟩, fun h' => h'.2⟩

theorem toNat_saturatingAdd : (saturatingAdd a b).toNat = min (a.toNat + b.toNat) (2 ^ w - 1) := by
  unfold saturatingAdd
  split_ifs with h
  · rw [BitVec.toNat_add_of_lt h]
    omega
  · rw [toNat_maxValue]
    omega

theorem toNat_saturatingSub : (saturatingSub a b).toNat = a.toNat - b.toNat := by
  unfold saturatingSub
  split_ifs with h
  · rw [toNat_sub_of_le h]
  · simp only [BitVec.ofNat_eq_ofNat, BitVec.toNat_ofNat, Nat.zero_mod]
    omega

theorem toNat_saturatingMul : (saturatingMul a b).toNat = min (a.toNat * b.toNat) (2 ^ w - 1) := by
  unfold saturatingMul
  split_ifs with h
  · rw [BitVec.toNat_mul, Nat.mod_eq_of_lt h]
    omega
  · rw [toNat_maxValue]
    omega

theorem tryFrom_eq_some {v : Nat} {d : BitVec v} : tryFrom v a = some d ↔ a.toNat = d.toNat := by
  unfold tryFrom
  split_ifs with h
  · rw [Option.some_inj, ← BitVec.toNat_inj, BitVec.toNat_setWidth, Nat.mod_eq_of_lt h]
  · have := d.isLt
    constructor
    · intro h'; cases h'
    · intro h'; omega

theorem toNat_saturatedInto {v : Nat} : (saturatedInto v a).toNat = min a.toNat (2 ^ v - 1) := by
  unfold saturatedInto
  split_ifs with h
  · rw [BitVec.toNat_setWidth, Nat.mod_eq_of_lt h]
    omega
  · rw [toNat_maxValue]
    omega

theorem toNat_lesser : (if a.toNat ≤ b.toNat then a else b).toNat = min a.toNat b.toNat := by
  split <;> omega

theorem toNat_foldl_add {l : List (BitVec w)} (h : a.toNat + (l.map BitVec.toNat).sum < 2 ^ w) :
    (l.foldl (· + ·) a).toNat = a.toNat + (l.map BitVec.toNat).sum := by
  induction l generalizing a with
  | nil => rfl
  | cons b rest ih =>
    rw [List.map_cons, List.sum_cons] at h ⊢
    have hadd : (a + b).toNat = a.toNat + b.toNat := BitVec.toNat_add_of_lt (by omega)
    rw [List.foldl_cons, ih (by omega), hadd]
    omega

theorem toNat_saturatingMul_setWidth {v : Nat} (h : 2 * w ≤ v) :
    (saturatingMul (a.setWidth v) (b.setWidth v)).toNat = a.toNat * b.toNat := by
  have hw : w ≤ v := Nat.le_trans (Nat.le_mul_of_pos_left w Nat.two_pos) h
  have hlt : a.toNat * b.toNat < 2 ^ v := by
    have hmul : a.toNat * b.toNat < 2 ^ w * 2 ^ w := Nat.mul_lt_mul'' a.isLt b.isLt
    rw [← Nat.pow_add, ← Nat.two_mul] at hmul
    exact Nat.lt_of_lt_of_le hmul (Nat.pow_le_pow_right Nat.two_pos h)
  rw [toNat_saturatingMul, BitVec.toNat_setWidth_of_le hw, BitVec.toNat_setWidth_of_le hw]
  exact Nat.min_eq_left (Nat.le_sub_one_of_lt hlt)

/-- A quotient survives the reduction of its dividend modulo `m` only if nothing is reduced. -/
theorem mod_div_eq_iff {n m d : Nat} (hd : 0 < d) (hm : d ≤ m) : n % m / d = n / d ↔ n < m := by
  constructor
  · intro h
    by_contra hle
    have hsp : n % m + d ≤ n := by
      have hmod := Nat.mod_add_div n m
      have hone : m ≤ m * (n / m) := Nat.le_mul_of_pos_right m (Nat.div_pos (Nat.le_of_not_lt hle) (by omega))
      omega
    have hdiv : (n % m + d) / d ≤ n / d := Nat.div_le_div_right hsp
    rw [Nat.add_div_right _ hd] at hdiv
    omega
  · intro h
    rw [Nat.mod_eq_of_lt h]

theorem toNat_mul_div_eq_iff (hc : 0 < c.toNat) :
    (a * b / c).toNat = a.toNat * b.toNat / c.toNat ↔ a.toNat * b.toNat < 2 ^ w := by
  rw [BitVec.toNat_udiv, BitVec.toNat_mul, mod_div_eq_iff hc (Nat.le_of_lt c.isLt)]

theorem toNat_mul_div_succ_eq_iff (hc : 0 < c.toNat) : (a * b / c + 1).toNat = a.toNat * b.toNat / c.toNat + 1 ↔
      a.toNat * b.toNat < 2 ^ w ∧ a.toNat * b.toNat / c.toNat + 1 < 2 ^ w := by
  have hone : (1 : BitVec w).toNat = 1 := by
    rw [BitVec.ofNat_eq_ofNat, BitVec.toNat_ofNat, Nat.mod_eq_of_lt]
    exact Nat.lt_of_le_of_lt hc c.isLt
  have hle : (a * b / c).toNat ≤ a.toNat * b.toNat / c.toNat := by
    rw [BitVec.toNat_udiv, BitVec.toNat_mul]
    exact Nat.div_le_div_right (Nat.mod_le _ _)
  constructor
  · intro h
    have hlt := (a * b / c + 1).isLt
    have hsu := Nat.mod_le ((a * b / c).toNat + 1) (2 ^ w)
    rw [h] at hlt
    rw [BitVec.toNat_add, hone] at h
    exact ⟨(toNat_mul_div_eq_iff hc).mp (by omega), hlt⟩
  · rintro ⟨hpr, hlt⟩
    have hex := (toNat_mul_div_eq_iff hc).mpr hpr
    rw [BitVec.toNat_add, hone, hex, Nat.mod_eq_of_lt hlt]

end Word
