import Mathlib.Data.Nat.Init

/-! # Percentages

Support of at least `t` percent and opposition of more than the other `100 - t` percent never meet, but rounding both
shares down leaves room between them. -/

/-- A whole percentage, at most 100. -/
abbrev Percent := Fin 101

namespace Percent

def ofRatio (p q : Nat) : Percent :=
  ⟨100 * min p (max q 1) / max q 1, by
    have hpos : 0 < max q 1 := by omega
    have h : 100 * min p (max q 1) / max q 1 ≤ 100 :=
      Nat.div_le_of_le_mul (by rw [Nat.mul_comm (max q 1)]; exact Nat.mul_le_mul_left 100 (Nat.min_le_right p _))
    omega⟩

variable {p q n t y : Nat}

theorem ofRatio_val (hq : 0 < q) (hp : p ≤ q) : (ofRatio p q).val = 100 * p / q := by
  have hmax : max q 1 = q := by omega
  unfold ofRatio
  simp only [hmax, Nat.min_eq_left hp]

theorem ofRatio_mono (h : p ≤ n) : ofRatio p q ≤ ofRatio n q := by
  have hmin : min p (max q 1) ≤ min n (max q 1) := by omega
  exact Nat.div_le_div_right (Nat.mul_le_mul_left 100 hmin)

theorem le_share_iff (hn : 0 < n) : t ≤ 100 * y / n ↔ t * n ≤ 100 * y := Nat.le_div_iff_mul_le hn

theorem lt_rest_share_iff (hn : 0 < n) (hy : y ≤ n) (ht : 1 ≤ t) (ht' : t ≤ 100) :
    100 - t < 100 * (n - y) / n ↔ 100 * y ≤ (t - 1) * n := by
  have hsum : (100 - t + 1) * n + (t - 1) * n = 100 * n := by
    rw [← Nat.add_mul]
    congr 1
    omega
  rw [← Nat.succ_le_iff, Nat.succ_eq_add_one, Nat.le_div_iff_mul_le hn]
  omega

end Percent
