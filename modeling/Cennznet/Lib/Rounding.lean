import Mathlib.Data.Nat.Init
import Mathlib.Tactic.Ring

/-! # Rounding to the nearest integer

A quotient of natural numbers rounded to the nearest integer, ties down. -/

namespace Rounding

variable {n d : Nat}

/-- `n / d` to the nearest integer; a rest of a half is dropped. -/
def nearest (n d : Nat) : Nat := n / d + if d < 2 * (n % d) then 1 else 0

theorem two_mul_le_nearest (hd : 0 < d) : 2 * n ≤ (2 * nearest n d + 1) * d := by
  have hsp : d * (n / d) + n % d = n := Nat.div_add_mod n d
  have hmod : n % d < d := Nat.mod_lt n hd
  unfold nearest
  split
  · have hex : (2 * (n / d + 1) + 1) * d = 2 * (d * (n / d)) + 3 * d := by ring
    omega
  · have hex : (2 * (n / d + 0) + 1) * d = 2 * (d * (n / d)) + d := by ring
    omega

theorem nearest_eq_zero (h : 2 * n ≤ d) (hn : n < d) : nearest n d = 0 := by
  unfold nearest
  rw [Nat.div_eq_of_lt hn, Nat.mod_eq_of_lt hn, if_neg (by omega)]

theorem nearest_le {m : Nat} (hd : 0 < d) (h : n ≤ m * d) : nearest n d ≤ m := by
  have hdiv : n / d ≤ m := Nat.div_le_of_le_mul (by rwa [Nat.mul_comm])
  unfold nearest
  split
  · -- a quotient of `m` would be exact, without a rest to round up
    rename_i hup
    have hne : n / d ≠ m := by
      rintro rfl
      have hsp : d * (n / d) + n % d = n := Nat.div_add_mod n d
      rw [Nat.mul_comm] at h
      omega
    omega
  · exact hdiv

theorem nearest_le_nearest {m : Nat} (h : n ≤ m) : nearest n d ≤ nearest m d := by
  have hn : d * (n / d) + n % d = n := Nat.div_add_mod n d
  have hm : d * (m / d) + m % d = m := Nat.div_add_mod m d
  have hdiv : n / d ≤ m / d := Nat.div_le_div_right h
  unfold nearest
  rcases Nat.eq_or_lt_of_le hdiv with heq | hlt
  · -- the quotients agree: the rests are compared
    rw [heq] at hn ⊢
    split <;> split <;> omega
  · split <;> split <;> omega

@[simp] theorem nearest_zero : nearest 0 d = 0 := by simp [nearest]

theorem sum_nearest (l : List Nat) :
    (l.map (nearest · d)).sum = (l.map (· / d)).sum + l.countP fun n => decide (d < 2 * (n % d)) := by
  induction l with
  | nil => rfl
  | cons n rest ih =>
    rw [List.map_cons, List.sum_cons, ih, List.map_cons, List.sum_cons, List.countP_cons, nearest]
    simp only [decide_eq_true_eq]
    omega

/-! ### What rounding gains and loses -/

/-- What the parts rounded up gain, in units of `1 / d`. -/
def gained (d : Nat) (l : List Nat) : Nat := (l.map fun n => if d < 2 * (n % d) then d - n % d else 0).sum

/-- What the parts rounded down lose, in units of `1 / d`. -/
def lost (d : Nat) (l : List Nat) : Nat := (l.map fun n => if d < 2 * (n % d) then 0 else n % d).sum

theorem mul_nearest (hd : 0 < d) : d * nearest n d + (if d < 2 * (n % d) then 0 else n % d) =
    n + if d < 2 * (n % d) then d - n % d else 0 := by
  have hsp : d * (n / d) + n % d = n := Nat.div_add_mod n d
  have hmod : n % d < d := Nat.mod_lt n hd
  unfold nearest
  split
  · rw [Nat.mul_add, Nat.mul_one]
    omega
  · omega

theorem mul_sum_nearest (hd : 0 < d) (l : List Nat) :
    d * (l.map (nearest · d)).sum + lost d l = l.sum + gained d l := by
  induction l with
  | nil => rfl
  | cons n rest ih =>
    have hn := mul_nearest (n := n) hd
    simp only [gained, lost, List.map_cons, List.sum_cons, Nat.mul_add] at ih ⊢
    omega

/-- The rounded parts stay within `m` exactly if what is rounded up is covered by what is rounded down and what the
parts leave of `m`. -/
theorem sum_nearest_le_iff {m : Nat} (hd : 0 < d) (l : List Nat) :
    (l.map (nearest · d)).sum ≤ m ↔ l.sum + gained d l ≤ d * m + lost d l := by
  rw [← mul_sum_nearest hd l, Nat.add_le_add_iff_right]
  exact (Nat.mul_le_mul_left_iff hd).symm

/-! ### Rounding up -/

def up (n d : Nat) : Nat := n / d + if n % d = 0 then 0 else 1

/-- What `n` lacks to the next multiple of `d`. -/
def shortfall (n d : Nat) : Nat := if n % d = 0 then 0 else d - n % d

theorem mul_up (hd : 0 < d) : d * up n d = n + shortfall n d := by
  have hsp : d * (n / d) + n % d = n := Nat.div_add_mod n d
  have hmod : n % d < d := Nat.mod_lt n hd
  unfold up shortfall
  split
  · rw [Nat.add_zero]
    omega
  · rw [Nat.mul_add, Nat.mul_one]
    omega

theorem up_le_iff {m : Nat} (hd : 0 < d) : up n d ≤ m ↔ n ≤ d * m := by
  have hsp : d * (n / d) + n % d = n := Nat.div_add_mod n d
  have hmod : n % d < d := Nat.mod_lt n hd
  constructor
  · intro h
    have hle : d * up n d ≤ d * m := Nat.mul_le_mul_left d h
    rw [mul_up hd] at hle
    omega
  · intro h
    have hqu : n / d ≤ m := Nat.div_le_of_le_mul h
    unfold up
    split_ifs with hr
    · exact hqu
    · -- a quotient of `m` would leave no rest
      rcases Nat.lt_or_eq_of_le hqu with hlt | heq
      · exact hlt
      · rw [heq] at hsp
        omega

theorem up_succ (hd : 0 < d) : up (n + 1) d = n / d + 1 := by
  apply Nat.le_antisymm
  · rw [up_le_iff hd]
    exact Nat.lt_mul_div_succ n hd
  · by_contra hlt
    have hle : n + 1 ≤ d * (n / d) := (up_le_iff hd).mp (by omega)
    have := Nat.mul_div_le n d
    omega

/-- Parts rounded up stay within their rounded sum exactly if what rounding adds to them is covered by what they leave
of it and what rounding adds to it. -/
theorem up_add_up_le_iff {m k : Nat} (hd : 0 < d) (h : m + k ≤ n) :
    up m d + up k d ≤ up n d ↔ shortfall m d + shortfall k d ≤ n - (m + k) + shortfall n d := by
  rw [← Nat.mul_le_mul_left_iff hd, Nat.mul_add, mul_up hd, mul_up hd, mul_up hd]
  omega

end Rounding
