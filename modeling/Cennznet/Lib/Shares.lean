import Mathlib.Data.Nat.Init
import Mathlib.Tactic.Ring

/-! # Shares of a pool of two reserves

Who adds to a pool adds both reserves in their ratio, the second rounded up (`counterpart`), and is issued shares in
the ratio of the first, rounded down (`issued`). Who leaves is paid a part of each reserve, rounded down (`redeemed`).
The value of a share is `core * asset / total ^ 2`. -/

namespace Shares

variable {core asset total amount shares core' asset' total' : Nat}

/-- What goes into the second reserve next to `amount` in the first. -/
def counterpart (core asset amount : Nat) : Nat := amount * asset / core + 1

def issued (core total amount : Nat) : Nat := amount * total / core

def redeemed (reserve total shares : Nat) : Nat := shares * reserve / total

/-- The product of the reserves per squared share has not fallen. -/
def ValueKept (core asset total core' asset' total' : Nat) : Prop :=
  core * asset * total' ^ 2 ≤ core' * asset' * total ^ 2

instance : Decidable (ValueKept core asset total core' asset' total') := inferInstanceAs (Decidable (_ ≤ _))

theorem mul_le_counterpart_mul (h : 0 < core) : amount * asset ≤ counterpart core asset amount * core := by
  unfold counterpart
  rw [Nat.mul_comm _ core]
  exact Nat.le_of_lt (Nat.lt_mul_div_succ _ h)

theorem redeemed_le {reserve : Nat} (h : shares ≤ total) : redeemed reserve total shares ≤ reserve :=
  Nat.div_le_of_le_mul (Nat.mul_le_mul_right reserve h)

theorem redeemed_all {reserve : Nat} (h : 0 < total) : redeemed reserve total total = reserve :=
  Nat.mul_div_cancel_left reserve h

theorem ValueKept.of_reserves (hc : core * total' ≤ core' * total) (hst : asset * total' ≤ asset' * total) :
    ValueKept core asset total core' asset' total' :=
  calc core * asset * total' ^ 2 = core * total' * (asset * total') := by ring
    _ ≤ core' * total * (asset' * total) := Nat.mul_le_mul hc hst
    _ = core' * asset' * total ^ 2 := by ring

/-- Adding to the pool keeps the value of a share, also if fewer shares are issued than the ratio gives. -/
theorem valueKept_add (hc : 0 < core) (hiss : total' ≤ total + issued core total amount) :
    ValueKept core asset total (core + amount) (asset + counterpart core asset amount) total' := by
  have hsh : total' * core ≤ (core + amount) * total :=
    calc total' * core ≤ (total + issued core total amount) * core := Nat.mul_le_mul_right core hiss
      _ = total * core + issued core total amount * core := Nat.add_mul _ _ _
      _ ≤ total * core + amount * total := Nat.add_le_add_left (Nat.div_mul_le_self _ _) _
      _ = (core + amount) * total := by ring
  have hra : asset * (core + amount) ≤ (asset + counterpart core asset amount) * core :=
    calc asset * (core + amount) = asset * core + amount * asset := by ring
      _ ≤ asset * core + counterpart core asset amount * core := Nat.add_le_add_left (mul_le_counterpart_mul hc) _
      _ = (asset + counterpart core asset amount) * core := (Nat.add_mul _ _ _).symm
  refine ValueKept.of_reserves (by rwa [Nat.mul_comm core]) ?_
  -- the second reserve grows at least as the first, which grows at least as the shares
  refine Nat.le_of_mul_le_mul_right ?_ hc
  calc asset * total' * core = asset * (total' * core) := by ring
    _ ≤ asset * ((core + amount) * total) := Nat.mul_le_mul_left asset hsh
    _ = asset * (core + amount) * total := by ring
    _ ≤ (asset + counterpart core asset amount) * core * total := Nat.mul_le_mul_right total hra
    _ = (asset + counterpart core asset amount) * total * core := by ring

theorem left_of_reserve {reserve : Nat} :
    reserve * (total - shares) ≤ (reserve - redeemed reserve total shares) * total := by
  have h : redeemed reserve total shares * total ≤ shares * reserve := Nat.div_mul_le_self _ _
  rw [Nat.mul_sub, Nat.sub_mul, Nat.mul_comm reserve shares]
  omega

end Shares
