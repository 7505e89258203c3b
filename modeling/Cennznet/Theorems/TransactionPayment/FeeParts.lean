import Cennznet.TransactionPayment

/-! # Itemised fees

A multiplier below one takes off the weight fee, and the subtraction wraps around. -/

namespace TransactionPayment

open GenericAsset (Balance)
open Word

theorem le_saturatingMulInt_iff {cfg : Config} {m : Multiplier} {u : Balance} :
    u.toNat ≤ (cfg.saturatingMulInt m u).toNat ↔ u = 0 ∨ 10 ^ 18 ≤ m.toNat := by
  have hu := u.isLt
  rw [← toNat_eq_zero]
  constructor
  · intro h
    by_contra hc
    have hlt : m.toNat * u.toNat < 10 ^ 18 * u.toNat := Nat.mul_lt_mul_of_pos_right (by omega) (by omega)
    by_cases hbig : m.toNat * u.toNat < 2 ^ 128
    · rw [cfg.saturatingMulInt_of_lt m u hbig] at h
      omega
    · -- the weight fee is above `10 ^ 20`, so that the product is more than one below it
      have hle : m.toNat * u.toNat ≤ (10 ^ 18 - 1) * u.toNat := Nat.mul_le_mul_right _ (by omega)
      have hup := cfg.saturatingMulInt_le m u
      omega
  · rintro (h | h)
    · omega
    · have hle : 10 ^ 18 * u.toNat ≤ m.toNat * u.toNat := Nat.mul_le_mul_right _ h
      have hlow := cfg.le_saturatingMulInt m u
      omega

/-- The parts of a call's fee add up to it, without wrap-around, exactly if the call has no weight fee or the multiplier
is at least one. -/
theorem fee_parts_add_up_iff (cfg : Config) (multiplier : Multiplier) (len : BitVec 32) (weight : Weight) :
    let info : DispatchInfo := ⟨weight, .normal, true⟩
    ((weightToFee cfg weight).toNat ≤ (cfg.saturatingMulInt multiplier (weightToFee cfg weight)).toNat ∧
      (computeFeeParts cfg multiplier len info).total = computeFee cfg multiplier len info 0) ↔
    weightToFee cfg weight = 0 ∨ 10 ^ 18 ≤ multiplier.toNat := by
  refine Iff.trans (and_iff_left_of_imp fun h => BitVec.eq_of_toNat_eq ?_) le_saturatingMulInt_iff
  have hsub := toNat_sub_of_le h
  simp only [computeFeeParts, FeeParts.total, computeFee, computeFeeRaw, FeeDetails.finalFee, InclusionFee.inclusionFee,
    if_true, Option.map_some, Option.getD_some, toNat_saturatingAdd, hsub]
  have hz : (0 : Balance).toNat = 0 := rfl
  omega

def roundedDown (m : Multiplier) (n : Balance) : Balance :=
  BitVec.ofNat 128 (min (m.toNat * n.toNat / 10 ^ 18) (2 ^ 128 - 1))

theorem toNat_roundedDown (m : Multiplier) (n : Balance) :
    (roundedDown m n).toNat = min (m.toNat * n.toNat / 10 ^ 18) (2 ^ 128 - 1) :=
  Nat.mod_eq_of_lt (by omega)

/-- One unit for a byte or a unit of weight, and 5 for an extrinsic. -/
def sampleConfig : Config where
  transactionByteFee := 1
  calcFee w := w.setWidth 128
  maxBlock := 1000
  baseExtrinsic _ := 5
  saturatingMulInt := roundedDown
  saturatingMulInt_of_lt m n h := by
    rw [toNat_roundedDown]
    omega
  le_saturatingMulInt m n := (toNat_roundedDown m n).ge
  saturatingMulInt_le m n := by
    rw [toNat_roundedDown]
    omega
  saturatingMulInt_mono m n n' h := by
    have hle := Nat.mul_le_mul_left m.toNat h
    rw [toNat_roundedDown, toNat_roundedDown]
    omega

/-- With a multiplier of a half, a fee of 65 is itemised with a total of all that a balance can be. -/
theorem half_multiplier_wraps :
    let info : DispatchInfo := ⟨100, .normal, true⟩
    computeFee sampleConfig 500000000000000000 10 info 0 = 65 ∧
      (computeFeeParts sampleConfig 500000000000000000 10 info).total = maxValue 128 := by
  decide

/-! ### The fee after dispatch -/

end TransactionPayment
