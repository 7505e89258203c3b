import Cennznet.GenericAsset
import Cennznet.Weights

/-! # Transaction fees

`crml/transaction-payment`: the fee of an extrinsic, as it is charged and as it is itemised. What the runtime
configures is a parameter. Unchecked `-` wraps around. -/

namespace TransactionPayment

open GenericAsset (Balance)
open Word

inductive DispatchClass where
  | normal
  | operational
  | mandatory
deriving DecidableEq

/-- A `FixedU128`, which counts in units of `10 ^ -18`. -/
abbrev Multiplier := BitVec 128

/-- The product of a multiplier and a balance saturates. Unless it fits in 128 bits before it is divided, it may be
rounded up. -/
structure Config where
  transactionByteFee : Balance
  /-- `WeightToFee::calc`. -/
  calcFee : Weight → Balance
  maxBlock : Weight
  baseExtrinsic : DispatchClass → Weight
  saturatingMulInt : Multiplier → Balance → Balance
  saturatingMulInt_of_lt : ∀ m n, m.toNat * n.toNat < 2 ^ 128 →
    (saturatingMulInt m n).toNat = m.toNat * n.toNat / 10 ^ 18
  le_saturatingMulInt : ∀ m n, min (m.toNat * n.toNat / 10 ^ 18) (2 ^ 128 - 1) ≤ (saturatingMulInt m n).toNat
  saturatingMulInt_le : ∀ m n, (saturatingMulInt m n).toNat ≤ m.toNat * n.toNat / 10 ^ 18 + 1
  saturatingMulInt_mono : ∀ m n n', n.toNat ≤ n'.toNat → (saturatingMulInt m n).toNat ≤ (saturatingMulInt m n').toNat

structure DispatchInfo where
  weight : Weight
  dispatchClass : DispatchClass
  paysFee : Bool

/-- What is charged for after dispatch: at most the weight of before, and nothing if nothing was charged before. -/
structure PostDispatchInfo (info : DispatchInfo) where
  actualWeight : Weight
  paysFee : Bool
  actualWeight_le : actualWeight.toNat ≤ info.weight.toNat
  free_of_free : info.paysFee = false → paysFee = false

structure InclusionFee where
  baseFee : Balance
  lenFee : Balance
  adjustedWeightFee : Balance

structure FeeDetails where
  inclusionFee : Option InclusionFee
  tip : Balance

structure FeeParts where
  baseFee : Balance
  lengthFee : Balance
  weightFee : Balance
  peakAdjustmentFee : Balance

def InclusionFee.inclusionFee (f : InclusionFee) : Balance :=
  saturatingAdd (saturatingAdd f.baseFee f.lenFee) f.adjustedWeightFee

def FeeDetails.finalFee (f : FeeDetails) : Balance :=
  saturatingAdd ((f.inclusionFee.map (·.inclusionFee)).getD 0) f.tip

def FeeParts.total (f : FeeParts) : Balance :=
  saturatingAdd (saturatingAdd (saturatingAdd f.lengthFee f.baseFee) f.weightFee) f.peakAdjustmentFee

variable (cfg : Config) (nextFeeMultiplier : Multiplier) (len : BitVec 32) (info : DispatchInfo)

def weightToFee (weight : Weight) : Balance :=
  cfg.calcFee (if weight.toNat ≤ cfg.maxBlock.toNat then weight else cfg.maxBlock)

def computeFeeRaw (weight : Weight) (tip : Balance) (paysFee : Bool) (dispatchClass : DispatchClass) : FeeDetails :=
  if paysFee then
    let inclusionFee :=
      { baseFee := weightToFee cfg (cfg.baseExtrinsic dispatchClass)
        lenFee := saturatingMul cfg.transactionByteFee (len.setWidth 128)
        adjustedWeightFee := cfg.saturatingMulInt nextFeeMultiplier (weightToFee cfg weight) }
    { inclusionFee := some inclusionFee, tip := tip }
  else { inclusionFee := none, tip := tip }

def computeFee (tip : Balance) : Balance :=
  (computeFeeRaw cfg nextFeeMultiplier len info.weight tip info.paysFee info.dispatchClass).finalFee

/-- The fee once the call has been dispatched. -/
def computeActualFee (post : PostDispatchInfo info) (tip : Balance) : Balance :=
  (computeFeeRaw cfg nextFeeMultiplier len post.actualWeight tip post.paysFee info.dispatchClass).finalFee

def computeFeeParts : FeeParts :=
  let unadjustedWeightFee := weightToFee cfg info.weight
  let adjustedWeightFee := cfg.saturatingMulInt nextFeeMultiplier unadjustedWeightFee
  { baseFee := weightToFee cfg (cfg.baseExtrinsic .normal)
    lengthFee := saturatingMul cfg.transactionByteFee (len.setWidth 128)
    weightFee := unadjustedWeightFee
    peakAdjustmentFee := adjustedWeightFee - unadjustedWeightFee }

end TransactionPayment
