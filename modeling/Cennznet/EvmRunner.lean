import Cennznet.EthStateOracle

/-! # The EVM runner

`runtime/src/runner.rs`: the fee in wei that a call of the EVM may come to. -/

namespace FeePreferencesRunner

open GenericAsset (Balance)
open Result

inductive FeePreferencesError where
  | gasPriceTooLow
  | feeOverflow
deriving DecidableEq, Repr

/-- The most that the gas can cost. `baseFee` is `FeeCalculator::min_gas_price`. -/
def calculateTotalGas (baseFee : BitVec 256) (gasLimit : BitVec 64)
    (maxFeePerGas maxPriorityFeePerGas : Option (BitVec 256)) : Except FeePreferencesError Balance := do
  let maxFeePerGas ← match maxFeePerGas with
    | some maxFeePerGas => do
      ensure (baseFee.toNat ≤ maxFeePerGas.toNat) .gasPriceTooLow
      pure maxFeePerGas
    | none => pure 0
  let maxBaseFee ← okOr (Word.checkedMul maxFeePerGas (gasLimit.setWidth 256)) .feeOverflow
  let maxPriorityFee ← match maxPriorityFeePerGas with
    | some maxPriorityFee => okOr (Word.checkedMul maxPriorityFee (gasLimit.setWidth 256)) .feeOverflow
    | none => pure 0
  let totalFee ← okOr (Word.checkedAdd maxBaseFee maxPriorityFee) .feeOverflow
  return Word.saturatedInto 128 totalFee

end FeePreferencesRunner
