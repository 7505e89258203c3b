import Cennznet.EthStateOracle

/-! # The precompile of the state oracle

`evm-precompiles/state-oracle`: a contract asks the oracle for the result of a call on Ethereum. The arguments are
those that `EvmDataReader` finds in the input. -/

namespace StateOraclePrecompile

open EthBridge (Bytes EthAddress)
open EthStateOracle (Env FeePreferences NewRequest Permill RequestId State newRequest scaleWeiTo4dp)
open GenericAsset (AssetId)
open Result

structure RemoteCall where
  destination : EthAddress
  inputData : Bytes
  callbackSignature : Bytes
  callbackGasLimit : BitVec 256
  callbackBounty : BitVec 256
deriving DecidableEq, Repr

structure FeeSwap where
  feeAssetId : EthAddress
  slippage : BitVec 256
deriving DecidableEq, Repr

/-- How a call fails; all but the first revert. -/
inductive Failure where
  | outOfGas
  | unsupportedAsset
  | requestFailed (error : EthStateOracle.Error)
deriving DecidableEq, Repr

structure Config (AccountId : Type) where
  oracle : EthStateOracle.Config AccountId
  weightToGas : Weight → BitVec 64
  evmIdToRuntimeId : EthAddress → Option AssetId

variable {AccountId : Type} (cfg : Config AccountId) (env : Env AccountId) (s : State AccountId)

def newRequestFee : BitVec 64 :=
  cfg.weightToGas (Word.saturatingAdd (cfg.oracle.dbWeight.writes 15) (cfg.oracle.dbWeight.reads 15))

def permillOfThousandths (p : BitVec 32) : Permill := BitVec.ofNat 32 (min p.toNat 1000 * 1000000 / 1000)

/-- The request for the arguments: the gas limit is `low_u64` of its argument, and the bounty is scaled. -/
def requestOf (caller : EthAddress) (call : RemoteCall) (feePreferences : Option FeePreferences) : NewRequest where
  caller := caller
  destination := call.destination
  inputData := call.inputData
  callbackSignature := call.callbackSignature.take 4
  callbackGasLimit := call.callbackGasLimit.setWidth 64
  feePreferences := feePreferences
  bounty := scaleWeiTo4dp (Word.saturatedInto 128 call.callbackBounty)

/-- Charges for the request and makes it. Without `targetGas` there is no limit. -/
def submit (targetGas : Option (BitVec 64)) (request : NewRequest) : Except Failure (State AccountId × RequestId) := do
  ensure (targetGas.all (fun gas => (newRequestFee cfg).toNat ≤ gas.toNat) = true) .outOfGas
  (newRequest cfg.oracle env s request).mapError .requestFailed

def remoteCall (targetGas : Option (BitVec 64)) (caller : EthAddress) (call : RemoteCall) :
    Except Failure (State AccountId × RequestId) :=
  submit cfg env s targetGas (requestOf caller call none)

def remoteCallWithFeeSwap (targetGas : Option (BitVec 64)) (caller : EthAddress) (call : RemoteCall) (swap : FeeSwap) :
    Except Failure (State AccountId × RequestId) := do
  let assetId ← okOr (cfg.evmIdToRuntimeId swap.feeAssetId) .unsupportedAsset
  submit cfg env s targetGas (requestOf caller call
    (some { assetId := assetId, slippage := permillOfThousandths (swap.slippage.setWidth 32) }))

end StateOraclePrecompile
