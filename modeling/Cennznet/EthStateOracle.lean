import Cennznet.Cennzx
import Cennznet.Erc20Peg

/-! # The Ethereum state oracle

`crml/eth-state-oracle`: contracts ask for the result of a call on Ethereum. A bonded relayer responds, a bonded
challenger may challenge the response, and after the challenge period the idle weight of a block runs the callback.

What the rest of the runtime does in a step is the step's `Env`. Unchecked `+`, `-` and `*` wrap around, but `U256`
panics. The subscription to verified calls is not implemented in the source. -/

namespace EthStateOracle

open EthBridge (Bytes EthAddress Seconds)
open Erc20Peg (BlockNumber)
open GenericAsset (AssetId Balance)
open Result

abbrev ChallengeId := BitVec 64
abbrev RequestId := BitVec 256
abbrev Permill := BitVec 32

inductive Error where
  | responseExists
  | noRequest
  | noResponse
  | insufficientFundsGas
  | insufficientFundsBounty
  | invalidResponseTimestamp
  | duplicateChallenge
  | returnDataExceedsLimit
  | requestExpired
  | alreadyBonded
  | notEnoughBonded
  | cantUnbond
  | maxRelayersReached
  | noAvailableResponses
  | activeChallenger
  | noChallengers
  | currency (e : GenericAsset.Error)
  | exchange (e : Cennzx.Error)
  | other (code : BitVec 8)
  /-- A panic: a missing value is unwrapped. -/
  | unwrapNone
  /-- A panic: a `U256` overflows. -/
  | overflow
deriving DecidableEq, Repr

/-! ### Types -/

structure FeePreferences where
  assetId : AssetId
  slippage : Permill
deriving DecidableEq, Repr

structure CallRequest where
  destination : EthAddress
  caller : EthAddress
  callbackGasLimit : BitVec 64
  callbackSignature : Bytes
  feePreferences : Option FeePreferences
  bounty : Balance
  timestamp : Seconds
  expiryBlock : BlockNumber
  inputData : Bytes
deriving DecidableEq, Repr

inductive ReturnDataClaim where
  | ok (data : BitVec 256)
  | exceedsLengthLimit
deriving DecidableEq, Repr

structure CallResponse (AccountId : Type) where
  returnData : ReturnDataClaim
  ethBlockNumber : BitVec 64
  ethBlockTimestamp : Seconds
  relayer : AccountId
deriving DecidableEq, Repr

inductive Event (AccountId : Type) where
  | callbackErr (requestId : RequestId) (error : Error)
  | callback (requestId : RequestId) (weight : Weight)
  | relayerBondSet (who : AccountId) (amount : Balance)
  | challengerBondSet (who : AccountId) (amount : Balance)
  | relayerBondRemoved (who : AccountId) (amount : Balance)
  | challengerBondRemoved (who : AccountId) (amount : Balance)
deriving DecidableEq

structure NewRequest where
  caller : EthAddress
  destination : EthAddress
  inputData : Bytes
  callbackSignature : Bytes
  callbackGasLimit : BitVec 64
  feePreferences : Option FeePreferences
  bounty : Balance
deriving DecidableEq, Repr

structure ContractCall where
  caller : EthAddress
  target : EthAddress
  inputData : Bytes
  gasLimit : BitVec 64
  maxFeePerGas : BitVec 256
  maxPriorityFeePerGas : BitVec 256
deriving DecidableEq, Repr

/-- What became of a contract call: the ledger, the requests made, the weight, and the error if it failed. -/
structure Execution (AccountId : Type) where
  assets : GenericAsset.State AccountId
  requests : List NewRequest := []
  actualWeight : Option Weight := none
  error : Option Error := none

structure Config (AccountId : Type) where
  assets : GenericAsset.Config AccountId
  feeCurrency : AssetId
  exchangeAddressFor : AssetId → AssetId → AccountId
  intoAccountId : EthAddress → AccountId
  stateOraclePrecompileAddress : EthAddress
  challengePeriod : BlockNumber
  gasToWeight : BitVec 64 → Weight
  mulPermill : Permill → Balance → Balance
  relayerBondAmount : Balance
  maxRequestsPerBlock : BitVec 32
  maxRelayerCount : BitVec 32
  dbWeight : RuntimeDbWeight

def Config.cennzx {AccountId : Type} (cfg : Config AccountId) : Cennzx.Config AccountId :=
  ⟨cfg.assets, cfg.exchangeAddressFor, cfg.feeCurrency⟩

structure Env (AccountId : Type) where
  now : Seconds
  minGasPrice : BitVec 64
  /-- `EthCallOracle::checked_eth_call`: target, input, timestamp, block number, blocks to look behind. -/
  checkedEthCall : EthAddress → Bytes → Seconds → BitVec 64 → BitVec 64 → ChallengeId
  /-- The storage of the exchange; its ledger is the oracle's. -/
  exchange : Cennzx.State AccountId
  execute : GenericAsset.State AccountId → ContractCall → Execution AccountId

structure State (AccountId : Type) where
  assets : GenericAsset.State AccountId
  blockNumber : BlockNumber
  challengeSubscriptions : StorageMap ChallengeId RequestId
  maxResponseDrift : BitVec 64
  nextRequestId : RequestId
  requests : StorageMap RequestId CallRequest
  relayerBonds : StorageMap AccountId Balance
  challengerBonds : StorageMap AccountId Balance
  responses : StorageMap RequestId (CallResponse AccountId)
  responsesChallenged : StorageMap RequestId AccountId
  responsesValidAtBlock : StorageMap BlockNumber (List RequestId)
  requestsExpiredAtBlock : StorageMap BlockNumber (List RequestId)
  responsesForCallback : List RequestId
  requestsThisBlock : BitVec 32
  callbacks : List RequestId
  events : List (Event AccountId)

variable {AccountId : Type}

def State.genesis (assets : GenericAsset.State AccountId) : State AccountId where
  assets := assets
  blockNumber := 0
  challengeSubscriptions := ∅
  maxResponseDrift := 2
  nextRequestId := 0
  requests := ∅
  relayerBonds := ∅
  challengerBonds := ∅
  responses := ∅
  responsesChallenged := ∅
  responsesValidAtBlock := ∅
  requestsExpiredAtBlock := ∅
  responsesForCallback := []
  requestsThisBlock := 0
  callbacks := []
  events := []

def depositEvent (s : State AccountId) (event : Event AccountId) : State AccountId :=
  { s with events := s.events ++ [event] }

def ethBlockTime : BitVec 64 := 15

/-! ### Requests and responses -/

def newRequest (cfg : Config AccountId) (env : Env AccountId) (s : State AccountId) (r : NewRequest) :
    Except Error (State AccountId × RequestId) := do
  ensure (s.requestsThisBlock.toNat < cfg.maxRequestsPerBlock.toNat) .noAvailableResponses
  ensure (s.challengerBonds.entries.length ≠ 0) .noChallengers
  let requestId := s.nextRequestId
  let expiryBlock := s.blockNumber + cfg.challengePeriod
  let requestInfo : CallRequest := {
    caller := r.caller
    destination := r.destination
    callbackSignature := r.callbackSignature
    callbackGasLimit := r.callbackGasLimit
    feePreferences := r.feePreferences
    bounty := r.bounty
    timestamp := env.now
    inputData := r.inputData
    expiryBlock := expiryBlock }
  let nextRequestId ← okOr (Word.checkedAdd s.nextRequestId 1) .overflow
  return ({ s with
    requests := s.requests.insert requestId requestInfo
    nextRequestId := nextRequestId
    requestsThisBlock := s.requestsThisBlock + 1
    requestsExpiredAtBlock :=
      s.requestsExpiredAtBlock.insert expiryBlock (s.requestsExpiredAtBlock.getD expiryBlock [] ++ [requestId]) }, requestId)

section
variable [DecidableEq AccountId]

variable (cfg : Config AccountId) (env : Env AccountId) (s : State AccountId)

def submitCallResponse (origin : AccountId) (requestId : RequestId) (returnData : ReturnDataClaim)
    (ethBlockNumber : BitVec 64) (ethBlockTimestamp : Seconds) :
    Except Error (State AccountId) := do
  ensure (cfg.relayerBondAmount.toNat ≤ (s.relayerBonds.getD origin 0).toNat) .notEnoughBonded
  let request ← okOr (s.requests.get? requestId) .noRequest
  ensure (s.responses.contains requestId = false) .responseExists
  let maxResponseDrift := ethBlockTime * s.maxResponseDrift
  ensure ((Word.saturatingSub request.timestamp maxResponseDrift).toNat ≤ ethBlockTimestamp.toNat ∧
    ethBlockTimestamp.toNat ≤ (Word.saturatingAdd request.timestamp maxResponseDrift).toNat) .invalidResponseTimestamp
  let response : CallResponse AccountId := {
    returnData := returnData
    ethBlockNumber := ethBlockNumber
    ethBlockTimestamp := ethBlockTimestamp
    relayer := origin }
  let executeBlock := s.blockNumber + cfg.challengePeriod
  return { s with
    responses := s.responses.insert requestId response
    responsesValidAtBlock :=
      s.responsesValidAtBlock.insert executeBlock (s.responsesValidAtBlock.getD executeBlock [] ++ [requestId])
    -- the request will not expire
    requestsExpiredAtBlock := s.requestsExpiredAtBlock.insert request.expiryBlock
      ((s.requestsExpiredAtBlock.getD request.expiryBlock []).filter (· ≠ requestId)) }

def submitResponseChallenge (origin : AccountId) (requestId : RequestId) : Except Error (State AccountId) := do
  let request ← okOr (s.requests.get? requestId) .noRequest
  ensure (s.responsesChallenged.contains requestId = false) .duplicateChallenge
  ensure (cfg.relayerBondAmount.toNat ≤ (s.challengerBonds.getD origin 0).toNat) .notEnoughBonded
  let response ← okOr (s.responses.get? requestId) .noResponse
  let timeSinceRequest := request.timestamp - env.now
  let lookBehind := if (3 : BitVec 64).toNat ≤ (timeSinceRequest / ethBlockTime).toNat then timeSinceRequest / ethBlockTime else 3
  let challengeSubscriptionId :=
    env.checkedEthCall request.destination request.inputData request.timestamp response.ethBlockNumber lookBehind
  return { s with
    responsesChallenged := s.responsesChallenged.insert requestId origin
    challengeSubscriptions := s.challengeSubscriptions.insert challengeSubscriptionId requestId }

/-! ### Bonds -/

def bondRelayer (origin : AccountId) : Except Error (State AccountId) := do
  ensure (s.relayerBonds.getD origin 0 = 0) .alreadyBonded
  ensure (s.relayerBonds.entries.length < cfg.maxRelayerCount.toNat) .maxRelayersReached
  let relayerBond := cfg.relayerBondAmount
  let assets ←
    (GenericAsset.MultiCurrency.reserve cfg.assets s.assets origin cfg.feeCurrency relayerBond).mapError .currency
  return depositEvent { s with assets := assets, relayerBonds := s.relayerBonds.insert origin relayerBond }
    (.relayerBondSet origin relayerBond)

def unbondRelayer (origin : AccountId) : Except Error (State AccountId) := do
  let bondedAmount := s.relayerBonds.getD origin 0
  ensure (bondedAmount ≠ 0) .notEnoughBonded
  ensure (∀ e ∈ s.responses.entries, e.2.relayer ≠ origin) .cantUnbond
  let (assets, _) := GenericAsset.MultiCurrency.unreserve s.assets origin cfg.feeCurrency bondedAmount
  return depositEvent { s with assets := assets, relayerBonds := s.relayerBonds.remove origin }
    (.relayerBondRemoved origin bondedAmount)

def bondChallenger (origin : AccountId) : Except Error (State AccountId) := do
  ensure (s.challengerBonds.getD origin 0 = 0) .alreadyBonded
  let challengerBond := cfg.relayerBondAmount
  let assets ←
    (GenericAsset.MultiCurrency.reserve cfg.assets s.assets origin cfg.feeCurrency challengerBond).mapError .currency
  return depositEvent { s with assets := assets, challengerBonds := s.challengerBonds.insert origin challengerBond }
    (.challengerBondSet origin challengerBond)

def unbondChallenger (origin : AccountId) : Except Error (State AccountId) := do
  let bondedAmount := s.challengerBonds.getD origin 0
  ensure (bondedAmount ≠ 0) .notEnoughBonded
  ensure (∀ e ∈ s.responsesChallenged.entries, e.2 ≠ origin) .activeChallenger
  let (assets, _) := GenericAsset.MultiCurrency.unreserve s.assets origin cfg.feeCurrency bondedAmount
  return depositEvent { s with assets := assets, challengerBonds := s.challengerBonds.remove origin }
    (.challengerBondRemoved origin bondedAmount)

/-! ### Callbacks -/

def cpayUnitValue : Balance := 100000000000000

/-- Wei as CPAY, with four decimals; part of a unit counts as one. -/
def scaleWeiTo4dp (value : Balance) : Balance :=
  let quotient := value / cpayUnitValue
  if value % cpayUnitValue = 0 then quotient else quotient + 1

def callbackFee (request : CallRequest) : Balance :=
  let maxFeePerGas : BitVec 256 := env.minGasPrice.setWidth 256
  scaleWeiTo4dp (Word.saturatedInto 128 (maxFeePerGas * request.callbackGasLimit.setWidth 256 + 1))

def exchangeFee (assets : GenericAsset.State AccountId) (caller : AccountId) (request : CallRequest)
    (totalFee : Balance) : Except Error (GenericAsset.State AccountId) :=
  match request.feePreferences with
  | none => .ok assets
  | some feePreferences => do
    let exchangeTotal := request.bounty + totalFee
    let maxPayment := Word.saturatingAdd exchangeTotal (cfg.mulPermill feePreferences.slippage exchangeTotal)
    let exchange := { env.exchange with assets := assets }
    let (exchange, _) ←
      (Cennzx.buyFeeAsset cfg.cennzx exchange caller exchangeTotal feePreferences.assetId maxPayment).mapError .exchange
    return exchange.assets

/-- `<callbackSelector>(uint256 requestId, uint256 timestamp, bytes32 returnData)`. -/
def callbackInput (requestId : RequestId) (request : CallRequest) (response : CallResponse AccountId)
    (returnData : BitVec 256) : Bytes :=
  request.callbackSignature ++ BigEndian.encode 32 requestId.toNat ++
    BigEndian.encode 32 response.ethBlockTimestamp.toNat ++ BigEndian.encode 32 returnData.toNat

/-- A request that a contract makes; it reverts if it fails, but not from a panic. -/
def reenter (r : NewRequest) : Except Error (State AccountId) :=
  match newRequest cfg env s r with
  | .ok (s, _) => .ok s
  | .error .overflow => .error .overflow
  | .error _ => .ok s

def executeContract (call : ContractCall) : Except Error (State AccountId × Option Error × Option Weight) := do
  let execution := env.execute s.assets call
  let s ← execution.requests.foldlM (reenter cfg env) { s with assets := execution.assets }
  return (s, execution.error, execution.actualWeight)

/-- Returns the error, if any, and the weight; what was paid before the error stays paid. -/
def tryCallback (requestId : RequestId) (request : CallRequest) (response : CallResponse AccountId) :
    Except Error (State AccountId × Option Error × Option Weight) :=
  match response.returnData with
  | .exceedsLengthLimit => .ok (s, some .returnDataExceedsLimit, none)
  | .ok returnData =>
    let caller := cfg.intoAccountId request.caller
    let precompile := cfg.intoAccountId cfg.stateOraclePrecompileAddress
    let totalFee := callbackFee env request
    match exchangeFee cfg env s.assets caller request totalFee with
    | .error e => .ok (s, some e, none)
    | .ok assets =>
      let s := { s with assets := assets }
      -- payout bounty to the relayer
      match GenericAsset.MultiCurrency.transfer cfg.assets s.assets caller response.relayer cfg.feeCurrency request.bounty with
      | .error _ => .ok (s, some .insufficientFundsBounty, none)
      | .ok assets =>
        let s := { s with assets := assets }
        -- fund the oracle for the gas limit
        match GenericAsset.MultiCurrency.transfer cfg.assets s.assets caller precompile cfg.feeCurrency totalFee with
        | .error _ => .ok (s, some .insufficientFundsGas, none)
        | .ok assets =>
          executeContract cfg env { s with assets := assets }
            { caller := cfg.stateOraclePrecompileAddress
              target := request.caller
              inputData := callbackInput requestId request response returnData
              gasLimit := request.callbackGasLimit
              maxFeePerGas := env.minGasPrice.setWidth 256
              maxPriorityFeePerGas := 1 }

def perCallbackWeight : Weight :=
  cfg.dbWeight.writes 3 + cfg.dbWeight.reads 4 +
    Word.saturatingAdd (Word.saturatingAdd (2 * 203000000) (cfg.dbWeight.reads 8)) (cfg.dbWeight.writes 5)

def idleWeight : Weight := cfg.dbWeight.reads 2 + cfg.dbWeight.writes 1

/-! ### Hooks -/

def onInitialize (now : BlockNumber) : State AccountId :=
  let expired := s.requestsExpiredAtBlock.getD now []
  { s with
    requestsThisBlock := 0
    responsesForCallback := s.responsesForCallback ++ s.responsesValidAtBlock.getD now []
    responsesValidAtBlock := s.responsesValidAtBlock.remove now
    requests := s.requests.removeAll expired
    requestsExpiredAtBlock := s.requestsExpiredAtBlock.remove now
    events := s.events ++ expired.map (.callbackErr · .requestExpired) }

def callbackEvent (requestId : RequestId) (error : Option Error) (weight : Weight) : Event AccountId :=
  match error with
  | none => .callback requestId weight
  | some e => .callbackErr requestId e

/-- Runs callbacks until the weight is used up; counts them. Challenged responses are passed over. -/
def runCallbacks (cfg : Config AccountId) (env : Env AccountId) (remainingWeight : Weight) :
    State AccountId → Weight → Nat → List RequestId → Except Error (State AccountId × Weight × Nat)
  | s, consumedWeight, processedCallbacks, [] => .ok (s, consumedWeight, processedCallbacks)
  | s, consumedWeight, processedCallbacks, requestId :: rest =>
    if s.responsesChallenged.contains requestId then
      runCallbacks cfg env remainingWeight s consumedWeight processedCallbacks rest
    else do
      let request ← okOr (s.requests.get? requestId) .unwrapNone
      let limit := cfg.gasToWeight request.callbackGasLimit
      if remainingWeight.toNat <
          (Word.saturatingAdd (Word.saturatingAdd consumedWeight (perCallbackWeight cfg)) limit).toNat then
        .ok (s, consumedWeight, processedCallbacks)
      else do
        let response ← okOr (s.responses.get? requestId) .unwrapNone
        let (s, error, actualWeight) ← tryCallback cfg env
          { s with
            requests := s.requests.remove requestId
            responses := s.responses.remove requestId
            callbacks := s.callbacks ++ [requestId] } requestId request response
        let callbackWeight := actualWeight.getD 0
        runCallbacks cfg env remainingWeight (depositEvent s (callbackEvent requestId error callbackWeight))
          (Word.saturatingAdd (Word.saturatingAdd consumedWeight (perCallbackWeight cfg)) callbackWeight)
          (processedCallbacks + 1) rest

def onIdle (remainingWeight : Weight) : Except Error (State AccountId × Weight) :=
  if s.responsesForCallback.isEmpty then .ok (s, cfg.dbWeight.reads 1)
  else do
    let callbacks := s.responsesForCallback
    let (s, consumedWeight, processedCallbacks) ← runCallbacks cfg env remainingWeight s (idleWeight cfg) 0 callbacks
    return ({ s with responsesForCallback := callbacks.drop processedCallbacks }, consumedWeight)

/-! ### Steps -/

inductive Call (AccountId : Type) where
  | newRequest (request : NewRequest)
  | bondRelayer (origin : AccountId)
  | unbondRelayer (origin : AccountId)
  | setMaxResponseDrift (n : BitVec 64)
  | submitCallResponse (origin : AccountId) (requestId : RequestId) (returnData : ReturnDataClaim)
      (ethBlockNumber : BitVec 64) (ethBlockTimestamp : Seconds)
  | bondChallenger (origin : AccountId)
  | unbondChallenger (origin : AccountId)
  | submitResponseChallenge (origin : AccountId) (requestId : RequestId)
  | onInitialize (now : BlockNumber)
  | onIdle (remainingWeight : Weight)

structure Op (AccountId : Type) where
  env : Env AccountId
  call : Call AccountId

def dispatch : Call AccountId → Except Error (State AccountId)
  | .newRequest request => Prod.fst <$> newRequest cfg env s request
  | .bondRelayer origin => bondRelayer cfg s origin
  | .unbondRelayer origin => unbondRelayer cfg s origin
  | .setMaxResponseDrift n => .ok { s with maxResponseDrift := n }
  | .submitCallResponse origin requestId returnData ethBlockNumber ethBlockTimestamp =>
    submitCallResponse cfg s origin requestId returnData ethBlockNumber ethBlockTimestamp
  | .bondChallenger origin => bondChallenger cfg s origin
  | .unbondChallenger origin => unbondChallenger cfg s origin
  | .submitResponseChallenge origin requestId => submitResponseChallenge cfg env s origin requestId
  | .onInitialize now => .ok (onInitialize { s with blockNumber := now } now)
  | .onIdle remainingWeight => Prod.fst <$> onIdle cfg env s remainingWeight

/-- A call that fails changes nothing: every check precedes the first write, and a panic discards the block. -/
def step (op : Op AccountId) : State AccountId :=
  Result.getD (dispatch cfg op.env s op.call) s

end

end EthStateOracle
