import Cennznet.EthBridge
import Cennznet.Lib.BigEndian

/-! # The off-chain worker

The part of `crml/eth-bridge` with which a notary's off-chain worker checks claimed events and Ethereum calls. The
Ethereum client answers each request as it likes. The worker only reads the chain: what it does is the list of
notarizations that it sends. -/

namespace EthBridge

structure EventClaim where
  txHash : EthHash
  data : Bytes
  contractAddress : EthAddress
  eventSignature : EthHash
deriving DecidableEq, Repr

structure Log where
  address : EthAddress
  topics : List EthHash
  data : Bytes
  transactionHash : Option EthHash
deriving DecidableEq, Repr

structure TransactionReceipt where
  blockNumber : BitVec 64
  logs : List Log
  status : Option (BitVec 64)
  receiver : Option EthAddress
deriving DecidableEq, Repr

structure EthBlock where
  number : Option (BitVec 64)
  timestamp : BitVec 256
deriving DecidableEq, Repr

inductive LatestOrNumber where
  | latest
  | number (n : BitVec 64)
deriving DecidableEq, Repr

inductive BridgeRpcError where
  | httpFetch
  | invalidJson
  | ocwConfig
deriving DecidableEq, Repr

/-- `BridgeEthereumRpcApi`: what the Ethereum client answers. -/
structure EthereumRpcClient where
  getBlockByNumber : LatestOrNumber → Except BridgeRpcError (Option EthBlock)
  getTransactionReceipt : EthHash → Except BridgeRpcError (Option TransactionReceipt)

def matchingLog (claim : EventClaim) (receipt : TransactionReceipt) : Option Log :=
  receipt.logs.find? fun log => log.transactionHash = some claim.txHash && log.topics.contains claim.eventSignature

variable {EthyId AccountId : Type}

def checkAge (client : EthereumRpcClient) (now : Seconds) (s : State EthyId AccountId) (receipt : TransactionReceipt) :
    EventClaimResult :=
  let observedBlockNumber := receipt.blockNumber
  match client.getBlockByNumber .latest with
  | .error _ => .dataProviderErr
  | .ok none => .dataProviderErr
  | .ok (some latestBlock) =>
    let latestBlockNumber := latestBlock.number.getD 0
    let blockConfirmations := Word.saturatingSub latestBlockNumber observedBlockNumber
    if blockConfirmations.toNat < s.eventConfirmations.toNat then .notEnoughConfirmations
    else if s.eventDeadlineSeconds.toNat < (blockConfirmations * 14).toNat then .expired
    else
      match client.getBlockByNumber (.number observedBlockNumber) with
      | .error _ => .dataProviderErr
      | .ok none => .dataProviderErr
      | .ok (some observedBlock) =>
        if s.eventDeadlineSeconds.toNat < (Word.saturatingSub now (Word.saturatedInto 64 observedBlock.timestamp)).toNat then
          .expired
        else .valid

def offchainTryNotarizeEvent (client : EthereumRpcClient) (now : Seconds) (s : State EthyId AccountId)
    (claim : EventClaim) : EventClaimResult :=
  match client.getTransactionReceipt claim.txHash with
  | .error _ => .dataProviderErr
  | .ok none => .noTxLogs
  | .ok (some receipt) =>
    if receipt.status.getD 0 = 0 then .txStatusFailed
    else if receipt.receiver ≠ some claim.contractAddress then .unexpectedContractAddress
    else
      match matchingLog claim receipt with
      | none => .noTxLogs
      | some log =>
        if log.data ≠ claim.data then .unexpectedData
        else if log.address ≠ claim.contractAddress then .unexpectedContractAddress
        else checkAge client now s receipt

/-! ### Checked Ethereum calls -/

structure EthCallClient extends EthereumRpcClient where
  ethCall : EthAddress → Bytes → LatestOrNumber → Except BridgeRpcError Bytes

def latestBlockNumber (block : EthBlock) : Option (BitVec 64) :=
  match block.number with
  | none => none
  | some number => if number = 0 ∨ number = BitVec.allOnes 64 then none else some number

/-- The oldest block for the call: a check 12 seconds late or more allows for older blocks. -/
def oldestAcceptableEthBlock (now : Seconds) (request : CheckedEthCallRequest) (latest : BitVec 64) : BitVec 64 :=
  let checkDelay := Word.saturatingSub now request.checkTimestamp
  let extraLookBehind := checkDelay / 12
  Word.saturatingSub (Word.saturatingSub latest request.maxBlockLookBehind) extraLookBehind

def callAt (client : EthCallClient) (request : CheckedEthCallRequest) (blockNumber blockTimestamp : BitVec 64) :
    CheckedEthCallResult :=
  match client.ethCall request.target request.input (.number blockNumber) with
  | .error _ => .dataProviderErr
  | .ok data =>
    if data.isEmpty then .returnDataEmpty
    -- valid returndata is of one word
    else if data.length = 32 then .ok (BitVec.ofNat 256 (BigEndian.decode data)) blockNumber blockTimestamp
    else .returnDataExceedsLimit

def offchainTryEthCall (client : EthCallClient) (now : Seconds) (request : CheckedEthCallRequest) : CheckedEthCallResult :=
  match client.getBlockByNumber .latest with
  | .error _ => .dataProviderErr
  | .ok none => .dataProviderErr
  | .ok (some latestBlock) =>
    let latestTimestamp : BitVec 64 := Word.saturatedInto 64 latestBlock.timestamp
    if latestTimestamp = BitVec.allOnes 64 then .invalidTimestamp
    -- latest ethereum block timestamp should be after the request
    else if latestTimestamp.toNat < request.timestamp.toNat then .invalidTimestamp
    else
      match latestBlockNumber latestBlock with
      | none => .invalidEthBlock
      | some latest =>
        if (oldestAcceptableEthBlock now request latest).toNat ≤ request.tryBlockNumber.toNat ∧
            request.tryBlockNumber.toNat < latest.toNat then
          match client.getBlockByNumber (.number request.tryBlockNumber) with
          | .error _ => .dataProviderErr
          | .ok none => .dataProviderErr
          | .ok (some targetBlock) =>
            callAt client request request.tryBlockNumber (Word.saturatedInto 64 targetBlock.timestamp)
        else callAt client request latest latestTimestamp

/-! ### What the worker sends in a block -/

def claimsPerBlock : Nat := 1
def callsPerBlock : Nat := 1

variable [DecidableEq EthyId]

def notarizeClaim (client : EthereumRpcClient) (now : Seconds) (s : State EthyId AccountId) (activeKey : EthyId)
    (authorityIndex : BitVec 16) (claim : EventClaimId × EthHash × EventTypeId) : Option NotarizationPayload :=
  -- skip if we've notarized it previously
  if s.eventNotarizations.contains (claim.1, activeKey) then none
  else
    match s.eventData.get? claim.1 with
    | none => none
    | some eventData =>
      let eventType := s.typeIdToEventType.getD claim.2.2 (0, 0)
      let eventClaim : EventClaim :=
        { txHash := claim.2.1, data := eventData, contractAddress := eventType.1, eventSignature := eventType.2 }
      some (.event claim.1 authorityIndex (offchainTryNotarizeEvent client now s eventClaim))

/-- Handle OCW event notarization protocol for validators. Claims are iterated in the order of their hashed keys. -/
def doEventNotarizationOcw (client : EthereumRpcClient) (now : Seconds) (claimOrder : EventClaimId → EventClaimId → Bool)
    (s : State EthyId AccountId) (activeKey : EthyId) (authorityIndex : BitVec 16) : List NotarizationPayload :=
  -- do not try to notarize events while the bridge is paused
  if s.bridgePaused then []
  else
    ((s.eventClaims.iterBy claimOrder).take claimsPerBlock).filterMap
      (notarizeClaim client now s activeKey authorityIndex)

def notarizeCall (client : EthCallClient) (now : Seconds) (s : State EthyId AccountId) (activeKey : EthyId)
    (authorityIndex : BitVec 16) (callId : EthCallId) : Option NotarizationPayload :=
  -- skip if we've notarized it previously
  if s.ethCallNotarizations.contains (callId, activeKey) then none
  else
    match s.ethCallRequestInfo.get? callId with
    | none => none
    | some request => some (.call callId authorityIndex (offchainTryEthCall client now request))

def doCallNotarizationOcw (client : EthCallClient) (now : Seconds) (s : State EthyId AccountId) (activeKey : EthyId)
    (authorityIndex : BitVec 16) : List NotarizationPayload :=
  (s.ethCallRequests.take callsPerBlock).filterMap (notarizeCall client now s activeKey authorityIndex)

end EthBridge
