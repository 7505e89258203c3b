import Cennznet.Lib.Percent
import Cennznet.Lib.Storage
import Cennznet.Lib.Word

/-! # The Ethereum bridge

`crml/eth-bridge`, the part that runs on chain. What the pallet asks of others is a parameter (`Config`, and `Env` at
each step), and what it tells them is recorded in the state. The subscribers do not write to the bridge. Events are
left out. A panic discards its transaction, so it is an error like any other. -/

namespace EthBridge

abbrev EthCallId := BitVec 64
abbrev EventClaimId := BitVec 64
abbrev EventTypeId := BitVec 32
abbrev EventProofId := BitVec 64
abbrev EthAddress := BitVec 160
abbrev EthHash := BitVec 256
abbrev Bytes := List (BitVec 8)

abbrev Seconds := BitVec 64

def bucketFactorS : Seconds := 3600

def claimPruningInterval : BitVec 32 := 720

inductive Error where
  | invalidNotarization
  | invalidClaim
  | alreadyNotarized
  | duplicateClaim
  /-- A panic: the remainder of a division by zero. -/
  | divisionByZero
deriving DecidableEq, Repr

/-! ### Types -/

inductive EventClaimResult where
  | valid
  | dataProviderErr
  | txStatusFailed
  | unexpectedContractAddress
  | noTxLogs
  | notEnoughConfirmations
  | unexpectedData
  | expired
deriving DecidableEq, Repr

inductive CheckedEthCallResult where
  | ok (returnData : BitVec 256) (block timestamp : BitVec 64)
  | returnDataExceedsLimit
  | returnDataEmpty
  | dataProviderErr
  | invalidEthBlock
  | invalidTimestamp
deriving DecidableEq, Repr

namespace CheckedEthCallResult

def variant : CheckedEthCallResult → Nat
  | .ok _ _ _ => 0
  | .returnDataExceedsLimit => 1
  | .returnDataEmpty => 2
  | .dataProviderErr => 3
  | .invalidEthBlock => 4
  | .invalidTimestamp => 5

/-- The derived order: by variant, then field by field. -/
def lt : CheckedEthCallResult → CheckedEthCallResult → Bool
  | .ok d b t, .ok d' b' t' =>
    d.toNat < d'.toNat || (d = d' && (b.toNat < b'.toNat || (b = b' && t.toNat < t'.toNat)))
  | r, r' => r.variant < r'.variant

end CheckedEthCallResult

inductive EthCallFailure where
  | returnDataExceedsLimit
  | returnDataEmpty
  | internal
deriving DecidableEq, Repr

structure CheckedEthCallRequest where
  input : Bytes
  target : EthAddress
  timestamp : Seconds
  maxBlockLookBehind : BitVec 64
  tryBlockNumber : BitVec 64
  checkTimestamp : Seconds
deriving DecidableEq, Repr

inductive NotarizationPayload where
  | call (callId : EthCallId) (authorityIndex : BitVec 16) (result : CheckedEthCallResult)
  | event (eventClaimId : EventClaimId) (authorityIndex : BitVec 16) (result : EventClaimResult)
deriving DecidableEq, Repr

namespace NotarizationPayload

def typeId : NotarizationPayload → BitVec 64
  | .call _ _ _ => 0
  | .event _ _ _ => 1

def authorityIndex : NotarizationPayload → BitVec 16
  | .call _ authorityIndex _ => authorityIndex
  | .event _ authorityIndex _ => authorityIndex

def payloadId : NotarizationPayload → BitVec 64
  | .call callId _ _ => callId
  | .event eventClaimId _ _ => eventClaimId

end NotarizationPayload

inductive SubscriberCall where
  | onSuccess (eventClaimId : EventClaimId) (contractAddress : EthAddress) (eventSignature : EthHash) (data : Bytes)
  | onFailure (eventClaimId : EventClaimId) (contractAddress : EthAddress) (eventSignature : EthHash) (data : Bytes)
  | onEthCallComplete (callId : EthCallId) (returnData : BitVec 256) (block timestamp : BitVec 64)
  | onEthCallFailed (callId : EthCallId) (reason : EthCallFailure)
deriving DecidableEq, Repr

structure ValidatorSet (EthyId : Type) where
  validators : List EthyId
  id : BitVec 64
deriving DecidableEq

inductive ConsensusLog (EthyId : Type) where
  | opaqueSigningRequest (message : Bytes) (eventProofId : EventProofId)
  | pendingAuthoritiesChange (set : ValidatorSet EthyId) (eventProofId : EventProofId)
deriving DecidableEq

structure Config where
  notarizationThreshold : Percent
  fromRational : Nat → Nat → Percent
  /-- The order in which delayed proofs are iterated. -/
  proofOrder : EventProofId → EventProofId → Bool

/-- The configuration of the runtime: a threshold of 66 percent, shares rounded down. -/
def runtimeConfig : Config where
  notarizationThreshold := 66
  fromRational := Percent.ofRatio
  proofOrder a b := a.toNat ≤ b.toNat

structure Env (AccountId : Type) where
  now : Seconds
  validators : List AccountId
  isNextSessionFinal : Bool := false
  isActiveSessionFinal : Bool := false

structure State (EthyId AccountId : Type) where
  eventClaims : StorageMap EventClaimId (EthHash × EventTypeId)
  eventData : StorageMap EventClaimId Bytes
  delayedEventProofs : StorageMap EventProofId Bytes
  eventNotarizations : StorageMap (EventClaimId × EthyId) EventClaimResult
  eventTypeToTypeId : StorageMap (EthAddress × EthHash) EventTypeId
  typeIdToEventType : StorageMap EventTypeId (EthAddress × EthHash)
  nextEventClaimId : EventClaimId
  nextEventTypeId : EventTypeId
  nextProofId : EventProofId
  notaryKeys : List EthyId
  nextNotaryKeys : List EthyId
  processedTxBuckets : StorageMap (BitVec 64 × EthHash) Unit
  processedTxHashes : StorageMap EthHash Unit
  pendingTxHashes : StorageMap EthHash EventClaimId
  notarySetId : BitVec 64
  notarySetProofId : EventProofId
  bridgePaused : Bool
  eventConfirmations : BitVec 64
  delayedEventProofsPerBlock : BitVec 8
  eventDeadlineSeconds : Seconds
  nextEthCallId : EthCallId
  ethCallRequests : List EthCallId
  ethCallNotarizations : StorageMap (EthCallId × EthyId) CheckedEthCallResult
  /-- For each call the counts of its results, sorted as in a `BTreeMap`. -/
  ethCallNotarizationsAggregated : StorageMap EthCallId (List (CheckedEthCallResult × BitVec 32))
  ethCallRequestInfo : StorageMap EthCallId CheckedEthCallRequest
  subscriberCalls : List SubscriberCall
  rewards : List AccountId
  digest : List (ConsensusLog EthyId)

variable {EthyId AccountId : Type}

/-- The bridge at genesis, with its first notaries and a deadline of one week by default. -/
def State.genesis (notaryKeys : List EthyId) (eventDeadlineSeconds : Seconds := 604800) : State EthyId AccountId where
  eventClaims := ∅
  eventData := ∅
  delayedEventProofs := ∅
  eventNotarizations := ∅
  eventTypeToTypeId := ∅
  typeIdToEventType := ∅
  nextEventClaimId := 0
  nextEventTypeId := 0
  nextProofId := 0
  notaryKeys := notaryKeys
  nextNotaryKeys := []
  processedTxBuckets := ∅
  processedTxHashes := ∅
  pendingTxHashes := ∅
  notarySetId := 0
  notarySetProofId := 0
  bridgePaused := false
  eventConfirmations := 3
  delayedEventProofsPerBlock := 5
  eventDeadlineSeconds := eventDeadlineSeconds
  nextEthCallId := 0
  ethCallRequests := []
  ethCallNotarizations := ∅
  ethCallNotarizationsAggregated := ∅
  ethCallRequestInfo := ∅
  subscriberCalls := []
  rewards := []
  digest := []

/-! ### Proof requests -/

def abiEncode (n : BitVec 64) : Bytes :=
  (List.range 32).map fun i => ((n.setWidth 256) >>> (8 * (31 - i))).setWidth 8

section
variable (cfg : Config) (env : Env AccountId) (s : State EthyId AccountId)

def doGenerateEventProof (eventProofId : EventProofId) (packedEventWithId : Bytes) : State EthyId AccountId :=
  { s with digest := s.digest ++ [.opaqueSigningRequest packedEventWithId eventProofId] }

def generateEventProof (event : Bytes) : State EthyId AccountId × EventProofId :=
  let eventProofId := s.nextProofId
  let s := { s with nextProofId := eventProofId + 1 }
  let packedEventWithId := event ++ abiEncode s.notarySetId ++ abiEncode eventProofId
  if s.bridgePaused then
    ({ s with delayedEventProofs := s.delayedEventProofs.insert eventProofId packedEventWithId }, eventProofId)
  else (doGenerateEventProof s eventProofId packedEventWithId, eventProofId)

def sendDelayedProof (proof : EventProofId × Bytes) : State EthyId AccountId :=
  let s := doGenerateEventProof s proof.1 proof.2
  { s with delayedEventProofs := s.delayedEventProofs.remove proof.1 }

def processDelayedProofs : State EthyId AccountId :=
  if s.bridgePaused then s
  else
    ((s.delayedEventProofs.iterBy cfg.proofOrder).take s.delayedEventProofsPerBlock.toNat).foldl sendDelayedProof s

/-! ### Processed transactions -/

/-- The bucket that `on_initialize` expires; none for a deadline of zero. -/
def expiredBucketIndex (deadline now : Seconds) : Option (BitVec 64) :=
  if deadline = 0 then none else some (now % deadline / bucketFactorS)

/-- The bucket of a transaction verified at `now`. -/
def verifiedBucketIndex (deadline now : Seconds) : Option (BitVec 64) :=
  if deadline = 0 then none else some ((now + deadline) % deadline / bucketFactorS)

def pruneBucket (bucket : BitVec 64) : State EthyId AccountId :=
  { s with
    processedTxHashes := s.processedTxHashes.removeAll ((s.processedTxBuckets.iterPrefix bucket).map Prod.fst)
    processedTxBuckets := s.processedTxBuckets.removePrefix bucket }

def onInitialize (blockNumber : BitVec 32) : Except Error (State EthyId AccountId) :=
  if blockNumber % claimPruningInterval = 0 then
    match expiredBucketIndex s.eventDeadlineSeconds env.now with
    | none => .error .divisionByZero
    | some bucket => .ok (processDelayedProofs cfg (pruneBucket s bucket))
  else .ok (processDelayedProofs cfg s)

/-! ### Event claims -/

def eventTypeIdFor (contractAddress : EthAddress) (eventSignature : EthHash) : State EthyId AccountId × EventTypeId :=
  match s.eventTypeToTypeId.get? (contractAddress, eventSignature) with
  | some eventTypeId => (s, eventTypeId)
  | none =>
    let nextEventTypeId := s.nextEventTypeId
    ({ s with
        eventTypeToTypeId := s.eventTypeToTypeId.insert (contractAddress, eventSignature) nextEventTypeId
        typeIdToEventType := s.typeIdToEventType.insert nextEventTypeId (contractAddress, eventSignature)
        nextEventTypeId := nextEventTypeId + 1 }, nextEventTypeId)

def submitEventClaim (contractAddress : EthAddress) (eventSignature txHash : EthHash) (eventData : Bytes) :
    Except Error (State EthyId AccountId × EventClaimId) :=
  if s.processedTxHashes.contains txHash then .error .alreadyNotarized
  else if s.pendingTxHashes.contains txHash then .error .duplicateClaim
  else
    let (s, eventTypeId) := eventTypeIdFor s contractAddress eventSignature
    let eventClaimId := s.nextEventClaimId
    .ok ({ s with
            eventData := s.eventData.insert eventClaimId eventData
            eventClaims := s.eventClaims.insert eventClaimId (txHash, eventTypeId)
            nextEventClaimId := eventClaimId + 1
            pendingTxHashes := s.pendingTxHashes.insert txHash eventClaimId }, eventClaimId)

end

section
variable [DecidableEq EthyId]

variable (cfg : Config) (env : Env AccountId) (s : State EthyId AccountId)

def yayCount (eventClaimId : EventClaimId) : BitVec 32 :=
  BitVec.ofNat 32 ((s.eventNotarizations.iterPrefix eventClaimId).countP fun vote => vote.2 = .valid)

def nayCount (eventClaimId : EventClaimId) : BitVec 32 :=
  BitVec.ofNat 32 ((s.eventNotarizations.iterPrefix eventClaimId).countP fun vote => vote.2 ≠ .valid)

def rejects (nayCount notaryCount : BitVec 32) : Bool :=
  100 - cfg.notarizationThreshold.val < (cfg.fromRational nayCount.toNat notaryCount.toNat).val

def accepts (yayCount notaryCount : BitVec 32) : Bool :=
  cfg.notarizationThreshold ≤ cfg.fromRational yayCount.toNat notaryCount.toNat

def clearClaim (eventClaimId : EventClaimId) (txHash : EthHash) : State EthyId AccountId :=
  { s with
    eventData := s.eventData.remove eventClaimId
    eventNotarizations := s.eventNotarizations.removePrefix eventClaimId
    eventClaims := s.eventClaims.remove eventClaimId
    pendingTxHashes := s.pendingTxHashes.remove txHash }

def decideClaim (eventClaimId : EventClaimId) (txHash : EthHash) (eventTypeId : EventTypeId) :
    Except Error (State EthyId AccountId) :=
  let notaryCount := BitVec.ofNat 32 env.validators.length
  let eventType := s.typeIdToEventType.getD eventTypeId (0, 0)
  if rejects cfg (nayCount s eventClaimId) notaryCount then
    match s.eventData.get? eventClaimId with
    | none => .error .invalidClaim
    | some eventData =>
      let s := clearClaim s eventClaimId txHash
      .ok { s with
        subscriberCalls := s.subscriberCalls ++ [.onFailure eventClaimId eventType.1 eventType.2 eventData] }
  else if accepts cfg (yayCount s eventClaimId) notaryCount then
    match s.eventData.get? eventClaimId, verifiedBucketIndex s.eventDeadlineSeconds env.now with
    | none, _ => .error .invalidClaim
    | some _, none => .error .divisionByZero
    | some eventData, some bucketIndex =>
      let s := clearClaim s eventClaimId txHash
      .ok { s with
        processedTxBuckets := s.processedTxBuckets.insert (bucketIndex, txHash) ()
        processedTxHashes := s.processedTxHashes.insert txHash ()
        subscriberCalls := s.subscriberCalls ++ [.onSuccess eventClaimId eventType.1 eventType.2 eventData] }
  else .ok s

def handleEventNotarization (eventClaimId : EventClaimId) (result : EventClaimResult) (notaryId : EthyId) :
    Except Error (State EthyId AccountId) :=
  match s.eventClaims.get? eventClaimId with
  | none => .error .invalidClaim
  | some (txHash, eventTypeId) =>
    let s := { s with eventNotarizations := s.eventNotarizations.insert (eventClaimId, notaryId) result }
    decideClaim cfg env s eventClaimId txHash eventTypeId

/-! ### Checked Ethereum calls -/

def increment (result : CheckedEthCallResult) :
    List (CheckedEthCallResult × BitVec 32) → List (CheckedEthCallResult × BitVec 32)
  | [] => [(result, 1)]
  | (r, count) :: rest =>
    if result = r then (r, count + 1) :: rest
    else if result.lt r then (result, 1) :: (r, count) :: rest
    else (r, count) :: increment result rest

def callback (callId : EthCallId) : CheckedEthCallResult → SubscriberCall
  | .ok returnData block timestamp => .onEthCallComplete callId returnData block timestamp
  | .returnDataEmpty => .onEthCallFailed callId .returnDataEmpty
  | .returnDataExceedsLimit => .onEthCallFailed callId .returnDataExceedsLimit
  | _ => .onEthCallFailed callId .internal

def doCallbackAndCleanUp (callId : EthCallId) (result : CheckedEthCallResult) : State EthyId AccountId :=
  { s with
    subscriberCalls := s.subscriberCalls ++ [callback callId result]
    ethCallNotarizations := s.ethCallNotarizations.removePrefix callId
    ethCallNotarizationsAggregated := s.ethCallNotarizationsAggregated.remove callId
    ethCallRequestInfo := s.ethCallRequestInfo.remove callId
    ethCallRequests := s.ethCallRequests.erase callId }

def consensus (count notaryCount : BitVec 32) : Bool :=
  cfg.notarizationThreshold ≤ cfg.fromRational count.toNat notaryCount.toNat

/-- All notaries have voted, or no result can reach the threshold any more. -/
def cannotAgree (notarizations : List (CheckedEthCallResult × BitVec 32)) (notaryCount : BitVec 32) : Bool :=
  let totalCount := (notarizations.map Prod.snd).foldl (· + ·) 0
  let outstandingCount := Word.saturatingSub notaryCount totalCount
  totalCount = notaryCount || !notarizations.any fun n => consensus cfg (n.2 + outstandingCount) notaryCount

def handleCallNotarization (callId : EthCallId) (result : CheckedEthCallResult) (notaryId : EthyId) :
    Except Error (State EthyId AccountId) :=
  if ¬s.ethCallRequestInfo.contains callId then .error .invalidClaim
  else
    let s := { s with ethCallNotarizations := s.ethCallNotarizations.insert (callId, notaryId) result }
    let notarizations := increment result (s.ethCallNotarizationsAggregated.getD callId [])
    let notaryCount := BitVec.ofNat 32 env.validators.length
    match notarizations.find? fun n => consensus cfg n.2 notaryCount with
    | some (agreed, _) => .ok (doCallbackAndCleanUp s callId agreed)
    | none =>
      if cannotAgree cfg notarizations notaryCount then .ok (doCallbackAndCleanUp s callId result)
      else
        .ok { s with
          ethCallNotarizationsAggregated := s.ethCallNotarizationsAggregated.insert callId notarizations }

def checkedEthCall (target : EthAddress) (input : Bytes) (timestamp : Seconds)
    (tryBlockNumber maxBlockLookBehind : BitVec 64) : State EthyId AccountId × EthCallId :=
  let callId := s.nextEthCallId
  ({ s with
      ethCallRequestInfo := s.ethCallRequestInfo.insert callId
        { input, target, timestamp, maxBlockLookBehind, tryBlockNumber, checkTimestamp := env.now }
      ethCallRequests := s.ethCallRequests ++ [callId]
      nextEthCallId := callId + 1 }, callId)

/-! ### Notarizations -/

def handleNotarization (payload : NotarizationPayload) (notaryPublicKey : EthyId) :
    Except Error (State EthyId AccountId) :=
  match payload with
  | .call callId _ result => handleCallNotarization cfg env s callId result notaryPublicKey
  | .event eventClaimId _ result => handleEventNotarization cfg env s eventClaimId result notaryPublicKey

def submitNotarization (payload : NotarizationPayload) : Except Error (State EthyId AccountId) :=
  match s.notaryKeys[payload.authorityIndex.toNat]? with
  | none => .error .invalidNotarization
  | some notaryPublicKey =>
    match handleNotarization cfg env s payload notaryPublicKey with
    | .error e => .error e
    | .ok s => .ok { s with rewards := s.rewards ++ env.validators[payload.authorityIndex.toNat]?.toList }

/-! ### Sessions -/

def logNotaryChange (nextKeys : List EthyId) : State EthyId AccountId :=
  let eventProofId := s.nextProofId
  let nextValidatorSetId := s.notarySetId + 1
  { s with
    nextNotaryKeys := nextKeys
    notarySetProofId := eventProofId
    nextProofId := eventProofId + 1
    digest := s.digest ++ [.pendingAuthoritiesChange ⟨nextKeys, nextValidatorSetId⟩ eventProofId] }

def handleAuthoritiesChange (new queued : List EthyId) : State EthyId AccountId :=
  if env.isNextSessionFinal then logNotaryChange s queued
  else if env.isActiveSessionFinal then
    let s := { s with bridgePaused := true }
    -- The era was forced: no keys have been announced yet.
    if s.nextNotaryKeys.isEmpty then logNotaryChange s new else s
  else s

def onNewSession (validators queued : List EthyId) : State EthyId AccountId :=
  if env.isNextSessionFinal || env.isActiveSessionFinal then handleAuthoritiesChange env s validators queued else s

def onBeforeSessionEnding : State EthyId AccountId :=
  if env.isActiveSessionFinal then
    { s with
      bridgePaused := false
      notaryKeys := s.nextNotaryKeys
      nextNotaryKeys := []
      notarySetId := s.notarySetId + 1 }
  else s

/-! ### Steps -/

inductive Call (EthyId : Type) where
  | onInitialize (blockNumber : BitVec 32)
  | setEventConfirmations (confirmations : BitVec 64)
  | setEventDeadline (seconds : Seconds)
  | setDelayedEventProofsPerBlock (count : BitVec 8)
  | submitNotarization (payload : NotarizationPayload)
  | submitEventClaim (contractAddress : EthAddress) (eventSignature txHash : EthHash) (eventData : Bytes)
  | generateEventProof (event : Bytes)
  | checkedEthCall (target : EthAddress) (input : Bytes) (timestamp : Seconds)
      (tryBlockNumber maxBlockLookBehind : BitVec 64)
  | onNewSession (validators queued : List EthyId)
  | onBeforeSessionEnding

structure Op (EthyId AccountId : Type) where
  env : Env AccountId
  call : Call EthyId

def dispatch : Call EthyId → Except Error (State EthyId AccountId)
  | .onInitialize blockNumber => onInitialize cfg env s blockNumber
  | .setEventConfirmations confirmations => .ok { s with eventConfirmations := confirmations }
  | .setEventDeadline seconds => .ok { s with eventDeadlineSeconds := seconds }
  | .setDelayedEventProofsPerBlock count => .ok { s with delayedEventProofsPerBlock := count }
  | .submitNotarization payload => submitNotarization cfg env s payload
  | .submitEventClaim contractAddress eventSignature txHash eventData =>
    (submitEventClaim s contractAddress eventSignature txHash eventData).map Prod.fst
  | .generateEventProof event => .ok (generateEventProof s event).1
  | .checkedEthCall target input timestamp tryBlockNumber maxBlockLookBehind =>
    .ok (checkedEthCall env s target input timestamp tryBlockNumber maxBlockLookBehind).1
  | .onNewSession validators queued => .ok (onNewSession env s validators queued)
  | .onBeforeSessionEnding => .ok (onBeforeSessionEnding env s)

/-- A call that fails changes nothing: `submit_notarization` is transactional, the others check before they write. -/
def step (op : Op EthyId AccountId) : State EthyId AccountId :=
  match dispatch cfg op.env s op.call with
  | .ok s => s
  | .error _ => s

/-! ### Unsigned transactions -/

inductive InvalidTransaction where
  /-- Not a call that may go unsigned. -/
  | call
  | badProof
deriving DecidableEq, Repr

/-- What a transaction provides to others in the pool, each at most once. -/
structure Tag where
  tagPrefix : String
  name : String
  typeId : BitVec 64
  payloadId : BitVec 64
  authorityIndex : BitVec 64
deriving DecidableEq, Repr

structure ValidTransaction where
  priority : BitVec 64
  provides : List Tag
  longevity : BitVec 64
  propagate : Bool
deriving DecidableEq, Repr

def unsignedTxsPriority : BitVec 64 := 100

/-- Whether pool and block accept an unsigned transaction. `verify` checks a signature of the encoded payload. -/
def validateUnsigned {Signature : Type} (verify : EthyId → NotarizationPayload → Signature → Bool)
    (s : State EthyId AccountId) (call : Call EthyId) (signature : Signature) :
    Except InvalidTransaction ValidTransaction :=
  match call with
  | .submitNotarization payload =>
    -- notarization must be from an active notary
    match s.notaryKeys[payload.authorityIndex.toNat]? with
    | none => .error .badProof
    | some notaryPublicKey =>
      -- notarization must not be a duplicate/equivocation
      if s.eventNotarizations.contains (payload.payloadId, notaryPublicKey) then .error .badProof
      -- notarization is signed correctly
      else if ¬verify notaryPublicKey payload signature then .error .badProof
      else .ok {
        priority := unsignedTxsPriority
        provides := [{
          tagPrefix := "eth-bridge"
          name := "notarize"
          typeId := payload.typeId
          payloadId := payload.payloadId
          authorityIndex := payload.authorityIndex.setWidth 64 }]
        longevity := 3
        propagate := true }
  | _ => .error .call

/-- What is asked of the bridge from outside: an unsigned transaction with its signature, or anything else. -/
inductive Extrinsic (EthyId AccountId Signature : Type) where
  | unsigned (env : Env AccountId) (payload : NotarizationPayload) (signature : Signature)
  | other (op : Op EthyId AccountId)

/-- An unsigned transaction is executed if valid. A notarization is made in no other way: its origin must be none. -/
def applyExtrinsic {Signature : Type} (cfg : Config) (verify : EthyId → NotarizationPayload → Signature → Bool)
    (s : State EthyId AccountId) : Extrinsic EthyId AccountId Signature → State EthyId AccountId
  | .unsigned env payload signature =>
    match validateUnsigned verify s (.submitNotarization payload) signature with
    | .ok _ => step cfg s ⟨env, .submitNotarization payload⟩
    | .error _ => s
  | .other op =>
    match op.call with
    | .submitNotarization _ => s
    | _ => step cfg s op

end

end EthBridge
