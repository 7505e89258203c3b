import Cennznet.Lib.Search
import Cennznet.Lib.Slots
import Cennznet.Lib.Storage

/-! # The ETHY gadget

`ethy-gadget`: each validator signs the digests of events for Ethereum and gossips its witness; when enough witnesses
agree on a digest, a worker puts their signatures together to a proof.

Keys, hashes and signatures are parameters; a panic is `none`. Metrics, logs and the time of rebroadcasts are left out,
as is a failure to store a proof, which is only logged. -/

namespace EthyGadget

abbrev EventId := BitVec 64
abbrev ValidatorSetId := BitVec 64
abbrev Hash := BitVec 256
abbrev Bytes := List (BitVec 8)

structure Witness (AuthorityId Signature : Type) where
  /-- The event hash: `keccak(abi.encodePacked(param0, param1, paramN, validator_set_id, event_id))` -/
  digest : Hash
  eventId : EventId
  validatorSetId : ValidatorSetId
  authorityId : AuthorityId
  signature : Signature
deriving DecidableEq

structure EventProof (Signature : Type) where
  digest : Hash
  eventId : EventId
  validatorSetId : ValidatorSetId
  signatures : List Signature
  block : Hash
  tag : Option Bytes
deriving DecidableEq

structure ValidatorSet (AuthorityId : Type) where
  validators : List AuthorityId
  id : ValidatorSetId
deriving DecidableEq

/-! ### Who has voted -/

/-- The authorities that have voted on each event, in order. -/
abbrev Votes (AuthorityId : Type) := StorageMap EventId (List AuthorityId)

section
variable {AuthorityId : Type} [LinearOrder AuthorityId]

def Votes.has (votes : Votes AuthorityId) (eventId : EventId) (authorityId : AuthorityId) : Bool :=
  match votes.get? eventId with
  | some v => (Search.binarySearch v authorityId).isOk
  | none => false

def Votes.mark (votes : Votes AuthorityId) (eventId : EventId) (authorityId : AuthorityId) : Votes AuthorityId :=
  match votes.get? eventId with
  | none => votes.insert eventId [authorityId]
  | some v =>
    match Search.binarySearch v authorityId with
    | .error index => votes.insert eventId (v.insertIdx index authorityId)
    | .ok _ => votes

end

/-! ### Tracking live witnesses -/

abbrev Signatures (Signature : Type) := List (Nat × Signature)

/-- event_id -> digest -> [](authority, signature) -/
abbrev Record (Signature : Type) := StorageMap EventId (StorageMap Hash (Signatures Signature))

structure WitnessRecord (AuthorityId Signature : Type) where
  record : Record Signature
  /-- local record of info of an event (block number of event, tag (optional)) -/
  eventMeta : StorageMap EventId (Hash × Option Bytes)
  hasVoted : Votes AuthorityId
  validators : List AuthorityId

namespace WitnessRecord

variable {AuthorityId Signature : Type}

instance : Inhabited (WitnessRecord AuthorityId Signature) := ⟨⟨∅, ∅, ∅, []⟩⟩

def setValidators (r : WitnessRecord AuthorityId Signature) (validators : List AuthorityId) :
    WitnessRecord AuthorityId Signature :=
  { r with validators := validators }

def clear (r : WitnessRecord AuthorityId Signature) (eventId : EventId) : WitnessRecord AuthorityId Signature :=
  { r with record := r.record.remove eventId, eventMeta := r.eventMeta.remove eventId }

def recorded (r : WitnessRecord AuthorityId Signature) (eventId : EventId) (digest : Hash) : Option (Signatures Signature) :=
  (r.record.get? eventId).bind (·.get? digest)

/-- All known signatures for the witness on (event_id, digest). An index without a slot panics. -/
def signaturesFor [Inhabited Signature] (r : WitnessRecord AuthorityId Signature) (eventId : EventId) (digest : Hash) :
    Option (List Signature) := do
  let proofs ← r.recorded eventId digest
  proofs.foldlM Slots.put (List.replicate r.validators.length default)

def hasConsensus (r : WitnessRecord AuthorityId Signature) (eventId : EventId) (digest : Hash) (threshold : Nat) : Bool :=
  threshold ≤ ((r.recorded eventId digest).map List.length).getD 0

def eventMetadata (r : WitnessRecord AuthorityId Signature) (eventId : EventId) : Option (Hash × Option Bytes) :=
  r.eventMeta.get? eventId

def noteEventMetadata (r : WitnessRecord AuthorityId Signature) (eventId : EventId) (block : Hash) (tag : Option Bytes) :
    WitnessRecord AuthorityId Signature :=
  match r.eventMeta.get? eventId with
  | some _ => r
  | none => { r with eventMeta := r.eventMeta.insert eventId (block, tag) }

section
variable [LinearOrder AuthorityId] (r : WitnessRecord AuthorityId Signature) (witness : Witness AuthorityId Signature)

def authorityToIndex (authorityId : AuthorityId) : Option Nat := r.validators.findIdx? (· = authorityId)

def insertSignature : Record Signature :=
  match r.record.get? witness.eventId with
  | some eventDigests =>
    match eventDigests.get? witness.digest, r.authorityToIndex witness.authorityId with
    | some signatures, some authorityIndex =>
      r.record.insert witness.eventId
        (eventDigests.insert witness.digest (signatures ++ [(authorityIndex, witness.signature)]))
    | none, some authorityIndex =>
      r.record.insert witness.eventId (eventDigests.insert witness.digest [(authorityIndex, witness.signature)])
    | _, none => r.record
  | none =>
    -- first time observing the event: it gets its digests even if there is no signature to put there
    match r.authorityToIndex witness.authorityId with
    | some authorityIndex =>
      r.record.insert witness.eventId (StorageMap.insert ∅ witness.digest [(authorityIndex, witness.signature)])
    | none => r.record.insert witness.eventId ∅

def note : WitnessRecord AuthorityId Signature × Bool :=
  if r.hasVoted.has witness.eventId witness.authorityId then (r, false)
  else
    ({ r with
        record := r.insertSignature witness
        hasVoted := r.hasVoted.mark witness.eventId witness.authorityId }, true)

end

end WitnessRecord

/-! ### Gossip -/

structure GossipValidator (AuthorityId : Type) where
  knownVotes : Votes AuthorityId
  completeEvents : List EventId
  activeValidators : List AuthorityId

inductive ValidationResult where
  | processAndKeep
  | discard
deriving DecidableEq, Repr

namespace GossipValidator

variable {AuthorityId Signature : Type}

def new (activeValidators : List AuthorityId) : GossipValidator AuthorityId := ⟨∅, [], activeValidators⟩

def maxCompleteEventCache : Nat := 30

def markComplete (g : GossipValidator AuthorityId) (eventId : EventId) : GossipValidator AuthorityId :=
  let completeEvents :=
    if maxCompleteEventCache < g.completeEvents.length then g.completeEvents.tail else g.completeEvents
  { g with
    knownVotes := g.knownVotes.remove eventId
    completeEvents :=
      match Search.binarySearch (completeEvents.map BitVec.toNat) eventId.toNat with
      | .ok _ => completeEvents
      | .error index => completeEvents.insertIdx index eventId }

def setActiveValidators (g : GossipValidator AuthorityId) (validators : List AuthorityId) : GossipValidator AuthorityId :=
  { g with activeValidators := validators }

/-- Validates a message, `none` if it is no witness. `verifyPrehashed` checks a signature. -/
def validate [LinearOrder AuthorityId] (verifyPrehashed : AuthorityId → Signature → Hash → Bool)
    (g : GossipValidator AuthorityId) (data : Option (Witness AuthorityId Signature)) :
    GossipValidator AuthorityId × ValidationResult :=
  match data with
  | none => (g, .discard)
  | some w =>
    if g.knownVotes.has w.eventId w.authorityId then (g, .discard)
    else if !g.activeValidators.any (· = w.authorityId) then (g, .discard)
    else if verifyPrehashed w.authorityId w.signature w.digest then
      ({ g with knownVotes := g.knownVotes.mark w.eventId w.authorityId }, .processAndKeep)
    else (g, .discard)

end GossipValidator

/-! ### The worker -/

inductive ConsensusLog (AuthorityId : Type) where
  | authoritiesChange (set : ValidatorSet AuthorityId)
  | onDisabled (index : BitVec 32)
  | opaqueSigningRequest (message : Bytes) (eventId : EventId)
  | pendingAuthoritiesChange (next : ValidatorSet AuthorityId) (eventId : EventId)

/-- A finalized block, with the digest items of the engine. -/
structure Header (AuthorityId : Type) where
  number : BitVec 32
  hash : Hash
  logs : List (ConsensusLog AuthorityId)

structure ProofRequest where
  message : Bytes
  eventId : EventId
  tag : Option Bytes
  block : Hash

def authorityChangeTag : Bytes := "sys:authority-change".toList.map fun c => BitVec.ofNat 8 c.toNat

structure Config (AuthorityId Signature : Type) where
  keccak256 : Bytes → Hash
  hasKeys : AuthorityId → Bool
  signPrehashed : AuthorityId → Hash → Option Signature
  runtimeValidatorSet : Header AuthorityId → Option (ValidatorSet AuthorityId)
  abiEncodeValidatorSetChange : ValidatorSet AuthorityId → ValidatorSetId → EventId → Bytes

structure Worker (AuthorityId Signature : Type) where
  witnessRecord : WitnessRecord AuthorityId Signature
  gossipValidator : GossipValidator AuthorityId
  validatorSet : ValidatorSet AuthorityId
  bestGrandpaBlock : BitVec 32
  backend : StorageMap EventId (EventProof Signature)
  notified : List (EventProof Signature)
  gossiped : List (Witness AuthorityId Signature)

namespace Worker

variable {AuthorityId Signature : Type}

def new (bestGrandpaBlock : BitVec 32) : Worker AuthorityId Signature where
  witnessRecord := default
  gossipValidator := .new []
  validatorSet := ⟨[], 0⟩
  bestGrandpaBlock := bestGrandpaBlock
  backend := ∅
  notified := []
  gossiped := []

/-- The signatures for a proof: `PROOF_THRESHOLD` is 0.6, and the product is truncated. The source multiplies in `f32`,
with the same result for fewer than 3495258 validators. -/
def threshold (validators : Nat) : Nat := 3 * validators / 5

section
variable [LinearOrder AuthorityId] [Inhabited Signature]

def handleWitness (s : Worker AuthorityId Signature) (witness : Witness AuthorityId Signature) :
    Option (Worker AuthorityId Signature) :=
  let (record, firstObservation) := s.witnessRecord.note witness
  let s := { s with witnessRecord := record }
  if firstObservation = false then some s
  else
    let s := { s with gossiped := s.gossiped ++ [witness] }
    if s.witnessRecord.hasConsensus witness.eventId witness.digest (threshold s.validatorSet.validators.length) then do
      let signatures ← s.witnessRecord.signaturesFor witness.eventId witness.digest
      let (block, tag) := (s.witnessRecord.eventMetadata witness.eventId).getD (0, none)
      let eventProof : EventProof Signature :=
        { digest := witness.digest, eventId := witness.eventId, validatorSetId := s.validatorSet.id
          signatures := signatures, block := block, tag := tag }
      return { s with
        backend := s.backend.insert witness.eventId eventProof
        notified := s.notified ++ [eventProof]
        witnessRecord := s.witnessRecord.clear witness.eventId
        gossipValidator := s.gossipValidator.markComplete witness.eventId }
    else some s

variable (cfg : Config AuthorityId Signature)

def findAuthoritiesChange (header : Header AuthorityId) : Option (ValidatorSet AuthorityId) :=
  header.logs.findSome? fun
    | .authoritiesChange set => some set
    | _ => none

/-- The active set at a header: that of a change, or the one of the runtime. -/
def activeValidatorSet (header : Header AuthorityId) : Option (ValidatorSet AuthorityId) :=
  match findAuthoritiesChange header with
  | some set => some set
  | none => cfg.runtimeValidatorSet header

def extractProofRequests (header : Header AuthorityId) (activeValidatorSetId : ValidatorSetId) : List ProofRequest :=
  header.logs.filterMap fun
    | .opaqueSigningRequest message eventId =>
      some { message := message, eventId := eventId, tag := none, block := header.hash }
    | .pendingAuthoritiesChange next eventId =>
      some
        { message := cfg.abiEncodeValidatorSetChange next activeValidatorSetId eventId
          eventId := eventId
          tag := some authorityChangeTag
          block := header.hash }
    | _ => none

def updateValidatorSet (s : Worker AuthorityId Signature) (header : Header AuthorityId) : Worker AuthorityId Signature :=
  match activeValidatorSet cfg header with
  | some active =>
    -- the second case is that of the first block
    if active.id ≠ s.validatorSet.id ∨ (active.id = 0 ∧ s.validatorSet.validators = []) then
      { s with
        gossipValidator := s.gossipValidator.setActiveValidators active.validators
        witnessRecord := s.witnessRecord.setValidators active.validators
        validatorSet := active }
    else s
  | none => s

/-- A request at a node that cannot vote: a stored proof gets the block and the tag. -/
def noteRequest (s : Worker AuthorityId Signature) (request : ProofRequest) : Worker AuthorityId Signature :=
  match s.backend.get? request.eventId with
  | some eventProof =>
    { s with backend := s.backend.insert request.eventId { eventProof with block := request.block, tag := request.tag } }
  | none =>
    { s with witnessRecord := s.witnessRecord.noteEventMetadata request.eventId request.block request.tag }

def witnessOf (s : Worker AuthorityId Signature) (authorityId : AuthorityId) (request : ProofRequest)
    (signature : Signature) : Witness AuthorityId Signature where
  digest := cfg.keccak256 request.message
  eventId := request.eventId
  validatorSetId := s.validatorSet.id
  authorityId := authorityId
  signature := signature

/-- Signs, processes and broadcasts the witness of each request. False if a signing failed, which ends the loop. -/
def witnessRequests (authorityId : AuthorityId) :
    Worker AuthorityId Signature → List ProofRequest → Option (Worker AuthorityId Signature × Bool)
  | s, [] => some (s, true)
  | s, request :: requests =>
    match cfg.signPrehashed authorityId (cfg.keccak256 request.message) with
    | none => some (s, false)
    | some signature => do
      let witness := witnessOf cfg s authorityId request signature
      let s := { s with
        witnessRecord := s.witnessRecord.noteEventMetadata request.eventId request.block request.tag }
      let s ← s.handleWitness witness
      witnessRequests authorityId { s with gossiped := s.gossiped ++ [witness] } requests

def handleFinalityNotification (s : Worker AuthorityId Signature) (header : Header AuthorityId) :
    Option (Worker AuthorityId Signature) :=
  let s := updateValidatorSet cfg s header
  let requests := extractProofRequests cfg header s.validatorSet.id
  match s.validatorSet.validators.find? cfg.hasKeys with
  | none => some (requests.foldl noteRequest s)
  | some authorityId => do
    let (s, signed) ← witnessRequests cfg authorityId s requests
    return if signed then { s with bestGrandpaBlock := header.number } else s

end

end Worker

end EthyGadget
