import Cennznet.Governance.Types
import Cennznet.Lib.Result
import Cennznet.Lib.Run
import Cennznet.Lib.Search

/-! # Governance

`crml/governance`: the council votes on the proposals of its members, and stakers may veto in a referendum what it
approves. What is not vetoed is enacted by the scheduler with the root origin.

A call that is enacted may be a root call of this module, so the dispatch of calls is bounded by the depth to which
they may nest; beyond it the runtime traps, and the outermost call has no effect. -/

namespace Governance

open GenericAsset (AssetId Balance)
open Result

abbrev Permill := Fin 1000001

def referendumLength : BlockNumber := 21600

def referendumCheckInterval : BlockNumber := 1000

inductive Error where
  | notCouncilor
  | notSponsor
  | maxCouncilReached
  | minCouncilReached
  | proposalMissing
  | doubleVote
  | noReferendumThreshold
  | notEnoughStaked
  | referendumNotStarted
  | referendumNotDeliberating
  | notEnoughRegistrations
  | currency (e : GenericAsset.Error)
  /-- Calls nest too deeply. No caller sees this: the runtime traps. -/
  | trapped
deriving DecidableEq, Repr

inductive Event where
  /-- Declared and never deposited. -/
  | submitProposal (proposalId : ProposalId)
  | enactReferendum (proposalId : ProposalId) (ok : Bool)
  | proposalVeto (proposalId : ProposalId)
  | referendumVeto (proposalId : ProposalId)
  | referendumCreated (proposalId : ProposalId)
  | referendumApproved (proposalId : ProposalId)
deriving DecidableEq, Repr

inductive RootCall (AccountId : Type) where
  | addCouncilMember (newMember : AccountId)
  | removeCouncilMember (removeMember : AccountId)
  | cancelEnactment (proposalId : ProposalId)
  | enactReferendum (proposalId : ProposalId)
  | setProposalBond (newProposalBond : Balance)
  | setMinimumCouncilStake (newMinimumCouncilStake : Balance)
  | setReferendumThreshold (newReferendumThreshold : Permill)
  | setMinimumVoterStakedAmount (newMinimumStakedAmount : Balance)
deriving DecidableEq, Repr

inductive RuntimeCall (AccountId : Type) where
  | governance (call : RootCall AccountId)
  /-- A call of another module, or one the root origin may not make: its effect on the ledger and whether it succeeds.
  -/
  | other (run : GenericAsset.State AccountId → GenericAsset.State AccountId × Bool)

structure State (AccountId : Type) where
  proposals : StorageMap ProposalId (Proposal AccountId)
  proposalCalls : StorageMap ProposalId Bytes
  proposalVotes : StorageMap ProposalId ProposalVoteInfo
  proposalStatus : StorageMap ProposalId ProposalStatusInfo
  referendumVotes : StorageMap (ProposalId × AccountId) VotingPower
  referendumVetoSum : StorageMap ProposalId Balance
  referendumStartTime : StorageMap ProposalId BlockNumber
  council : List AccountId
  nextProposalId : ProposalId
  proposalBond : Balance
  minVoterStakedAmount : Balance
  referendumThreshold : Permill
  minimumCouncilStake : Balance
  assets : GenericAsset.State AccountId
  /-- The tasks of the scheduler named after proposals, with the block they are due. -/
  scheduled : StorageMap ProposalId BlockNumber
  events : List Event

structure Config (AccountId : Type) where
  maxCouncilSize : BitVec 8
  assets : GenericAsset.Config AccountId
  spendingAssetId : AssetId
  decode : Bytes → Option (RuntimeCall AccountId)
  permillFromRational : Balance → Balance → Permill
  /-- The order of hashed keys of `ReferendumStartTime`. -/
  startTimeOrder : ProposalId → ProposalId → Bool
  depth : Nat

structure Env (AccountId : Type) where
  blockNumber : BlockNumber
  activeBalance : AccountId → Balance
  totalStaked : Balance
  registeredIdentityCount : AccountId → BitVec 32
  minimumRegisteredIdentities : BitVec 32
  /-- Whether the scheduler takes a task for a block. -/
  takesTask : ProposalId → BlockNumber → Bool

variable {AccountId : Type}

def State.genesis (assets : GenericAsset.State AccountId) : State AccountId where
  proposals := ∅
  proposalCalls := ∅
  proposalVotes := ∅
  proposalStatus := ∅
  referendumVotes := ∅
  referendumVetoSum := ∅
  referendumStartTime := ∅
  council := []
  nextProposalId := 0
  proposalBond := 0
  minVoterStakedAmount := 10000000
  referendumThreshold := 330000
  minimumCouncilStake := 10000000
  assets := assets
  scheduled := ∅
  events := []

section
variable (env : Env AccountId) (s : State AccountId)

def State.depositEvent (event : Event) : State AccountId := { s with events := s.events ++ [event] }

/-! ### Eligibility -/

def checkCouncilAccountValidity (account : AccountId) : Except Error Unit := do
  let stakedAmount := env.activeBalance account
  ensure (s.minimumCouncilStake.toNat ≤ stakedAmount.toNat) .notEnoughStaked
  ensure (env.minimumRegisteredIdentities.toNat ≤ (env.registeredIdentityCount account).toNat) .notEnoughRegistrations

def checkVoterAccountValidity (account : AccountId) (stakedAmount : Balance) : Except Error Unit := do
  ensure (s.minVoterStakedAmount.toNat < stakedAmount.toNat) .notEnoughStaked
  ensure (env.minimumRegisteredIdentities.toNat ≤ (env.registeredIdentityCount account).toNat) .notEnoughRegistrations

/-! ### The scheduler

Which tasks it takes, and when after its block a task is run, is up to it; names are unique. -/

def scheduleNamed (proposalId : ProposalId) (block : BlockNumber) : Option (State AccountId) :=
  if s.scheduled.contains proposalId then none
  else if env.takesTask proposalId block then some { s with scheduled := s.scheduled.insert proposalId block }
  else none

/-- An unknown name is an error. -/
def cancelNamed (proposalId : ProposalId) : Option (State AccountId) :=
  if s.scheduled.contains proposalId then some { s with scheduled := s.scheduled.remove proposalId } else none

end

section
variable [LinearOrder AccountId]

/-! ### The council -/

variable (cfg : Config AccountId) (env : Env AccountId) (s : State AccountId)

def slashBond (sponsor : AccountId) : State AccountId :=
  let (assets, imbalance, _) :=
    GenericAsset.AssetCurrency.slashReserved s.assets cfg.spendingAssetId sponsor s.proposalBond
  { s with assets := GenericAsset.dropNegative assets imbalance }

def submitProposal (origin : AccountId) (call justificationUri : Bytes) (enactmentDelay : BlockNumber) :
    Except Error (State AccountId) := do
  checkCouncilAccountValidity env s origin
  let sponsorIdx ← (Search.binarySearch s.council origin).mapError fun _ => .notCouncilor
  let proposalId := s.nextProposalId
  let assets ← (GenericAsset.reserve cfg.assets s.assets cfg.spendingAssetId origin s.proposalBond).mapError .currency
  let enactmentDelay := if enactmentDelay.toNat ≤ 1 then 1 else enactmentDelay
  -- sponsor should vote yes
  let votes := (default : ProposalVoteInfo).recordVote (BitVec.ofNat 8 sponsorIdx) true
  pure { s with
    assets := assets
    proposals := s.proposals.insert proposalId ⟨origin, justificationUri, enactmentDelay⟩
    proposalCalls := s.proposalCalls.insert proposalId call
    proposalVotes := s.proposalVotes.insert proposalId votes
    proposalStatus := s.proposalStatus.insert proposalId .deliberation
    nextProposalId := Word.saturatingAdd proposalId 1 }

def startReferendum (proposalId : ProposalId) : State AccountId :=
  { s with
    proposalStatus := s.proposalStatus.insert proposalId .referendumDeliberation
    proposalVotes := s.proposalVotes.remove proposalId
    referendumStartTime := s.referendumStartTime.insert proposalId env.blockNumber
    referendumVetoSum := s.referendumVetoSum.insert proposalId 0 }.depositEvent (.referendumCreated proposalId)

def disapprove (proposalId : ProposalId) (sponsor : AccountId) : State AccountId :=
  let s := slashBond cfg (s.depositEvent (.proposalVeto proposalId)) sponsor
  { s with
    proposals := s.proposals.remove proposalId
    proposalCalls := s.proposalCalls.remove proposalId
    proposalVotes := s.proposalVotes.remove proposalId
    proposalStatus := s.proposalStatus.insert proposalId .disapproved }

def threshold : BitVec 32 :=
  BitVec.ofNat 32 (if s.council.isEmpty then 1 else s.council.length) / 2

def applyTally (proposalId : ProposalId) (sponsor : AccountId) (tally : CouncilVoteCount) : State AccountId :=
  if (threshold s).toNat < tally.yes.toNat then
    if s.proposalCalls.contains proposalId then startReferendum env s proposalId
    -- a proposal without an onchain call can be considered enacted
    else { s with proposalStatus := s.proposalStatus.insert proposalId (.approvedEnacted true) }
  else if (threshold s).toNat < tally.no.toNat then disapprove cfg s proposalId sponsor
  else s

def voteOnProposal (origin : AccountId) (proposalId : ProposalId) (vote : Bool) : Except Error (State AccountId) := do
  let voterIdx ← (Search.binarySearch s.council origin).mapError fun _ => .notCouncilor
  let proposal ← okOr (s.proposals.get? proposalId) .proposalMissing
  let votes := s.proposalVotes.getD proposalId default
  let voterIdx := BitVec.ofNat 8 voterIdx
  ensure (votes.getVote voterIdx = none) .doubleVote
  let votes := votes.recordVote voterIdx vote
  let tally := votes.countVotes
  let s := { s with proposalVotes := s.proposalVotes.insert proposalId votes }
  pure (applyTally cfg env s proposalId proposal.sponsor tally)

def addCouncilMember (newMember : AccountId) : Except Error (State AccountId) := do
  checkCouncilAccountValidity env s newMember
  ensure (s.council.length < cfg.maxCouncilSize.toNat) .maxCouncilReached
  match Search.binarySearch s.council newMember with
  | .error idx =>
    pure { s with
      proposalVotes := s.proposalVotes.mapValues fun votes => votes.insertVoter (BitVec.ofNat 8 idx)
      council := s.council.insertIdx idx newMember }
  | .ok _ => pure s

def removeCouncilMember (removeMember : AccountId) : Except Error (State AccountId) := do
  ensure (1 < s.council.length) .minCouncilReached
  match Search.binarySearch s.council removeMember with
  | .ok idx =>
    pure { s with
      proposalVotes := s.proposalVotes.mapValues fun votes => votes.removeVoter (BitVec.ofNat 8 idx)
      council := s.council.eraseIdx idx }
  | .error _ => pure s

/-! ### Referenda -/

def voteAgainstReferendum (origin : AccountId) (proposalId : ProposalId) : Except Error (State AccountId) := do
  let startTime ← okOr (s.referendumStartTime.get? proposalId) .proposalMissing
  ensure (s.proposalStatus.get? proposalId = some .referendumDeliberation) .referendumNotDeliberating
  ensure (s.referendumVotes.contains (proposalId, origin) = false) .doubleVote
  let stakedAmount := env.activeBalance origin
  checkVoterAccountValidity env s origin stakedAmount
  ensure (startTime.toNat ≤ env.blockNumber.toNat) .referendumNotStarted
  pure { s with
    referendumVotes := s.referendumVotes.insert (proposalId, origin) stakedAmount
    referendumVetoSum := s.referendumVetoSum.insert proposalId (s.referendumVetoSum.getD proposalId 0 + stakedAmount) }

def vetoReferendum (proposalId : ProposalId) (sponsor : AccountId) : State AccountId :=
  let s := slashBond cfg (s.depositEvent (.referendumVeto proposalId)) sponsor
  { s with
    proposals := s.proposals.remove proposalId
    proposalCalls := s.proposalCalls.remove proposalId
    referendumStartTime := s.referendumStartTime.remove proposalId
    referendumVetoSum := s.referendumVetoSum.remove proposalId
    proposalStatus := s.proposalStatus.insert proposalId .referendumVetoed }

/-- The referendum has passed: its enactment is scheduled. A failure to do so is only logged. -/
def approveReferendum (proposalId : ProposalId) (enactmentDelay : BlockNumber) : State AccountId :=
  if s.proposalCalls.contains proposalId then
    let s := (scheduleNamed env s proposalId (env.blockNumber + enactmentDelay)).getD s
    let s := s.depositEvent (.referendumApproved proposalId)
    { s with proposalStatus := s.proposalStatus.insert proposalId .approvedWaitingEnactment }
  -- a proposal without an onchain call can be considered enacted
  else { s with proposalStatus := s.proposalStatus.insert proposalId (.approvedEnacted true) }

def endReferendum (proposalId : ProposalId) : State AccountId :=
  match s.proposals.get? proposalId with
  | none => s
  | some proposal =>
    let totalStaked := env.totalStaked
    let s := { s with referendumVotes := s.referendumVotes.removePrefix proposalId }
    if s.referendumThreshold ≤ cfg.permillFromRational (s.referendumVetoSum.getD proposalId 0) totalStaked then
      vetoReferendum cfg s proposalId proposal.sponsor
    else approveReferendum env s proposalId proposal.enactmentDelay

/-- The referendum that started at `block` is over, and its vetos are not tallied yet. -/
def isOver (proposalId : ProposalId) (block : BlockNumber) : Bool :=
  (block + referendumLength).toNat ≤ env.blockNumber.toNat ∧
    s.proposalStatus.get? proposalId = some .referendumDeliberation

def endReferenda (started : List (ProposalId × BlockNumber)) : State AccountId :=
  started.foldl (fun s (proposalId, block) => if isOver env s proposalId block then endReferendum cfg env s proposalId else s) s

def onInitialize : State AccountId :=
  if env.blockNumber % referendumCheckInterval = 0 then
    endReferenda cfg env s (s.referendumStartTime.iterBy cfg.startTimeOrder)
  else s

/-! ### Enactment -/

def cancelEnactment (proposalId : ProposalId) : Except Error (State AccountId) := do
  let proposal ← okOr (s.proposals.get? proposalId) .proposalMissing
  let s ← okOr (cancelNamed s proposalId) .proposalMissing
  let s := slashBond cfg s proposal.sponsor
  pure { s with
    proposalStatus := s.proposalStatus.insert proposalId .approvedEnactmentCancelled
    proposalCalls := s.proposalCalls.remove proposalId
    proposalVotes := s.proposalVotes.remove proposalId
    referendumStartTime := s.referendumStartTime.remove proposalId }

/-- Dispatch a call with the root origin, and tell whether it succeeded. A trap is not caught. -/
def dispatchCall (dispatch : State AccountId → RootCall AccountId → Except Error (State AccountId)) (s : State AccountId) :
    RuntimeCall AccountId → Except Error (State AccountId × Bool)
  | .other run =>
    let (assets, ok) := run s.assets
    .ok ({ s with assets := assets }, ok)
  | .governance call =>
    match dispatch s call with
    | .ok s => .ok (s, true)
    | .error .trapped => .error .trapped
    | .error _ => .ok (s, false)

def finishEnactment (proposalId : ProposalId) (sponsor : AccountId) (ok : Bool) : State AccountId :=
  let s := s.depositEvent (.enactReferendum proposalId ok)
  { s with
    assets := (GenericAsset.unreserve s.assets cfg.spendingAssetId sponsor s.proposalBond).1
    proposalStatus := s.proposalStatus.insert proposalId (.approvedEnacted ok)
    proposals := s.proposals.remove proposalId
    proposalCalls := s.proposalCalls.remove proposalId
    referendumVetoSum := s.referendumVetoSum.remove proposalId
    referendumStartTime := s.referendumStartTime.remove proposalId }

def enactReferendum (dispatch : State AccountId → RootCall AccountId → Except Error (State AccountId))
    (s : State AccountId) (proposalId : ProposalId) : Except Error (State AccountId) := do
  let proposalCall ← okOr (s.proposalCalls.get? proposalId) .proposalMissing
  let proposal ← okOr (s.proposals.get? proposalId) .proposalMissing
  match cfg.decode proposalCall with
  | some call =>
    let (s, ok) ← dispatchCall dispatch s call
    pure (finishEnactment cfg s proposalId proposal.sponsor ok)
  | none => pure s

def dispatchRoot (cfg : Config AccountId) (env : Env AccountId) :
    Nat → State AccountId → RootCall AccountId → Except Error (State AccountId)
  | 0, _, _ => .error .trapped
  | _ + 1, s, .addCouncilMember newMember => addCouncilMember cfg env s newMember
  | _ + 1, s, .removeCouncilMember removeMember => removeCouncilMember s removeMember
  | _ + 1, s, .cancelEnactment proposalId => cancelEnactment cfg s proposalId
  | depth + 1, s, .enactReferendum proposalId => enactReferendum cfg (dispatchRoot cfg env depth) s proposalId
  | _ + 1, s, .setProposalBond newProposalBond => .ok { s with proposalBond := newProposalBond }
  | _ + 1, s, .setMinimumCouncilStake newMinimumCouncilStake =>
    .ok { s with minimumCouncilStake := newMinimumCouncilStake }
  | _ + 1, s, .setReferendumThreshold newReferendumThreshold =>
    .ok { s with referendumThreshold := newReferendumThreshold }
  | _ + 1, s, .setMinimumVoterStakedAmount newMinimumStakedAmount =>
    .ok { s with minVoterStakedAmount := newMinimumStakedAmount }

def isDue (proposalId : ProposalId) : Bool :=
  (s.scheduled.get? proposalId).any fun block => block.toNat ≤ env.blockNumber.toNat

/-- The scheduler runs a task that is due, and forgets it. -/
def runScheduled (proposalId : ProposalId) : Except Error (State AccountId) :=
  if isDue env s proposalId then do
    let (s, _) ← dispatchCall (dispatchRoot cfg env cfg.depth) s (.governance (.enactReferendum proposalId))
    pure { s with scheduled := s.scheduled.remove proposalId }
  else .ok s

/-! ### Runs -/

/-- The calls of the module, its hook, and what others do to the state it writes to. -/
inductive Call (AccountId : Type) where
  | submitProposal (origin : AccountId) (call justificationUri : Bytes) (enactmentDelay : BlockNumber)
  | voteOnProposal (origin : AccountId) (proposalId : ProposalId) (vote : Bool)
  | voteAgainstReferendum (origin : AccountId) (proposalId : ProposalId)
  | root (call : RootCall AccountId)
  | onInitialize
  | runScheduled (proposalId : ProposalId)
  | ledger (assets : GenericAsset.State AccountId)

structure Op (AccountId : Type) where
  env : Env AccountId
  call : Call AccountId

def perform (op : Op AccountId) : Except Error (State AccountId) :=
  match op.call with
  | .submitProposal origin call justificationUri enactmentDelay =>
    submitProposal cfg op.env s origin call justificationUri enactmentDelay
  | .voteOnProposal origin proposalId vote => voteOnProposal cfg op.env s origin proposalId vote
  | .voteAgainstReferendum origin proposalId => voteAgainstReferendum op.env s origin proposalId
  | .root call => dispatchRoot cfg op.env cfg.depth s call
  | .onInitialize => .ok (onInitialize cfg op.env s)
  | .runScheduled proposalId => runScheduled cfg op.env s proposalId
  | .ledger assets => .ok { s with assets := assets }

/-- A call that fails leaves the state as it was. -/
def step (op : Op AccountId) : State AccountId :=
  getD (perform cfg s op) s

end

end Governance
