import Cennznet.GenericAsset
import Cennznet.Lib.Bits

/-! # Proposals and the votes on them

The types of `crml/governance`. The votes of the council are bits at the indices of its members. A row of votes has two
words, for the members below and from index 128 on, and an insertion or a removal shifts only the word that its index
lies in. -/

namespace Governance

open GenericAsset (Balance)

abbrev Bytes := List (BitVec 8)
abbrev ProposalId := BitVec 64
abbrev BlockNumber := BitVec 32

abbrev VotingPower := Balance

structure Proposal (AccountId : Type) where
  sponsor : AccountId
  justificationUri : Bytes
  enactmentDelay : BlockNumber
deriving DecidableEq, Repr

inductive ProposalStatusInfo where
  | deliberation
  | referendumDeliberation
  | approvedWaitingEnactment
  | approvedEnacted (ok : Bool)
  | approvedEnactmentCancelled
  | disapproved
  | referendumVetoed
deriving DecidableEq, Repr

structure ProposalVoteInfo where
  /-- The vote of the member at an index: against or for. -/
  voteBits : BitVec 128 × BitVec 128
  /-- Whether the member at an index has voted: this tells a vote against from none. -/
  activeBits : BitVec 128 × BitVec 128
deriving DecidableEq, Repr

structure CouncilVoteCount where
  yes : BitVec 32
  no : BitVec 32
deriving DecidableEq, Repr

namespace ProposalVoteInfo

instance : Inhabited ProposalVoteInfo := ⟨⟨(0, 0), (0, 0)⟩⟩

def getVote (v : ProposalVoteInfo) (index : BitVec 8) : Option Bool :=
  if index.toNat ≤ 127 then
    if 0 < v.activeBits.1 &&& (1#128 <<< index.toNat) then some (0 < v.voteBits.1 &&& (1#128 <<< index.toNat)) else none
  else
    let index := index - 128
    if 0 < v.activeBits.2 &&& (1#128 <<< index.toNat) then some (0 < v.voteBits.2 &&& (1#128 <<< index.toNat)) else none

def recordVote (v : ProposalVoteInfo) (index : BitVec 8) (vote : Bool) : ProposalVoteInfo :=
  if index.toNat ≤ 127 then
    let onMask := 1#128 <<< index.toNat
    { activeBits := (v.activeBits.1 ||| onMask, v.activeBits.2)
      voteBits := if vote then (v.voteBits.1 ||| onMask, v.voteBits.2) else v.voteBits }
  else
    let onMask := 1#128 <<< (index - 128).toNat
    { activeBits := (v.activeBits.1, v.activeBits.2 ||| onMask)
      voteBits := if vote then (v.voteBits.1, v.voteBits.2 ||| onMask) else v.voteBits }

def activeCount (v : ProposalVoteInfo) : BitVec 32 :=
  BitVec.ofNat 32 (Bits.countOnes v.activeBits.1) + BitVec.ofNat 32 (Bits.countOnes v.activeBits.2)

def yesCount (v : ProposalVoteInfo) : BitVec 32 :=
  BitVec.ofNat 32 (Bits.countOnes v.voteBits.1) + BitVec.ofNat 32 (Bits.countOnes v.voteBits.2)

def countVotes (v : ProposalVoteInfo) : CouncilVoteCount where
  yes := v.yesCount
  no := v.activeCount - v.yesCount

def insertVoter (v : ProposalVoteInfo) (index : BitVec 8) : ProposalVoteInfo :=
  if index.toNat ≤ 127 then
    { activeBits := (Bits.insertBit v.activeBits.1 index.toNat, v.activeBits.2)
      voteBits := (Bits.insertBit v.voteBits.1 index.toNat, v.voteBits.2) }
  else
    { activeBits := (v.activeBits.1, Bits.insertBit v.activeBits.2 (index - 128).toNat)
      voteBits := (v.voteBits.1, Bits.insertBit v.voteBits.2 (index - 128).toNat) }

def removeVoter (v : ProposalVoteInfo) (index : BitVec 8) : ProposalVoteInfo :=
  if index.toNat ≤ 127 then
    { activeBits := (Bits.removeBit v.activeBits.1 index.toNat, v.activeBits.2)
      voteBits := (Bits.removeBit v.voteBits.1 index.toNat, v.voteBits.2) }
  else
    { activeBits := (v.activeBits.1, Bits.removeBit v.activeBits.2 (index - 128).toNat)
      voteBits := (v.voteBits.1, Bits.removeBit v.voteBits.2 (index - 128).toNat) }

end ProposalVoteInfo

end Governance
