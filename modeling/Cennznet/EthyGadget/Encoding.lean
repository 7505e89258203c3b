import Cennznet.Erc20Peg
import Cennznet.EthyGadget

/-! # The messages that the gadget signs

How `ethy-gadget` turns the digest logs of the bridge into the byte strings that are signed. The log of a signing
request holds its message; that of a change of the validators is encoded by the worker, with the id of the active set.
-/

namespace EthyGadget

open EthBridge (EthAddress abiEncode)
open Erc20Peg (addressWord)

variable {AuthorityId : Type}

/-- Ethereum ABI encode a validator set change message. `toEthereum` turns a public key into an address. -/
def abiEncodeValidatorSetChange (toEthereum : AuthorityId → EthAddress) (next : ValidatorSet AuthorityId)
    (activeValidatorSetId : ValidatorSetId) (eventId : EventId) : Bytes :=
  -- header section: the offset of the addresses, of four words, and the ids
  abiEncode (4 * 32) ++ abiEncode next.id ++ abiEncode activeValidatorSetId ++ abiEncode eventId ++
    -- data section: length prefix and addresses
    abiEncode (BitVec.ofNat 64 next.validators.length) ++ next.validators.flatMap fun key => addressWord (toEthereum key)

def readLog : EthBridge.ConsensusLog AuthorityId → ConsensusLog AuthorityId
  | .opaqueSigningRequest message eventId => .opaqueSigningRequest message eventId
  | .pendingAuthoritiesChange next eventId => .pendingAuthoritiesChange ⟨next.validators, next.id⟩ eventId

end EthyGadget
