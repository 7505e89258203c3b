import Cennznet.Precompiles

/-! # Approvals

`crml/token-approvals`, and the calls of the ERC-20 and ERC-721 precompiles that give and use approvals. Gas is left
out, and a call that fails is undone by the EVM. -/

namespace Precompiles

open EthBridge (EthAddress)
open GenericAsset (AssetId Balance)
open Nft (SerialNumber SeriesKey TokenId)
open PrefixedAddressMapping (intoAccountId)
open Result

namespace TokenApprovals

inductive Error where
  | notTokenOwner
  | callerNotOperator

structure State where
  erc721Approvals : StorageMap TokenId EthAddress
  erc20Approvals : StorageMap ((EthAddress × AssetId) × EthAddress) Balance

def State.genesis : State := ⟨∅, ∅⟩

def onNftTransfer (s : State) (tokenId : TokenId) : State :=
  { s with erc721Approvals := s.erc721Approvals.remove tokenId }

def erc721Approval (nft : Nft.State AccountId) (s : State) (caller operator : EthAddress) (tokenId : TokenId) :
    Except Error State := do
  ensure (caller ≠ operator) .callerNotOperator
  ensure (nft.ownerOf tokenId = intoAccountId caller) .notTokenOwner
  return { s with erc721Approvals := s.erc721Approvals.insert tokenId operator }

def erc20Approval (s : State) (caller spender : EthAddress) (assetId : AssetId) (amount : Balance) :
    Except Error State := do
  ensure (caller ≠ spender) .callerNotOperator
  return { s with erc20Approvals := s.erc20Approvals.insert ((caller, assetId), spender) amount }

def erc20RemoveApproval (s : State) (caller spender : EthAddress) (assetId : AssetId) : State :=
  { s with erc20Approvals := s.erc20Approvals.remove ((caller, assetId), spender) }

end TokenApprovals

structure Chain where
  nft : Nft.State AccountId
  approvals : TokenApprovals.State

/-- The approvals are told of each token that was transferred. -/
def Chain.setNft (c : Chain) (nft : Nft.State AccountId) : Chain where
  nft := nft
  approvals := (nft.nftTransfers.drop c.nft.nftTransfers.length).foldl TokenApprovals.onNftTransfer c.approvals

structure Context where
  address : EthAddress
  caller : EthAddress

inductive Event where
  | transfer
  | approval

structure Log (w : Nat) where
  address : EthAddress
  event : Event
  topics : EthAddress × EthAddress
  data : BitVec w

inductive Revert where
  /-- `expected token id <= 2^32` -/
  | tokenIdTooLarge
  /-- `caller not approved` -/
  | callerNotApproved
  /-- `Caller not approved for amount` -/
  | amountNotApproved
  | nft (e : Nft.Error)
  | assets (e : GenericAsset.Error)
  | approvals (e : TokenApprovals.Error)

namespace Erc721PrecompileSet

inductive Call where
  | approve (operator : EthAddress) (serialNumber : BitVec 256)
  | transferFrom (source dest : EthAddress) (serialNumber : BitVec 256)

def readSerialNumber (serialNumber : BitVec 256) : Except Revert SerialNumber := do
  ensure (serialNumber.toNat < 2 ^ 32) .tokenIdTooLarge
  return Word.saturatedInto 32 serialNumber

def approve (c : Chain) (context : Context) (key : SeriesKey) (operator : EthAddress) (serialNumber : BitVec 256) :
    Except Revert (Chain × List (Log 32)) := do
  let serialNumber ← readSerialNumber serialNumber
  let approvals ← (TokenApprovals.erc721Approval c.nft c.approvals context.caller operator
    (key.1, key.2, serialNumber)).mapError .approvals
  return ({ c with approvals := approvals }, [⟨context.address, .approval, (context.caller, operator), serialNumber⟩])

/-- The log names the caller, whoever the owner is. -/
def transferFrom (c : Chain) (context : Context) (key : SeriesKey) (source dest : EthAddress)
    (serialNumber : BitVec 256) : Except Revert (Chain × List (Log 32)) := do
  let serialNumber ← readSerialNumber serialNumber
  let approvedAccount := c.approvals.erc721Approvals.getD (key.1, key.2, serialNumber) 0
  ensure (context.caller = source ∨ context.caller = approvedAccount) .callerNotApproved
  let nft ← (Nft.transferBatch c.nft (intoAccountId source) key.1 key.2 [serialNumber] (intoAccountId dest)).mapError
    .nft
  return (c.setNft nft, [⟨context.address, .transfer, (context.caller, dest), serialNumber⟩])

def call (c : Chain) (context : Context) (key : SeriesKey) : Call → Except Revert (Chain × List (Log 32))
  | .approve operator serialNumber => approve c context key operator serialNumber
  | .transferFrom source dest serialNumber => transferFrom c context key source dest serialNumber

end Erc721PrecompileSet

namespace Erc20PrecompileSet

inductive Call where
  | approve (spender : EthAddress) (amount : BitVec 256)
  | transfer (dest : EthAddress) (amount : BitVec 256)
  | transferFrom (source dest : EthAddress) (amount : BitVec 256)

variable (cfg : GenericAsset.Config AccountId) (c : Chain) (context : Context) (assetId : AssetId)

def dispatchTransfer (source dest : EthAddress) (amount : Balance) : Except Revert Chain := do
  let assets ← (GenericAsset.dispatch cfg c.nft.assets
    (.transfer (intoAccountId source) assetId (intoAccountId dest) amount)).mapError .assets
  return { c with nft.assets := assets }

def approve (spender : EthAddress) (amount : BitVec 256) : Except Revert (Chain × List (Log 128)) := do
  let amount := Word.saturatedInto 128 amount
  let approvals ← (TokenApprovals.erc20Approval c.approvals context.caller spender assetId amount).mapError .approvals
  return ({ c with approvals := approvals }, [⟨context.address, .approval, (context.caller, spender), amount⟩])

def transfer (dest : EthAddress) (amount : BitVec 256) : Except Revert (Chain × List (Log 128)) := do
  let amount := Word.saturatedInto 128 amount
  let c ← dispatchTransfer cfg c assetId context.caller dest amount
  return (c, [⟨context.address, .transfer, (context.caller, dest), amount⟩])

def allowance (owner spender : EthAddress) : Balance := c.approvals.erc20Approvals.getD ((owner, assetId), spender) 0

/-- The owner spends without an approval. That of another caller is lowered, and removed if used up. -/
def spendApproval (source : EthAddress) (amount : Balance) : Except Revert TokenApprovals.State :=
  if context.caller = source then .ok c.approvals
  else do
    let currentApprovedAmount := c.approvals.erc20Approvals.getD ((source, assetId), context.caller) 0
    let newApprovedAmount ← okOr (Word.checkedSub currentApprovedAmount amount) .amountNotApproved
    if newApprovedAmount = 0 then return TokenApprovals.erc20RemoveApproval c.approvals source context.caller assetId
    else
      (TokenApprovals.erc20Approval c.approvals source context.caller assetId newApprovedAmount).mapError .approvals

def transferFrom (source dest : EthAddress) (amount : BitVec 256) : Except Revert (Chain × List (Log 128)) := do
  let amount := Word.saturatedInto 128 amount
  let approvals ← spendApproval c context assetId source amount
  let c ← dispatchTransfer cfg { c with approvals := approvals } assetId source dest amount
  return (c, [⟨context.address, .transfer, (source, dest), amount⟩])

def call : Call → Except Revert (Chain × List (Log 128))
  | .approve spender amount => approve c context assetId spender amount
  | .transfer dest amount => transfer cfg c context assetId dest amount
  | .transferFrom source dest amount => transferFrom cfg c context assetId source dest amount

end Erc20PrecompileSet

end Precompiles
