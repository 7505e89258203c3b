import Cennznet.EthBridge
import Cennznet.GenericAsset
import Cennznet.Lib.BigEndian
import Cennznet.Lib.Result
import Cennznet.Weights

/-! # The ERC20 peg

`crml/erc20-peg`: tokens locked in a contract on Ethereum circulate as assets of the ledger. Deposits and withdrawals
may be delayed by a number of blocks.

The state holds the ledger and the bridge. The subscribers of the bridge are called by a step of their own
(`Op.onSuccess`), with any claim. Messages to prove and events are recorded. A panic discards its transaction. -/

namespace Erc20Peg

open EthBridge (Bytes EthAddress EthHash EventClaimId EventProofId)
open GenericAsset (AssetId Balance)
open Result

abbrev ClaimId := BitVec 64
abbrev BlockNumber := BitVec 32
abbrev Hash := BitVec 256

inductive Error where
  | createAssetFailed
  | invalidAddress
  | invalidAmount
  | depositsPaused
  | withdrawalsPaused
  | unsupportedAsset
  | evmWithdrawalFailed
  | currency (e : GenericAsset.Error)
  | panicked
deriving DecidableEq, Repr

/-! ### Types -/

inductive WithdrawCallOrigin where
  | runtime
  | evm
deriving DecidableEq, Repr

structure Erc20DepositEvent where
  tokenAddress : EthAddress
  amount : BitVec 256
  beneficiary : EthHash
deriving DecidableEq, Repr

structure WithdrawMessage where
  tokenAddress : EthAddress
  amount : BitVec 256
  beneficiary : EthAddress
deriving DecidableEq, Repr

inductive PendingClaim where
  | deposit (claim : Erc20DepositEvent) (txHash : EthHash)
  | withdrawal (message : WithdrawMessage)
deriving DecidableEq, Repr

def addressWord (address : EthAddress) : Bytes := List.replicate 12 0 ++ BigEndian.encode 20 address.toNat

def WithdrawMessage.encode (m : WithdrawMessage) : Bytes :=
  addressWord m.tokenAddress ++ BigEndian.encode 32 m.amount.toNat ++ addressWord m.beneficiary

namespace Erc20DepositEvent

def encode (e : Erc20DepositEvent) : Bytes :=
  addressWord e.tokenAddress ++ BigEndian.encode 32 e.amount.toNat ++ BigEndian.encode 32 e.beneficiary.toNat

def decode (data : Bytes) : Option Erc20DepositEvent :=
  if data.length ≠ 3 * 32 then none
  else some {
    tokenAddress := BitVec.ofNat 160 (BigEndian.decode ((data.drop 12).take 20))
    amount := BitVec.ofNat 256 (BigEndian.decode ((data.drop 32).take 32))
    beneficiary := BitVec.ofNat 256 (BigEndian.decode (data.drop 64)) }

end Erc20DepositEvent

inductive Event (AccountId : Type) where
  | erc20Claim (claimId : EventClaimId) (beneficiary : AccountId)
  | erc20DepositDelayed (claimId : ClaimId) (block : BlockNumber) (amount : Balance) (beneficiary : AccountId)
  | erc20WithdrawalDelayed (claimId : ClaimId) (block : BlockNumber) (amount : Balance) (beneficiary : EthAddress)
  | delayedErc20DepositFailed (txHash : EthHash) (beneficiary : AccountId)
  | erc20Deposit (claimId : EventClaimId) (assetId : AssetId) (amount : Balance) (beneficiary : AccountId)
  | erc20Withdraw (proofId : EventProofId) (assetId : AssetId) (amount : Balance) (beneficiary : EthAddress)
  | erc20DepositFail (claimId : EventClaimId)
  | setContractAddress (address : EthAddress)
  | cennzDepositsActive
  | claimDelaySet (assetId : AssetId) (minBalance : Balance) (delay : BlockNumber)
  | noAvailableClaimIds
deriving DecidableEq

structure Config (AccountId : Type) where
  assets : GenericAsset.Config AccountId
  bridge : EthBridge.Config
  pegAccount : AccountId
  stakingCurrency : AssetId
  depositEventSignature : EthHash
  decodeAccount : EthHash → Option AccountId
  /-- The hash of the encoded message and proof id. -/
  hash : WithdrawMessage → EventProofId → Hash
  dbWeight : RuntimeDbWeight

structure State (EthyId AccountId : Type) where
  assets : GenericAsset.State AccountId
  bridge : EthBridge.State EthyId AccountId
  blockNumber : BlockNumber
  depositsActive : Bool
  withdrawalsActive : Bool
  erc20ToAssetId : StorageMap EthAddress AssetId
  assetIdToErc20 : StorageMap AssetId EthAddress
  erc20Meta : StorageMap EthAddress (Bytes × BitVec 8)
  claimDelay : StorageMap AssetId (Balance × BlockNumber)
  delayedClaims : StorageMap ClaimId PendingClaim
  delayedClaimSchedule : StorageMap BlockNumber (List ClaimId)
  readyBlocks : List BlockNumber
  nextDelayedClaimId : ClaimId
  withdrawalDigests : StorageMap EventProofId Hash
  contractAddress : EthAddress
  cennzDepositsActive : Bool
  messages : List WithdrawMessage
  events : List (Event AccountId)

variable {EthyId AccountId : Type}

def cennzSymbol : Bytes := [67, 69, 78, 78, 90]

/-- The peg at genesis. The token with the symbol of the staking currency is mapped to it, one way. -/
def State.genesis (stakingCurrency : AssetId) (erc20s : List (EthAddress × Bytes × BitVec 8))
    (assets : GenericAsset.State AccountId) (bridge : EthBridge.State EthyId AccountId) : State EthyId AccountId where
  assets := assets
  bridge := bridge
  blockNumber := 0
  depositsActive := false
  withdrawalsActive := false
  erc20ToAssetId :=
    erc20s.foldl (fun m (address, symbol, _) => if symbol = cennzSymbol then m.insert address stakingCurrency else m) ∅
  assetIdToErc20 := ∅
  erc20Meta := erc20s.foldl (fun m (address, symbol, decimals) => m.insert address (symbol, decimals)) ∅
  claimDelay := ∅
  delayedClaims := ∅
  delayedClaimSchedule := ∅
  readyBlocks := []
  nextDelayedClaimId := 0
  withdrawalDigests := ∅
  contractAddress := 0
  cennzDepositsActive := false
  messages := []
  events := []

section
variable (cfg : Config AccountId) (s : State EthyId AccountId)

def depositEvent (event : Event AccountId) : State EthyId AccountId :=
  { s with events := s.events ++ [event] }

def asU128 (amount : BitVec 256) : Except Error Balance := okOr (Word.tryFrom 128 amount) .panicked

def unwrapAccount (beneficiary : EthHash) : Except Error AccountId :=
  okOr (cfg.decodeAccount beneficiary) .panicked

/-! ### Claims and delays -/

def processDepositClaim (claim : Erc20DepositEvent) (txHash : EthHash) : Except Error (State EthyId AccountId) := do
  let submitted :=
    EthBridge.submitEventClaim s.bridge s.contractAddress cfg.depositEventSignature txHash claim.encode
  let beneficiary ← unwrapAccount cfg claim.beneficiary
  match submitted with
  | .ok (bridge, claimId) => return depositEvent { s with bridge := bridge } (.erc20Claim claimId beneficiary)
  | .error _ => return depositEvent s (.delayedErc20DepositFailed txHash beneficiary)

/-- Asks for the proof of a withdrawal; `generate_event_proof` cannot fail. -/
def processWithdrawal (message : WithdrawMessage) (assetId : AssetId) :
    Except Error (State EthyId AccountId × EventProofId) := do
  let amount ← asU128 message.amount
  let (bridge, proofId) := EthBridge.generateEventProof s.bridge message.encode
  let s := { s with
    bridge := bridge
    messages := s.messages ++ [message]
    withdrawalDigests := s.withdrawalDigests.insert proofId (cfg.hash message proofId) }
  return (depositEvent s (.erc20Withdraw proofId assetId amount message.beneficiary), proofId)

def delayedEvent (claimId : ClaimId) (claimBlock : BlockNumber) : PendingClaim → Except Error (Event AccountId)
  | .withdrawal message => do
    return .erc20WithdrawalDelayed claimId claimBlock (← asU128 message.amount) message.beneficiary
  | .deposit claim _ => do
    let beneficiary ← unwrapAccount cfg claim.beneficiary
    return .erc20DepositDelayed claimId claimBlock (← asU128 claim.amount) beneficiary

/-- Delays a claim until a later block. Without a free id it is dropped. -/
def delayClaim (delay : BlockNumber) (pendingClaim : PendingClaim) : Except Error (State EthyId AccountId) :=
  let claimId := s.nextDelayedClaimId
  match Word.checkedAdd claimId 1 with
  | none => .ok (depositEvent s .noAvailableClaimIds)
  | some nextClaimId => do
    let claimBlock := Word.saturatingAdd s.blockNumber delay
    let scheduled := s.delayedClaimSchedule.getD claimBlock [] ++ [claimId]
    let event ← delayedEvent cfg claimId claimBlock pendingClaim
    let s := { s with
      delayedClaims := s.delayedClaims.insert claimId pendingClaim
      delayedClaimSchedule := s.delayedClaimSchedule.insert claimBlock scheduled
      nextDelayedClaimId := nextClaimId }
    return depositEvent s event

def processClaim (claimId : ClaimId) : Except Error (State EthyId AccountId) :=
  match s.delayedClaims.get? claimId with
  | none => .ok s
  | some pendingClaim =>
    let s := { s with delayedClaims := s.delayedClaims.remove claimId }
    match pendingClaim with
    | .deposit claim txHash => processDepositClaim cfg s claim txHash
    | .withdrawal message =>
      match s.erc20ToAssetId.get? message.tokenAddress with
      | some assetId => Prod.fst <$> processWithdrawal cfg s message assetId
      -- the message is only logged
      | none => .ok s

def processClaims (claimIds : List ClaimId) : Except Error (State EthyId AccountId) :=
  claimIds.foldlM (processClaim cfg) s

/-! ### Hooks -/

def onInitialize (now : BlockNumber) : State EthyId AccountId :=
  if s.delayedClaimSchedule.contains now then { s with readyBlocks := s.readyBlocks ++ [now] } else s

def processReadyBlocks (cfg : Config AccountId) (maxClaims : BitVec 8) :
    State EthyId AccountId → BitVec 8 → BitVec 8 → List BlockNumber →
      Except Error (State EthyId AccountId × BitVec 8 × BitVec 8)
  | s, processedClaimCount, processedBlockCount, [] => .ok (s, processedClaimCount, processedBlockCount)
  | s, processedClaimCount, processedBlockCount, block :: rest => do
    let claimIds := s.delayedClaimSchedule.getD block []
    let remainingClaims := (maxClaims - processedClaimCount).toNat
    let (schedule, processedBlockCount) :=
      if remainingClaims < claimIds.length then
        (s.delayedClaimSchedule.insert block (claimIds.drop remainingClaims), processedBlockCount)
      else (s.delayedClaimSchedule.remove block, processedBlockCount + 1)
    let claimIds := claimIds.take remainingClaims
    let processedClaimCount := processedClaimCount + BitVec.ofNat 8 claimIds.length
    let s ← processClaims cfg { s with delayedClaimSchedule := schedule } claimIds
    if maxClaims.toNat ≤ processedClaimCount.toNat then .ok (s, processedClaimCount, processedBlockCount)
    else processReadyBlocks cfg maxClaims s processedClaimCount processedBlockCount rest

def onIdle (remainingWeight : Weight) : Except Error (State EthyId AccountId × Weight) :=
  let initialReadCost := cfg.dbWeight.reads 1
  if remainingWeight.toNat ≤ initialReadCost.toNat then .ok (s, 0)
  else if s.readyBlocks.isEmpty then .ok (s, 0)
  else do
    let weightEach := Word.saturatingAdd (cfg.dbWeight.reads 8) (cfg.dbWeight.writes 10)
    let maxClaims := Word.saturatedInto 8 ((remainingWeight - initialReadCost) / weightEach)
    let readyBlocks := s.readyBlocks
    let (s, processedClaimCount, processedBlockCount) ← processReadyBlocks cfg maxClaims s 0 0 readyBlocks
    return ({ s with readyBlocks := readyBlocks.drop processedBlockCount.toNat },
      initialReadCost + weightEach * processedClaimCount.setWidth 64)

end

section
variable [DecidableEq AccountId]

/-! ### Withdrawals -/

section
variable (cfg : Config AccountId) (s : State EthyId AccountId)

/-- Takes the amount: staking currency goes to the peg account, other assets are burnt. -/
def processWithdrawalPayment (origin : AccountId) (assetId : AssetId) (amount : Balance) :
    Except Error (State EthyId AccountId) := do
  if assetId = cfg.stakingCurrency then
    let assets ←
      (GenericAsset.MultiCurrency.transfer cfg.assets s.assets origin cfg.pegAccount assetId amount).mapError .currency
    return { s with assets := assets }
  else
    let (assets, imbalance) ←
      (GenericAsset.MultiCurrency.withdraw s.assets origin assetId amount .transfer).mapError .currency
    return { s with assets := GenericAsset.dropNegative assets imbalance }

def delayFor (assetId : AssetId) (amount : Nat) : Option BlockNumber :=
  match s.claimDelay.get? assetId with
  | some (minAmount, delay) => if minAmount.toNat ≤ amount then some delay else none
  | none => none

/-- Returns the proof id, or 0 if the withdrawal is delayed. -/
def doWithdrawal (origin : AccountId) (assetId : AssetId) (amount : Balance) (beneficiary : EthAddress)
    (callOrigin : WithdrawCallOrigin) :
    Except Error (State EthyId AccountId × EventProofId) := do
  ensure (s.withdrawalsActive = true) .withdrawalsPaused
  let tokenAddress ← okOr (s.assetIdToErc20.get? assetId) .unsupportedAsset
  let message := { tokenAddress := tokenAddress, amount := amount.setWidth 256, beneficiary := beneficiary }
  match delayFor s assetId amount.toNat with
  | some delay =>
    match callOrigin with
    | .runtime => do
      let s ← processWithdrawalPayment cfg s origin assetId amount
      let s ← delayClaim cfg s delay (.withdrawal message)
      return (s, 0)
    | .evm => .error .evmWithdrawalFailed
  | none => do
    let s ← processWithdrawalPayment cfg s origin assetId amount
    processWithdrawal cfg s message assetId

/-! ### Deposits -/

def depositClaim (txHash : EthHash) (claim : Erc20DepositEvent) : Except Error (State EthyId AccountId) := do
  ensure (s.depositsActive = true) .depositsPaused
  -- fail a claim early for an amount that is too large
  ensure (claim.amount.toNat < 2 ^ 128 - 1) .invalidAmount
  -- fail a claim if beneficiary is not a valid CENNZnet address
  ensure ((cfg.decodeAccount claim.beneficiary).isSome = true) .invalidAddress
  match (s.erc20ToAssetId.get? claim.tokenAddress).bind fun assetId => delayFor s assetId claim.amount.toNat with
  | some delay => delayClaim cfg s delay (.deposit claim txHash)
  | none => processDepositClaim cfg s claim txHash

/-- The asset of a token. For a new token one is created, with 18 decimals if nothing is known of it. -/
def assetOf [Inhabited AccountId] (cfg : Config AccountId) (s : State EthyId AccountId) (tokenAddress : EthAddress) :
    Except Error (State EthyId AccountId × AssetId) :=
  match s.erc20ToAssetId.get? tokenAddress with
  | some assetId => .ok (s, assetId)
  | none => do
    let (_, decimals) := s.erc20Meta.getD tokenAddress ([], 18)
    let (assets, assetId) ←
      (GenericAsset.MultiCurrency.create s.assets cfg.pegAccount 0 decimals 1).mapError fun _ => .createAssetFailed
    return ({ s with
      assets := assets
      erc20ToAssetId := s.erc20ToAssetId.insert tokenAddress assetId
      assetIdToErc20 := s.assetIdToErc20.insert assetId tokenAddress }, assetId)

/-- Staking currency is transferred from the peg account once its deposits are active, and the result is not looked at;
any other deposit is minted. -/
def payDeposit (assetId : AssetId) (amount : Balance) (beneficiary : AccountId) : GenericAsset.State AccountId :=
  if assetId = cfg.stakingCurrency ∧ s.cennzDepositsActive = true then
    Result.getD (GenericAsset.MultiCurrency.transfer cfg.assets s.assets cfg.pegAccount beneficiary assetId amount) s.assets
  else
    let (assets, imbalance) := GenericAsset.MultiCurrency.depositCreating s.assets beneficiary assetId amount
    GenericAsset.dropPositive assets imbalance

def doDeposit [Inhabited AccountId] (cfg : Config AccountId) (s : State EthyId AccountId)
    (verifiedEvent : Erc20DepositEvent) : Except Error (State EthyId AccountId × AssetId × Balance × AccountId) := do
  let (s, assetId) ← assetOf cfg s verifiedEvent.tokenAddress
  let beneficiary ← unwrapAccount cfg verifiedEvent.beneficiary
  let amount ← asU128 verifiedEvent.amount
  return ({ s with assets := payDeposit cfg s assetId amount beneficiary }, assetId, amount, beneficiary)

def isDeposit (contractAddress : EthAddress) (eventType : EthHash) : Bool :=
  contractAddress = s.contractAddress && eventType = cfg.depositEventSignature

def onSuccess [Inhabited AccountId] (cfg : Config AccountId) (s : State EthyId AccountId) (eventClaimId : EventClaimId)
    (contractAddress : EthAddress) (eventType : EthHash) (eventData : Bytes) : Except Error (State EthyId AccountId) :=
  if isDeposit cfg s contractAddress eventType then
    match Erc20DepositEvent.decode eventData with
    | some event =>
      match doDeposit cfg s event with
      | .ok (s, assetId, amount, beneficiary) =>
        .ok (depositEvent s (.erc20Deposit eventClaimId assetId amount beneficiary))
      | .error .panicked => .error .panicked
      | .error _ => .ok (depositEvent s (.erc20DepositFail eventClaimId))
    -- the data is only logged
    | none => .ok s
  else .ok s

def onFailure (eventClaimId : EventClaimId) (contractAddress : EthAddress) (eventType : EthHash) :
    State EthyId AccountId :=
  if isDeposit cfg s contractAddress eventType then depositEvent s (.erc20DepositFail eventClaimId) else s

/-! ### Steps -/

inductive Call (AccountId : Type) where
  | activateDeposits (activate : Bool)
  | activateWithdrawals (activate : Bool)
  | depositClaim (txHash : EthHash) (claim : Erc20DepositEvent)
  | withdraw (origin : AccountId) (assetId : AssetId) (amount : Balance) (beneficiary : EthAddress)
  | setContractAddress (address : EthAddress)
  | activateCennzDeposits
  | setErc20Meta (details : List (EthAddress × Bytes × BitVec 8))
  | setClaimDelay (assetId : AssetId) (minBalance : Balance) (delay : BlockNumber)

def dispatch : Call AccountId → Except Error (State EthyId AccountId)
  | .activateDeposits activate => .ok { s with depositsActive := activate }
  | .activateWithdrawals activate => .ok { s with withdrawalsActive := activate }
  | .depositClaim txHash claim => depositClaim cfg s txHash claim
  | .withdraw origin assetId amount beneficiary =>
    Prod.fst <$> doWithdrawal cfg s origin assetId amount beneficiary .runtime
  | .setContractAddress address => .ok (depositEvent { s with contractAddress := address } (.setContractAddress address))
  | .activateCennzDeposits => .ok (depositEvent { s with cennzDepositsActive := true } .cennzDepositsActive)
  | .setErc20Meta details =>
    .ok { s with erc20Meta := details.foldl (fun m (address, symbol, decimals) => m.insert address (symbol, decimals)) s.erc20Meta }
  | .setClaimDelay assetId minBalance delay =>
    .ok (depositEvent { s with claimDelay := s.claimDelay.insert assetId (minBalance, delay) }
      (.claimDelaySet assetId minBalance delay))

inductive Op (EthyId AccountId : Type) where
  | call (call : Call AccountId)
  | onInitialize (now : BlockNumber)
  | onIdle (remainingWeight : Weight)
  /-- A withdrawal through the EVM precompile. -/
  | evmWithdraw (caller : AccountId) (assetId : AssetId) (amount : Balance) (beneficiary : EthAddress)
  | onSuccess (eventClaimId : EventClaimId) (contractAddress : EthAddress) (eventType : EthHash) (eventData : Bytes)
  | onFailure (eventClaimId : EventClaimId) (contractAddress : EthAddress) (eventType : EthHash)
  | bridge (op : EthBridge.Op EthyId AccountId)

end

variable [Inhabited AccountId] [DecidableEq EthyId]

def perform (cfg : Config AccountId) (s : State EthyId AccountId) :
    Op EthyId AccountId → Except Error (State EthyId AccountId)
  | .call call => dispatch cfg s call
  | .onInitialize now => .ok (onInitialize { s with blockNumber := now } now)
  | .onIdle remainingWeight => Prod.fst <$> onIdle cfg s remainingWeight
  | .evmWithdraw caller assetId amount beneficiary =>
    Prod.fst <$> doWithdrawal cfg s caller assetId amount beneficiary .evm
  | .onSuccess eventClaimId contractAddress eventType eventData =>
    onSuccess cfg s eventClaimId contractAddress eventType eventData
  | .onFailure eventClaimId contractAddress eventType => .ok (onFailure cfg s eventClaimId contractAddress eventType)
  | .bridge op => .ok { s with bridge := EthBridge.step cfg.bridge s.bridge op }

/-- A step that fails changes nothing: calls are transactional or check before they write, and the precompile reverts.
-/
def step (cfg : Config AccountId) (s : State EthyId AccountId) (op : Op EthyId AccountId) : State EthyId AccountId :=
  Result.getD (perform cfg s op) s

end

end Erc20Peg
