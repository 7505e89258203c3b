import Cennznet.Staking.Ledger
import Cennznet.Staking.Session

/-! # Bonding

The part of `crml/staking` that keeps the ledgers of bonded stashes, and the locks that go with them. A dispatchable
that fails keeps what it has written, so `withdraw_unbonded` returns a state with its result; the others write nothing
before their last test. -/

namespace Staking

open GenericAsset (Balance AssetId LockIdentifier)
open Result

def stakingId : LockIdentifier := 0x7374616b696e6720

def maxUnlockingChunks : Nat := 32

namespace StakingLedger

variable {AccountId : Type}

/-! ### Withdrawing -/

/-- The chunks that are not old enough, and the total without the others. -/
def consolidateChunks (currentEra : EraIndex) : Balance → List UnlockChunk → Balance × List UnlockChunk
  | total, [] => (total, [])
  | total, chunk :: chunks =>
    if currentEra.toNat < chunk.era.toNat then
      let (total, chunks) := consolidateChunks currentEra total chunks
      (total, chunk :: chunks)
    else consolidateChunks currentEra (Word.saturatingSub total chunk.value) chunks

def consolidateUnlocked (l : StakingLedger AccountId) (currentEra : EraIndex) : StakingLedger AccountId :=
  let (total, unlocking) := consolidateChunks currentEra l.total l.unlocking
  { l with total := total, unlocking := unlocking }

/-! ### Bonding again -/

def rebondChunks (value : Balance) : Balance → Balance → List UnlockChunk → Balance × List UnlockChunk
  | _, active, [] => (active, [])
  | rebondedTotal, active, last :: chunks =>
    let remaining := value - rebondedTotal
    if last.value.toNat ≤ remaining.toNat then
      let rebondedTotal := rebondedTotal + last.value
      let active := active + last.value
      if value.toNat ≤ rebondedTotal.toNat then (active, chunks) else rebondChunks value rebondedTotal active chunks
    -- `rebonded_total` comes to `value`, and the loop ends
    else (active + remaining, { last with value := last.value - remaining } :: chunks)

def rebond (l : StakingLedger AccountId) (value : Balance) : StakingLedger AccountId :=
  let (active, chunks) := rebondChunks value 0 l.active l.unlocking.reverse
  { l with active := active, unlocking := chunks.reverse }

/-! ### Slashing -/

def applySlash (totalFunds targetFunds slash minimumBalance : Balance) : Balance × Balance × Balance :=
  let slashFromTarget := if slash.toNat ≤ targetFunds.toNat then slash else targetFunds
  if slashFromTarget = 0 then (totalFunds, targetFunds, slash)
  else
    let totalFunds := Word.saturatingSub totalFunds slashFromTarget
    let targetFunds := targetFunds - slashFromTarget
    -- don't leave a dust balance in the staking system
    if targetFunds.toNat ≤ minimumBalance.toNat then
      (Word.saturatingSub totalFunds targetFunds, 0, slash - slashFromTarget)
    else (totalFunds, targetFunds, slash - slashFromTarget)

def slashChunks (minimumBalance : Balance) : Balance → Balance → List UnlockChunk → Balance × List UnlockChunk
  | total, _, [] => (total, [])
  | total, value, chunk :: chunks =>
    let (total, chunkValue, value) := applySlash total chunk.value value minimumBalance
    if chunkValue = 0 then slashChunks minimumBalance total value chunks
    else (total, { chunk with value := chunkValue } :: chunks)

def slash (l : StakingLedger AccountId) (value minimumBalance : Balance) : StakingLedger AccountId × Balance :=
  let (total, active, value) := applySlash l.total l.active value minimumBalance
  let (total, unlocking) := slashChunks minimumBalance total value l.unlocking
  ({ l with total := total, active := active, unlocking := unlocking }, Word.saturatingSub l.total total)

end StakingLedger

/-! ### Storage -/

/-- The slashing spans of a stash, of which only the number is read. -/
structure SlashingSpans where
  /-- The lengths of the spans before the last one. -/
  prior : List EraIndex

def SlashingSpans.count (spans : SlashingSpans) : Nat := spans.prior.length + 1

structure Config where
  stakingAssetId : AssetId
  bondingDuration : EraIndex

structure State (AccountId : Type) where
  bonds : Bonds AccountId
  assets : GenericAsset.State AccountId
  minimumBond : Balance
  currentEra : Option EraIndex
  electionClosed : Bool
  slashingSpans : StorageMap AccountId SlashingSpans

variable {AccountId : Type} [DecidableEq AccountId] (cfg : Config)

variable (s : State AccountId)

def updateLedger (controller : AccountId) (ledger : StakingLedger AccountId) : State AccountId :=
  { s with
    assets := GenericAsset.setLock s.assets stakingId cfg.stakingAssetId ledger.stash ledger.total .all
    bonds := { s.bonds with ledger := s.bonds.ledger.insert controller ledger } }

def clearStashMetadata (stash : AccountId) (numSlashingSpans : Nat) : Except Error (State AccountId) :=
  match s.slashingSpans.get? stash with
  | none => pure s
  | some spans => do
    ensure (spans.count ≤ numSlashingSpans) .incorrectSlashingSpans
    pure { s with slashingSpans := s.slashingSpans.remove stash }

def killStash (stash : AccountId) : Except Error (State AccountId) := do
  let controller ← okOr (s.bonds.bonded.get? stash) .notStash
  let s ← clearStashMetadata s stash 1000
  pure { s with bonds := { bonded := s.bonds.bonded.remove stash, ledger := s.bonds.ledger.remove controller } }

/-! ### Calls -/

def bond (s : State AccountId) (stash controller : AccountId) (value : Balance) : Except Error (State AccountId) := do
  ensure (s.bonds.bonded.contains stash = false) .alreadyBonded
  ensure (s.bonds.ledger.contains controller = false) .alreadyPaired
  -- reject a bond which is considered to be _dust_
  ensure (s.minimumBond.toNat ≤ value.toNat) .insufficientBond
  let s := { s with bonds := { s.bonds with bonded := s.bonds.bonded.insert stash controller } }
  let stashBalance := s.assets.free cfg.stakingAssetId stash
  let value := if value.toNat ≤ stashBalance.toNat then value else stashBalance
  pure (updateLedger cfg s controller { stash := stash, total := value, active := value, unlocking := [] })

def bondExtra (stash : AccountId) (maxAdditional : Balance) : Except Error (State AccountId) := do
  ensure (s.electionClosed = true) .callNotAllowed
  let controller ← okOr (s.bonds.bonded.get? stash) .notStash
  let ledger ← okOr (s.bonds.ledger.get? controller) .notController
  let stashBalance := s.assets.free cfg.stakingAssetId stash
  let extra ← okOr (Word.checkedSub stashBalance ledger.total) .insufficientFreeBalance
  let extra := if extra.toNat ≤ maxAdditional.toNat then extra else maxAdditional
  ensure (s.minimumBond.toNat ≤ (ledger.active + extra).toNat) .insufficientBond
  pure (updateLedger cfg s controller { ledger with total := ledger.total + extra, active := ledger.active + extra })

def StakingLedger.unbond (ledger : StakingLedger AccountId) (minimumBond value : Balance) (era : EraIndex) :
    StakingLedger AccountId :=
  let remainingActive := (Word.checkedSub ledger.active value).getD 0
  if remainingActive.toNat < minimumBond.toNat then
    -- must unbond all funds
    { ledger with unlocking := ledger.unlocking ++ [{ value := ledger.active, era := era }], active := 0 }
  else { ledger with unlocking := ledger.unlocking ++ [{ value := value, era := era }], active := remainingActive }

def unbond (s : State AccountId) (controller : AccountId) (value : Balance) : Except Error (State AccountId) := do
  ensure (s.electionClosed = true) .callNotAllowed
  let ledger ← okOr (s.bonds.ledger.get? controller) .notController
  ensure (ledger.unlocking.length < maxUnlockingChunks) .noMoreChunks
  if ledger.active = 0 ∨ value = 0 then pure s
  else
    let era := s.currentEra.getD 0 + cfg.bondingDuration
    pure (updateLedger cfg s controller (ledger.unbond s.minimumBond value era))

def withdrawUnbonded (controller : AccountId) : State AccountId × Except Error Unit :=
  if s.electionClosed = false then (s, .error .callNotAllowed)
  else
    match s.bonds.ledger.get? controller with
    | none => (s, .error .notController)
    | some ledger =>
      let ledger : StakingLedger AccountId := (s.currentEra.map ledger.consolidateUnlocked).getD ledger
      if ledger.unlocking.isEmpty ∧ ledger.active = 0 then
        -- the lock is gone even if the rest cannot be removed
        let s := { s with assets := GenericAsset.removeLock s.assets stakingId cfg.stakingAssetId ledger.stash }
        match killStash s ledger.stash with
        | .ok s => (s, .ok ())
        | .error e => (s, .error e)
      else (updateLedger cfg s controller ledger, .ok ())

def rebond (s : State AccountId) (controller : AccountId) (value : Balance) : Except Error (State AccountId) := do
  ensure (s.electionClosed = true) .callNotAllowed
  let ledger ← okOr (s.bonds.ledger.get? controller) .notController
  ensure (ledger.unlocking.isEmpty = false) .noUnlockChunk
  ensure (s.minimumBond.toNat ≤ (Word.saturatingAdd ledger.active value).toNat) .insufficientBond
  pure (updateLedger cfg s controller (ledger.rebond value))

def forceUnstake (stash : AccountId) : Except Error (State AccountId) := do
  let s ← killStash s stash
  pure { s with assets := GenericAsset.removeLock s.assets stakingId cfg.stakingAssetId stash }

def reapStash (stash : AccountId) : Except Error (State AccountId) := do
  let totalBalance := s.assets.free cfg.stakingAssetId stash + s.assets.reserved cfg.stakingAssetId stash
  ensure (totalBalance.toNat ≤ (s.assets.existentialDeposit cfg.stakingAssetId).toNat) .fundedTarget
  let s ← killStash s stash
  pure { s with assets := GenericAsset.removeLock s.assets stakingId cfg.stakingAssetId stash }

def doSlash (stash : AccountId) (value rewardPayout : Balance) (slashedImbalance : GenericAsset.NegativeImbalance) :
    State AccountId × Balance × GenericAsset.NegativeImbalance :=
  match s.bonds.bonded.get? stash with
  | none => (s, rewardPayout, slashedImbalance)
  | some controller =>
    match s.bonds.ledger.get? controller with
    | none => (s, rewardPayout, slashedImbalance)
    | some ledger =>
      let (ledger, value) := ledger.slash value (s.assets.existentialDeposit cfg.stakingAssetId)
      if value = 0 then (s, rewardPayout, slashedImbalance)
      else
        let (assets, imbalance, missing) := GenericAsset.AssetCurrency.slash s.assets cfg.stakingAssetId stash value
        (updateLedger cfg { s with assets := assets } controller ledger, Word.saturatingSub rewardPayout missing,
          { slashedImbalance with amount := Word.saturatingAdd slashedImbalance.amount imbalance.amount })

/-! ### Steps -/

inductive BondingOp (AccountId : Type) where
  | bond (stash controller : AccountId) (value : Balance)
  | bondExtra (stash : AccountId) (maxAdditional : Balance)
  | unbond (controller : AccountId) (value : Balance)
  | withdrawUnbonded (controller : AccountId)
  | rebond (controller : AccountId) (value : Balance)
  | setController (stash controller : AccountId)
  | slash (stash : AccountId) (value rewardPayout : Balance) (slashedImbalance : GenericAsset.NegativeImbalance)
  | setMinimumBond (value : Balance)
  | newEra
  | electionStatus (closed : Bool)
  /-- The slashing spans of a stash change. -/
  | slashingSpans (stash : AccountId) (spans : SlashingSpans)
  /-- The rest of the runtime moves funds; it leaves the locks. -/
  | assets (t : GenericAsset.State AccountId)

def bondingStep : BondingOp AccountId → State AccountId
  | .bond stash controller value => Result.getD (bond cfg s stash controller value) s
  | .bondExtra stash maxAdditional => Result.getD (bondExtra cfg s stash maxAdditional) s
  | .unbond controller value => Result.getD (unbond cfg s controller value) s
  | .withdrawUnbonded controller => (withdrawUnbonded cfg s controller).1
  | .rebond controller value => Result.getD (rebond cfg s controller value) s
  | .setController stash controller =>
    { s with bonds := Result.getD (s.bonds.setController stash controller) s.bonds }
  | .slash stash value rewardPayout slashedImbalance => (doSlash cfg s stash value rewardPayout slashedImbalance).1
  | .setMinimumBond value => { s with minimumBond := value }
  | .newEra => { s with currentEra := some ((s.currentEra.map (· + 1)).getD 0) }
  | .electionStatus closed => { s with electionClosed := closed }
  | .slashingSpans stash spans => { s with slashingSpans := s.slashingSpans.insert stash spans }
  | .assets t => { s with assets := { t with locks := s.assets.locks } }

/-- The calls that write bonds or take a stash out of the staking system. -/
inductive StakingOp (AccountId : Type) where
  | bonding (op : BondingOp AccountId)
  | forceUnstake (stash : AccountId)
  | reapStash (stash : AccountId)
  | other

def stakingStep : StakingOp AccountId → State AccountId
  | .bonding op => bondingStep cfg s op
  | .forceUnstake stash => Result.getD (forceUnstake cfg s stash) s
  | .reapStash stash => Result.getD (reapStash cfg s stash) s
  | .other => s

end Staking
