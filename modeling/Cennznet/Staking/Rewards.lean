import Cennznet.GenericAsset
import Cennznet.Lib.Perbill
import Cennznet.Staking.Session
import Cennznet.Weights

/-! # Staking rewards

The part of `crml/staking/src/rewards` that splits the reward of an era among the validators, and a payout between a
validator and its nominators. The deposits of the reward currency are recorded in order. `+` and `-` on balances wrap
around, and a division by zero, which panics, is `none`. -/

namespace Rewards

open GenericAsset (Balance)
open Staking (EraIndex)

abbrev RewardPoint := BitVec 32

/-- The inner value of a fixed point number with 18 decimals. -/
abbrev FixedU128 := BitVec 128

inductive Event (AccountId : Type) where
  | eraStakerPayout (era : EraIndex) (stash : AccountId) (amount : Balance)
  | eraPayout (era : EraIndex) (treasury stakers : Balance)
  | newFiscalEra (targetInflationPerStakingEra : Balance)
deriving DecidableEq, Repr

structure RewardParts where
  inflation : Balance
  transactionFees : Balance
  treasuryRate : Perbill
  treasuryCut : Balance
  stakersCut : Balance
  total : Balance

structure EraRewardPoints (AccountId : Type) [DecidableEq AccountId] where
  total : RewardPoint
  individual : StorageMap AccountId RewardPoint

structure IndividualExposure (AccountId : Type) where
  who : AccountId
  value : Balance

structure Exposure (AccountId : Type) where
  total : Balance
  own : Balance
  others : List (IndividualExposure AccountId)

variable {AccountId : Type}

structure Config (AccountId : Type) where
  treasuryAccount : AccountId
  historicalPayoutEras : BitVec 16
  fiscalEraLength : BitVec 32
  fiscalEraLength_ne_zero : fiscalEraLength ≠ 0
  saturatingMulInt : FixedU128 → Balance → Balance
  fromRational : Nat → Nat → Perbill
  dbWeight : RuntimeDbWeight

structure State (AccountId : Type) [DecidableEq AccountId] where
  baseInflationRate : FixedU128
  developmentFundTake : Perbill
  transactionFeePot : Balance
  transactionFeePotHistory : List Balance
  payees : StorageMap AccountId AccountId
  scheduledPayoutAmounts : StorageMap (EraIndex × AccountId) Balance
  scheduledPayoutErasAndCounts : List (EraIndex × BitVec 32)
  targetInflationPerStakingEra : Balance
  fiscalEraEpoch : EraIndex
  forceFiscalEra : Bool
  currentEraRewardPoints : EraRewardPoints AccountId
  totalIssuance : Balance
  /-- The deposits that minted the reward currency. -/
  minted : List (AccountId × Balance)
  events : List (Event AccountId)

variable [DecidableEq AccountId]

/-! ### The reward currency -/

section
variable (cfg : Config AccountId) (s : State AccountId)

/-- `CurrencyToReward::deposit_creating`, with an imbalance of `value`. -/
def depositCreating (who : AccountId) (value : Balance) : State AccountId × Balance :=
  ({ s with totalIssuance := Word.saturatingAdd s.totalIssuance value, minted := s.minted ++ [(who, value)] }, value)

def depositEvent (e : Event AccountId) : State AccountId := { s with events := s.events ++ [e] }

/-! ### The reward of an era -/

def RewardParts.new (inflation transactionFees : Balance) (treasuryRate : Perbill) : RewardParts :=
  let total := Word.saturatingAdd transactionFees inflation
  let treasuryCut := treasuryRate.mul transactionFees
  let stakersCut := Word.saturatingSub total treasuryCut
  { inflation, transactionFees, treasuryRate, treasuryCut, stakersCut, total }

def fullEraDuration : BitVec 64 := 1000 * 3600 * 24

def calculateTotalReward (eraDurationMs : BitVec 64) : RewardParts :=
  let inflation := (cfg.fromRational eraDurationMs.toNat fullEraDuration.toNat).mul s.targetInflationPerStakingEra
  RewardParts.new inflation s.transactionFeePot s.developmentFundTake

def newFiscalEra (cfg : Config AccountId) (s : State AccountId) : State AccountId :=
  let targetInflation := cfg.saturatingMulInt s.baseInflationRate s.totalIssuance
  let targetInflationPerStakingEra := (Word.checkedDiv targetInflation (cfg.fiscalEraLength.setWidth 128)).getD 0
  depositEvent { s with targetInflationPerStakingEra } (.newFiscalEra targetInflationPerStakingEra)

def noteFeePayout (amount : Balance) : State AccountId :=
  { s with transactionFeePotHistory := (amount :: s.transactionFeePotHistory).take cfg.historicalPayoutEras.toNat }

/-! ### The split among validators -/

def EraRewardPoints.ratio (points : EraRewardPoints AccountId) (validator : AccountId) : Perbill :=
  cfg.fromRational (points.individual.getD validator 0).toNat points.total.toNat

def validatorPayout (stakersCut : Balance) (validators : List AccountId) (points : EraRewardPoints AccountId)
    (validator : AccountId) : Option Balance :=
  if points.total = 0 then
    -- when no authorship points are recorded, divide the payout equally
    Word.checkedDiv stakersCut ((BitVec.ofNat 32 validators.length).setWidth 128)
  else some ((points.ratio cfg validator).mul stakersCut)

def takePayouts (payoutOf : AccountId → Option Balance) :
    List AccountId → Balance → Option (List (AccountId × Balance) × Balance)
  | [], remainder => some ([], remainder)
  | validator :: rest, remainder => do
    let payout ← payoutOf validator
    let (payouts, remainder) ← takePayouts payoutOf rest (remainder - payout)
    pure ((validator, payout) :: payouts, remainder)

def calculatePerValidatorPayouts (stakersCut : Balance) (validators : List AccountId)
    (points : EraRewardPoints AccountId) : Option (List (AccountId × Balance) × Balance) :=
  takePayouts (validatorPayout cfg stakersCut validators points) validators stakersCut

def insertPayouts (era : EraIndex) (amounts : StorageMap (EraIndex × AccountId) Balance)
    (payouts : List (AccountId × Balance)) : StorageMap (EraIndex × AccountId) Balance :=
  payouts.foldl (fun amounts p => amounts.insert (era, p.1) p.2) amounts

def scheduleRewardPayouts (validators : List AccountId) (totalStakerPayout : Balance) (era : EraIndex) :
    Option (State AccountId × Balance) := do
  let (payouts, remainder) ← calculatePerValidatorPayouts cfg totalStakerPayout validators s.currentEraRewardPoints
  let s := { s with
    scheduledPayoutAmounts := insertPayouts era s.scheduledPayoutAmounts payouts
    scheduledPayoutErasAndCounts := s.scheduledPayoutErasAndCounts ++ [(era, BitVec.ofNat 32 validators.length)] }
  pure (s, remainder)

/-- The fiscal era renews when forced, or after `fiscalEraLength` eras. -/
def renewFiscalEra (eraIndex : EraIndex) : State AccountId :=
  let s := if s.forceFiscalEra then { s with fiscalEraEpoch := eraIndex } else s
  if Word.saturatingSub eraIndex s.fiscalEraEpoch % cfg.fiscalEraLength = 0 then newFiscalEra cfg s else s

def onEndEra (eraValidatorStashes : List AccountId) (eraIndex : EraIndex) (eraDurationMs : BitVec 64) :
    Option (State AccountId) := do
  -- calculate reward before changing fiscal era
  let nextReward := calculateTotalReward cfg s eraDurationMs
  let s := renewFiscalEra cfg s eraIndex
  let (s, remainder) ← scheduleRewardPayouts cfg s eraValidatorStashes nextReward.stakersCut eraIndex
  -- deduct taxes from network spending
  let s := (depositCreating s cfg.treasuryAccount (nextReward.treasuryCut + remainder)).1
  let s := depositEvent s (.eraPayout eraIndex nextReward.treasuryCut nextReward.stakersCut)
  let s := noteFeePayout cfg s nextReward.transactionFees
  pure { s with transactionFeePot := 0, currentEraRewardPoints := ⟨0, ∅⟩, forceFiscalEra := false }

/-! ### The split of a validator's payout -/

end

section
variable [Inhabited AccountId]

def payee (s : State AccountId) (stash : AccountId) : AccountId :=
  let payee := s.payees.getD stash default
  -- a default value means it's unset, just return the stash
  if payee = default then stash else payee

def calculateNposPayouts (cfg : Config AccountId) (s : State AccountId) (validator : AccountId)
    (validatorCommissionRate : Perbill) (validatorStake : Exposure AccountId) (reward : Balance) : List (AccountId × Balance) :=
  let commission := validatorCommissionRate.mul reward
  let validatorCut := if commission.toNat ≤ reward.toNat then commission else reward
  let nominatorsCut := Word.saturatingSub reward validatorCut
  -- there's nothing left after validator has taken it's commission
  if nominatorsCut = 0 then [(validator, validatorCut)]
  else
    let aggregateValidatorStake := max validatorStake.total.toNat 1
    let nominators := validatorStake.others.map fun nominatorStake =>
      (payee s nominatorStake.who,
        (cfg.fromRational nominatorStake.value.toNat aggregateValidatorStake).mul nominatorsCut)
    -- a validator always self-nominates using it's own stake
    nominators ++ [(payee s validator,
      (cfg.fromRational validatorStake.own.toNat aggregateValidatorStake).mul nominatorsCut + validatorCut)]

def payStaker (era : EraIndex) (paid : State AccountId × Balance) (payout : AccountId × Balance) :
    State AccountId × Balance :=
  let (s, imbalance) := depositCreating paid.1 (payee paid.1 payout.1) payout.2
  (depositEvent s (.eraStakerPayout era payout.1 payout.2), Word.saturatingAdd paid.2 imbalance)

def processRewardPayout (cfg : Config AccountId) (s : State AccountId) (validatorStash : AccountId)
    (validatorCommission : Perbill) (exposures : Exposure AccountId) (totalPayout : Balance) (era : EraIndex) :
    State AccountId :=
  if totalPayout = 0 then s
  else
    let payouts := calculateNposPayouts cfg s validatorStash validatorCommission exposures totalPayout
    let (s, totalPayoutImbalance) := payouts.foldl (payStaker era) (s, 0)
    let remainder := Word.saturatingSub totalPayout totalPayoutImbalance
    (depositCreating s cfg.treasuryAccount remainder).1

/-! ### The reward accrued so far -/

def calculatePayoutsFiltered (cfg : Config AccountId) (s : State AccountId)
    (validatorCommissionStakeMap : List (AccountId × Perbill × Exposure AccountId)) (eraDurationMs : BitVec 64)
    (filter : AccountId → Exposure AccountId → Bool) : Option (Balance × Balance × List (AccountId × Balance)) :=
  let payout := calculateTotalReward cfg s eraDurationMs
  if payout.total = 0 then some (0, 0, [])
  else do
    let payouts ← validatorCommissionStakeMap.mapM fun (validator, validatorCommission, stakeMap) =>
      if filter validator stakeMap then some []
      else do
        let validatorTotalPayout ← validatorPayout cfg payout.stakersCut (validatorCommissionStakeMap.map Prod.fst)
          s.currentEraRewardPoints validator
        if validatorTotalPayout = 0 then some []
        else some (calculateNposPayouts cfg s validator validatorCommission stakeMap validatorTotalPayout)
    some (payout.stakersCut, payout.treasuryCut, payouts.flatten)

def calculateIndividualReward (cfg : Config AccountId) (s : State AccountId) (stash : AccountId)
    (eraDurationMs : BitVec 64) (validatorCommissionStakeMap : List (AccountId × Perbill × Exposure AccountId)) :
    Option Balance := do
  let (_, _, payouts) ← calculatePayoutsFiltered cfg s validatorCommissionStakeMap eraDurationMs fun validator exposure =>
    decide (stash ≠ validator) && !exposure.others.any (fun x => x.who = stash)
  let payee := payee s stash
  some (payouts.foldl (fun payeeCut p => if p.1 = payee then Word.saturatingAdd payeeCut p.2 else payeeCut) 0)

end

end Rewards
