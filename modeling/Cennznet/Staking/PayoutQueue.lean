import Cennznet.Staking.Rewards

/-! # The queue of scheduled payouts

`on_idle` of `crml/staking/src/rewards`, with the runner of `runtime/src/impls.rs`. A call of the hook serves the first
era of the queue only, as far as the weight of the block goes. -/

namespace Rewards

open GenericAsset (Balance)
open Staking (EraIndex)

/-- What the runner reads of the staking module, and the weight of a payout by its number of nominators. -/
structure Runner (AccountId : Type) where
  erasStakersClipped : EraIndex → AccountId → Exposure AccountId
  commission : EraIndex → AccountId → Perbill
  processRewardPayouts : BitVec 32 → Weight

/-- The storage of the module, with the calls made by the runner, in order. -/
structure Paying (AccountId : Type) [DecidableEq AccountId] where
  rewards : State AccountId
  runs : List (EraIndex × AccountId × Balance)

structure Idle (AccountId : Type) [DecidableEq AccountId] where
  paying : Paying AccountId
  consumedWeight : Weight
  payoutsLeft : BitVec 32
  payoutsCompleted : List AccountId

variable {AccountId : Type} [DecidableEq AccountId] [Inhabited AccountId]

def Runner.validatorCommissionStakeMap (r : Runner AccountId) (era : EraIndex) (validators : List AccountId) :
    List (AccountId × Perbill × Exposure AccountId) :=
  validators.map fun validator => (validator, r.commission era validator, r.erasStakersClipped era validator)

def runPayout (cfg : Config AccountId) (r : Runner AccountId) (s : Paying AccountId) (validatorStash : AccountId)
    (amount : Balance) (payoutEra : EraIndex) : Paying AccountId × Weight :=
  let exposures := r.erasStakersClipped payoutEra validatorStash
  let commission := r.commission payoutEra validatorStash
  ({ rewards := processRewardPayout cfg s.rewards validatorStash commission exposures amount payoutEra
     runs := s.runs ++ [(payoutEra, validatorStash, amount)] },
    Word.saturatingAdd (cfg.dbWeight.reads 2) (r.processRewardPayouts (BitVec.ofNat 32 exposures.others.length)))

def estimateRunPayoutWeight (cfg : Config AccountId) (r : Runner AccountId) (validatorStash : AccountId)
    (payoutEra : EraIndex) : Weight :=
  let exposures := r.erasStakersClipped payoutEra validatorStash
  Word.saturatingAdd (r.processRewardPayouts (BitVec.ofNat 32 exposures.others.length)) (cfg.dbWeight.reads 2)

def runPayouts (cfg : Config AccountId) (r : Runner AccountId) (payoutEra : EraIndex) (remainingWeight : Weight) :
    List (AccountId × Balance) → Idle AccountId → Idle AccountId
  | [], idle => idle
  | (validatorStash, amount) :: rest, idle =>
    -- +1 read on each loop and +1 write to remove it from storage later
    let consumedWeight := idle.consumedWeight + (cfg.dbWeight.reads 1 + cfg.dbWeight.writes 1)
    let estimatedWeight := estimateRunPayoutWeight cfg r validatorStash payoutEra
    if (consumedWeight + estimatedWeight).toNat ≤ remainingWeight.toNat then
      let (paying, weight) := runPayout cfg r idle.paying validatorStash amount payoutEra
      runPayouts cfg r payoutEra remainingWeight rest
        { paying := paying
          consumedWeight := consumedWeight + weight
          payoutsLeft := idle.payoutsLeft - 1
          payoutsCompleted := idle.payoutsCompleted ++ [validatorStash] }
    -- exhausted idle weight
    else { idle with consumedWeight := consumedWeight }

def finishIdle (payoutEra : EraIndex) (waiting : List (EraIndex × BitVec 32)) (idle : Idle AccountId) : Paying AccountId :=
  { idle.paying with
    rewards := { idle.paying.rewards with
      scheduledPayoutErasAndCounts :=
        if idle.payoutsLeft = 0 then waiting else (payoutEra, idle.payoutsLeft) :: waiting
      scheduledPayoutAmounts := idle.payoutsCompleted.foldl (fun amounts stash => amounts.remove (payoutEra, stash))
          idle.paying.rewards.scheduledPayoutAmounts } }

/-- `order` is that of the hashed keys of `ScheduledPayoutAmounts`. -/
def onIdle (cfg : Config AccountId) (r : Runner AccountId) (order : AccountId → AccountId → Bool) (s : Paying AccountId)
    (remainingWeight : Weight) : Paying AccountId × Weight :=
  -- +1 read `SchedulePayoutErasAndCounts` and +1 write to update it at the end
  let consumedWeight := cfg.dbWeight.reads 1 + cfg.dbWeight.writes 1
  if remainingWeight.toNat < consumedWeight.toNat then (s, consumedWeight)
  else
    match s.rewards.scheduledPayoutErasAndCounts with
    | [] => (s, consumedWeight)
    | (payoutEra, payoutsLeft) :: waiting =>
      let idle := runPayouts cfg r payoutEra remainingWeight
        (s.rewards.scheduledPayoutAmounts.iterPrefixBy order payoutEra)
        { paying := s, consumedWeight := consumedWeight, payoutsLeft := payoutsLeft, payoutsCompleted := [] }
      (finishIdle payoutEra waiting idle, idle.consumedWeight)

/-! ### Runs -/

/-- The calls that schedule and run payouts, and what else changes the storage of the module. -/
inductive PayoutOp (AccountId : Type) [DecidableEq AccountId] where
  | onEndEra (eraValidatorStashes : List AccountId) (eraIndex : EraIndex) (eraDurationMs : BitVec 64)
  | onIdle (r : Runner AccountId) (remainingWeight : Weight)
  /-- Other calls: they leave the scheduled payouts alone. -/
  | other (t : State AccountId)

def payoutStep (cfg : Config AccountId) (order : AccountId → AccountId → Bool) (s : Paying AccountId) :
    PayoutOp AccountId → Paying AccountId
  | .onEndEra eraValidatorStashes eraIndex eraDurationMs =>
    { s with rewards := (onEndEra cfg s.rewards eraValidatorStashes eraIndex eraDurationMs).getD s.rewards }
  | .onIdle r remainingWeight => (onIdle cfg r order s remainingWeight).1
  | .other t =>
    { s with rewards := { t with
      scheduledPayoutAmounts := s.rewards.scheduledPayoutAmounts
      scheduledPayoutErasAndCounts := s.rewards.scheduledPayoutErasAndCounts } }

end Rewards
