import Cennznet.Lib.Search
import Cennznet.Staking.Bonding
import Cennznet.Staking.Rewards

/-! # Slashing

`crml/staking/src/slashing.rs`. A stash is slashed once in a slashing span, for the worst era of it: a further slash in
the span costs the difference. `compute_slash` returns a slash that `apply_slash` takes from the ledgers and balances
later. Indices and sums of balances wrap around. -/

namespace Staking

open GenericAsset (Balance)
open Rewards (Exposure IndividualExposure)

structure UnappliedSlash (AccountId : Type) where
  validator : AccountId
  own : Balance
  others : List (AccountId × Balance)
  reporters : List AccountId
  payout : Balance
deriving DecidableEq

inductive DisableStrategy where
  | never
  | whenSlashed
  | always
deriving DecidableEq, Repr

namespace Slashing

abbrev SpanIndex := BitVec 32

def rewardF1 : Perbill := Perbill.fromPercent 50

/-! ### Spans -/

structure SlashingSpan where
  index : SpanIndex
  start : EraIndex
  length : Option EraIndex
deriving DecidableEq

def SlashingSpan.containsEra (span : SlashingSpan) (era : EraIndex) : Bool :=
  span.start.toNat ≤ era.toNat && span.length.all fun length => era.toNat < (span.start + length).toNat

structure SlashingSpans where
  spanIndex : SpanIndex
  lastStart : EraIndex
  lastNonzeroSlash : EraIndex
  prior : List EraIndex
deriving DecidableEq

namespace SlashingSpans

def new (windowStart : EraIndex) : SlashingSpans where
  spanIndex := 0
  lastStart := windowStart
  lastNonzeroSlash := 0
  prior := []

def endSpan (spans : SlashingSpans) (now : EraIndex) : SlashingSpans × Bool :=
  let nextStart := now + 1
  if nextStart.toNat ≤ spans.lastStart.toNat then (spans, false)
  else
    let lastLength := nextStart - spans.lastStart
    ({ spans with
      prior := lastLength :: spans.prior
      lastStart := nextStart
      spanIndex := spans.spanIndex + 1 }, true)

def priorSpans : EraIndex → SpanIndex → List EraIndex → List SlashingSpan
  | _, _, [] => []
  | lastStart, index, length :: prior =>
    let start := lastStart - length
    { index := index - 1, start := start, length := some length } :: priorSpans start (index - 1) prior

def iter (spans : SlashingSpans) : List SlashingSpan :=
  { index := spans.spanIndex, start := spans.lastStart, length := none } ::
    priorSpans spans.lastStart spans.spanIndex spans.prior

def endedBefore (windowStart : EraIndex) (span : SlashingSpan) : Bool :=
  match span.length with
  | some length => (span.start + length).toNat ≤ windowStart.toNat
  | none => false

def prune (spans : SlashingSpans) (windowStart : EraIndex) : SlashingSpans × Option (SpanIndex × SpanIndex) :=
  let oldIdx := (spans.iter.drop 1).findIdx? (endedBefore windowStart)
  let earliestSpanIndex := spans.spanIndex - BitVec.ofNat 32 spans.prior.length
  let (prior, pruned) := match oldIdx with
    | some o =>
      let prior := spans.prior.take o
      let newEarliest := spans.spanIndex - BitVec.ofNat 32 prior.length
      (prior, some (earliestSpanIndex, newEarliest))
    | none => (spans.prior, none)
  -- readjust the ongoing span, if it started before the beginning of the window
  let lastStart := if spans.lastStart.toNat ≤ windowStart.toNat then windowStart else spans.lastStart
  ({ spans with prior := prior, lastStart := lastStart }, pruned)

def eraSpan (spans : SlashingSpans) (era : EraIndex) : Option SlashingSpan := spans.iter.find? (·.containsEra era)

end SlashingSpans

structure SpanRecord where
  slashed : Balance
  paidOut : Balance
deriving DecidableEq

instance : Inhabited SpanRecord := ⟨⟨0, 0⟩⟩

/-! ### Metadata -/

structure Metadata (AccountId : Type) where
  slashingSpans : StorageMap AccountId SlashingSpans
  spanSlash : StorageMap (AccountId × SpanIndex) SpanRecord
  validatorSlashInEra : StorageMap (EraIndex × AccountId) (Perbill × Balance)
  nominatorSlashInEra : StorageMap (EraIndex × AccountId) Balance

def Metadata.empty {AccountId : Type} : Metadata AccountId := ⟨∅, ∅, ∅, ∅⟩

structure SlashParams (AccountId : Type) where
  stash : AccountId
  slash : Perbill
  exposure : Exposure AccountId
  slashEra : EraIndex
  windowStart : EraIndex
  now : EraIndex
  rewardProportion : Perbill
  disableStrategy : DisableStrategy

/-- The spans of a stash under inspection. What is slashed and paid out is counted from zero; the caller adds it. -/
structure InspectingSpans (AccountId : Type) where
  dirty : Bool
  windowStart : EraIndex
  stash : AccountId
  spans : SlashingSpans
  paidOut : Balance
  slashOf : Balance
  rewardProportion : Perbill

section
variable {AccountId : Type} [DecidableEq AccountId]

def fetchSpans (m : Metadata AccountId) (stash : AccountId) (windowStart : EraIndex) (rewardProportion : Perbill) :
    Metadata AccountId × InspectingSpans AccountId :=
  let inspecting (spans : SlashingSpans) : InspectingSpans AccountId :=
    { dirty := false, windowStart := windowStart, stash := stash, spans := spans, paidOut := 0, slashOf := 0
      rewardProportion := rewardProportion }
  match m.slashingSpans.get? stash with
  | some spans => (m, inspecting spans)
  | none =>
    let spans := SlashingSpans.new windowStart
    ({ m with slashingSpans := m.slashingSpans.insert stash spans }, inspecting spans)

namespace InspectingSpans

def endSpan (i : InspectingSpans AccountId) (now : EraIndex) : InspectingSpans AccountId :=
  let (spans, ended) := i.spans.endSpan now
  { i with spans := spans, dirty := ended || i.dirty }

def addSlash (i : InspectingSpans AccountId) (amount : Balance) (slashEra : EraIndex) : InspectingSpans AccountId :=
  let last := if i.spans.lastNonzeroSlash.toNat ≤ slashEra.toNat then slashEra else i.spans.lastNonzeroSlash
  { i with slashOf := i.slashOf + amount, spans := { i.spans with lastNonzeroSlash := last } }

def reward (i : InspectingSpans AccountId) (slash paidOut : Balance) : Balance :=
  rewardF1.mul (Word.saturatingSub (i.rewardProportion.mul slash) paidOut)

def compareAndUpdateSpanSlash (m : Metadata AccountId) (i : InspectingSpans AccountId) (slashEra : EraIndex)
    (slash : Balance) : Metadata AccountId × InspectingSpans AccountId × Option SpanIndex :=
  match i.spans.eraSpan slashEra with
  | none => (m, i, none)
  | some targetSpan =>
    let key := (i.stash, targetSpan.index)
    let record := m.spanSlash.getD key default
    let (record, i, changed, reward) :=
      if record.slashed.toNat < slash.toNat then
        -- new maximum span slash. apply the difference.
        let difference := slash - record.slashed
        ({ record with slashed := slash }, i.addSlash difference slashEra, true, i.reward slash record.paidOut)
      else if record.slashed = slash then (record, i, false, i.reward slash record.paidOut)
      else (record, i, false, 0)
    let (record, i, changed) :=
      if reward = 0 then (record, i, changed)
      else ({ record with paidOut := record.paidOut + reward }, { i with paidOut := i.paidOut + reward }, true)
    if changed then
      ({ m with spanSlash := m.spanSlash.insert key record }, { i with dirty := true }, some targetSpan.index)
    else (m, i, some targetSpan.index)

def drop (m : Metadata AccountId) (i : InspectingSpans AccountId) : Metadata AccountId :=
  if i.dirty = false then m
  else
    let (spans, pruned) := i.spans.prune i.windowStart
    let spanSlash := match pruned with
      | some (first, last) =>
        m.spanSlash.removeAll
          ((List.range' first.toNat (last.toNat - first.toNat)).map fun index => (i.stash, BitVec.ofNat 32 index))
      | none => m.spanSlash
    { m with spanSlash := spanSlash, slashingSpans := m.slashingSpans.insert i.stash spans }

end InspectingSpans

structure SpanOutcome (AccountId : Type) where
  stash : AccountId
  span : Option SpanIndex
  recent : Bool
  compared : Balance
  slashed : Balance
  reward : Balance

def slashStash (m : Metadata AccountId) (params : SlashParams AccountId) (stash : AccountId) (slash : Balance) :
    Metadata AccountId × SpanOutcome AccountId :=
  let (m, i) := fetchSpans m stash params.windowStart params.rewardProportion
  let (m, i, targetSpan) := i.compareAndUpdateSpanSlash m params.slashEra slash
  let recent := targetSpan = some i.spans.spanIndex
  let i := if recent then i.endSpan params.now else i
  (i.drop m,
    { stash := stash, span := targetSpan, recent := recent, compared := slash, slashed := i.slashOf, reward := i.paidOut })

/-- The era slash of a nominator grows with that of the validator; then it is compared. -/
def slashNominator (params : SlashParams AccountId) (priorSlashP : Perbill) (m : Metadata AccountId)
    (nominator : IndividualExposure AccountId) : Metadata AccountId × SpanOutcome AccountId :=
  let ownSlashPrior := priorSlashP.mul nominator.value
  let ownSlashByValidator := params.slash.mul nominator.value
  let ownSlashDifference := Word.saturatingSub ownSlashByValidator ownSlashPrior
  let eraSlash := m.nominatorSlashInEra.getD (params.slashEra, nominator.who) 0 + ownSlashDifference
  let m := { m with nominatorSlashInEra := m.nominatorSlashInEra.insert (params.slashEra, nominator.who) eraSlash }
  slashStash m params nominator.who eraSlash

def slashNominators (params : SlashParams AccountId) (priorSlashP : Perbill) :
    Metadata AccountId → List (IndividualExposure AccountId) → Metadata AccountId × List (SpanOutcome AccountId)
  | m, [] => (m, [])
  | m, nominator :: others =>
    let (m, outcome) := slashNominator params priorSlashP m nominator
    let (m, outcomes) := slashNominators params priorSlashP m others
    (m, outcome :: outcomes)

def clearEraMetadata (m : Metadata AccountId) (obsoleteEra : EraIndex) : Metadata AccountId :=
  { m with
    validatorSlashInEra := m.validatorSlashInEra.removePrefix obsoleteEra
    nominatorSlashInEra := m.nominatorSlashInEra.removePrefix obsoleteEra }

end

/-! ### Storage -/

structure OffenceDetails (AccountId : Type) where
  offender : AccountId × Exposure AccountId
  reporters : List AccountId

/-- A deferred report: the offenders, the fraction each is slashed by, and the session of the offence. -/
structure DeferredOffence (AccountId : Type) where
  offenders : List (OffenceDetails AccountId)
  slashFraction : List Perbill
  slashSession : SessionIndex

structure Config (AccountId : Type) where
  staking : Staking.Config
  slashDeferDuration : EraIndex
  offendingValidatorsThreshold : Perbill
  /-- `SlashRewardFraction`, set at genesis: the part of a slash that goes to reporters. -/
  slashRewardFraction : Perbill
  /-- `on_unbalanced` of `T::Slash`, for the funds that were slashed. -/
  onUnbalanced : GenericAsset.State AccountId → GenericAsset.NegativeImbalance → GenericAsset.State AccountId
  dbWeight : RuntimeDbWeight
  weightSoftLimit : Weight

/-- The storage that offences are handled with. Of `staking` the bonds, the balances and the election status are read;
of `eras`, the active era, the starts of eras and the forcing. -/
structure State (AccountId : Type) where
  staking : Staking.State AccountId
  eras : Eras
  metadata : Metadata AccountId
  /-- The validating stashes with their commissions, and the targets of nominating ones. -/
  validators : StorageMap AccountId Perbill
  nominators : StorageMap AccountId (List AccountId)
  invulnerables : List AccountId
  offendingValidators : List (BitVec 32 × Bool)
  /-- The validators of the session, and the indices it has been told to disable. -/
  sessionValidators : List AccountId
  disabled : List (BitVec 32)
  bondedEras : List (EraIndex × SessionIndex)
  unappliedSlashes : StorageMap EraIndex (List (UnappliedSlash AccountId))
  earliestUnappliedSlash : Option EraIndex
  deferredOffences : List (DeferredOffence AccountId)

/-! ### Computing a slash -/

section
variable {AccountId : Type} [DecidableEq AccountId] (cfg : Config AccountId)

def chillStash (s : State AccountId) (stash : AccountId) : State AccountId :=
  { s with validators := s.validators.remove stash, nominators := s.nominators.remove stash }

def addOffendingValidator (s : State AccountId) (stash : AccountId) (disable : Bool) : State AccountId :=
  match s.sessionValidators.findIdx? (· = stash) with
  | none => s
  | some validatorIndex =>
    let validatorIndex := BitVec.ofNat 32 validatorIndex
    match Search.binarySearch (s.offendingValidators.map (·.1.toNat)) validatorIndex.toNat with
    | .error index =>
      -- this is a new offending validator
      let offending := s.offendingValidators.insertIdx index (validatorIndex, disable)
      let offendingThreshold := cfg.offendingValidatorsThreshold.mul (BitVec.ofNat 32 s.sessionValidators.length)
      { s with
        offendingValidators := offending
        eras := if offendingThreshold.toNat ≤ offending.length then s.eras.ensureNewEra else s.eras
        disabled := if disable then s.disabled ++ [validatorIndex] else s.disabled }
    | .ok index =>
      match s.offendingValidators[index]? with
      | some (_, false) =>
        if disable then
          { s with
            offendingValidators := s.offendingValidators.set index (validatorIndex, true)
            disabled := s.disabled ++ [validatorIndex] }
        else s
      | _ => s

def kickOutIfRecent (s : State AccountId) (params : SlashParams AccountId) : State AccountId :=
  let (m, i) := fetchSpans s.metadata params.stash params.windowStart params.rewardProportion
  let recent := (i.spans.eraSpan params.slashEra).map (·.index) = some i.spans.spanIndex
  let i := if recent then i.endSpan params.now else i
  let s := if recent then chillStash s params.stash else s
  addOffendingValidator cfg { s with metadata := i.drop m } params.stash (params.disableStrategy = .always)

def computeOutcomes (s : State AccountId) (params : SlashParams AccountId) :
    State AccountId × Option (SpanOutcome AccountId × List (SpanOutcome AccountId)) :=
  let ownSlash := params.slash.mul params.exposure.own
  if params.slash.mul params.exposure.total = 0 then
    -- kick out the validator even if they won't be slashed
    (kickOutIfRecent cfg s params, none)
  else
    let key := (params.slashEra, params.stash)
    let priorSlashP := ((s.metadata.validatorSlashInEra.get? key).map Prod.fst).getD (Perbill.fromPercent 0)
    if priorSlashP.parts < params.slash.parts then
      let m := { s.metadata with
        validatorSlashInEra := s.metadata.validatorSlashInEra.insert key (params.slash, ownSlash) }
      let (m, own) := slashStash m params params.stash ownSlash
      -- chill the validator - it misbehaved in the current span and should not continue in the next election
      let s := if own.recent then chillStash s params.stash else s
      let s := addOffendingValidator cfg s params.stash (params.disableStrategy ≠ .never)
      let (m, others) := slashNominators params priorSlashP m params.exposure.others
      ({ s with metadata := m }, some (own, others))
    -- this new event is not the max in the era
    else (s, none)

def UnappliedSlash.ofOutcomes (own : SpanOutcome AccountId) (others : List (SpanOutcome AccountId)) :
    UnappliedSlash AccountId where
  validator := own.stash
  own := own.slashed
  others := others.map fun outcome => (outcome.stash, outcome.slashed)
  reporters := []
  payout := own.reward + others.foldl (fun payout outcome => payout + outcome.reward) 0

def computeSlash (s : State AccountId) (params : SlashParams AccountId) :
    State AccountId × Option (UnappliedSlash AccountId) :=
  let (s, outcomes) := computeOutcomes cfg s params
  (s, outcomes.map fun outcome => UnappliedSlash.ofOutcomes outcome.1 outcome.2)

/-! ### Applying a slash -/

/-- `SlashFundsToTreasury::on_unbalanced`. An imbalance of asset 0 counts as none, and is dropped. -/
def slashFundsToTreasury (stakingAssetId : GenericAsset.AssetId) (treasury : AccountId)
    (assets : GenericAsset.State AccountId) (slashAmount : GenericAsset.NegativeImbalance) : GenericAsset.State AccountId :=
  if slashAmount.amount = 0 ∨ slashAmount.assetId = 0 then GenericAsset.dropNegative assets slashAmount
  else GenericAsset.AssetCurrency.resolveCreating assets stakingAssetId treasury slashAmount

def payEach (perReporter : Balance) : GenericAsset.State AccountId → GenericAsset.NegativeImbalance → List AccountId →
    GenericAsset.State AccountId × GenericAsset.NegativeImbalance
  | assets, rewardPayout, [] => (assets, rewardPayout)
  | assets, rewardPayout, reporter :: reporters =>
    let (reporterReward, rest) := rewardPayout.split perReporter
    payEach perReporter
      (GenericAsset.AssetCurrency.resolveCreating assets cfg.staking.stakingAssetId reporter reporterReward) rest reporters

def payReporters (assets : GenericAsset.State AccountId) (rewardPayout : Balance)
    (slashedImbalance : GenericAsset.NegativeImbalance) (reporters : List AccountId) : GenericAsset.State AccountId :=
  if rewardPayout = 0 ∨ reporters = [] then cfg.onUnbalanced assets slashedImbalance
  else
    let rewardPayout := if rewardPayout.toNat ≤ slashedImbalance.amount.toNat then rewardPayout else slashedImbalance.amount
    let (rewardPayout, valueSlashed) := slashedImbalance.split rewardPayout
    -- the number of reporters is a `u32` in the runtime, a program of 32 bits
    let perReporter := BitVec.ofNat 128 (rewardPayout.amount.toNat / reporters.length)
    let (assets, rest) := payEach cfg perReporter assets rewardPayout reporters
    -- the rest goes to the on-slash imbalance handler (e.g. treasury)
    cfg.onUnbalanced assets (valueSlashed.subsume rest)

def slashStakers (slashes : List (AccountId × Balance)) (s : Staking.State AccountId) (rewardPayout : Balance)
    (slashedImbalance : GenericAsset.NegativeImbalance) :
    Staking.State AccountId × Balance × GenericAsset.NegativeImbalance :=
  slashes.foldl (fun r slash => doSlash cfg.staking r.1 slash.1 slash.2 r.2.1 r.2.2) (s, rewardPayout, slashedImbalance)

def applySlash (s : Staking.State AccountId) (unappliedSlash : UnappliedSlash AccountId) : Staking.State AccountId :=
  let (assets, slashedImbalance) := GenericAsset.AssetCurrency.issue s.assets cfg.staking.stakingAssetId 0
  let (s, rewardPayout, slashedImbalance) :=
    slashStakers cfg ((unappliedSlash.validator, unappliedSlash.own) :: unappliedSlash.others) { s with assets := assets }
      unappliedSlash.payout slashedImbalance
  { s with assets := payReporters cfg s.assets rewardPayout slashedImbalance unappliedSlash.reporters }

end

end Slashing

end Staking
