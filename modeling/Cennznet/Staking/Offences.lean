import Cennznet.Staking.Slashing

/-! # Offences

The part of `crml/staking` that handles reports of offences. While the election window is open reports are deferred. A
slash is recorded under the active era and applied when the duration for which slashes are deferred has passed. -/

namespace Staking.Slashing

open GenericAsset (Balance)
open Result

variable {AccountId : Type} [DecidableEq AccountId] (cfg : Config AccountId)

/-! ### Reports -/

variable (s : State AccountId)

def slashEra (activeEra : EraIndex) (slashSession : SessionIndex) : Option EraIndex × Weight :=
  let activeEraStartSessionIndex := s.eras.erasStartSessionIndex.getD activeEra 0
  if activeEraStartSessionIndex.toNat ≤ slashSession.toNat then (some activeEra, 0)
  else
    -- reverse because it's more likely to find reports from recent eras
    ((s.bondedEras.reverse.find? fun era => era.2.toNat ≤ slashSession.toNat).map Prod.fst, cfg.dbWeight.readsWrites 1 0)

def slashOffender (details : OffenceDetails AccountId) (params : SlashParams AccountId) :
    State AccountId × Option (UnappliedSlash AccountId) :=
  let (s, unapplied) := computeSlash cfg s params
  (s, unapplied.map fun slash => { slash with reporters := details.reporters })

def recordSlash (activeEra : EraIndex) (unapplied : UnappliedSlash AccountId) : State AccountId :=
  if cfg.slashDeferDuration = 0 then { s with staking := applySlash cfg s.staking unapplied }
  else
    let forLater := s.unappliedSlashes.getD activeEra []
    { s with unappliedSlashes := s.unappliedSlashes.insert activeEra (forLater ++ [unapplied]) }

/-- The weight of a slash that was computed, and applied unless slashes are deferred. -/
def slashWeight (unapplied : UnappliedSlash AccountId) : Weight :=
  let nominatorsLen := BitVec.ofNat 64 unapplied.others.length
  let reportersLen := BitVec.ofNat 64 unapplied.reporters.length
  let rw := 3 + nominatorsLen * 3
  cfg.dbWeight.readsWrites rw rw +
    if cfg.slashDeferDuration = 0 then
      cfg.dbWeight.readsWrites ((1 + nominatorsLen) * 6 + 2 * reportersLen) ((1 + nominatorsLen) * 5 + 2 * reportersLen)
    else cfg.dbWeight.readsWrites 1 1

structure ReportTerms where
  activeEra : EraIndex
  slashEra : EraIndex
  windowStart : EraIndex
  disableStrategy : DisableStrategy

def ReportTerms.params (terms : ReportTerms) (details : OffenceDetails AccountId) (slashFraction : Perbill) :
    SlashParams AccountId where
  stash := details.offender.1
  slash := slashFraction
  exposure := details.offender.2
  slashEra := terms.slashEra
  windowStart := terms.windowStart
  now := terms.activeEra
  rewardProportion := cfg.slashRewardFraction
  disableStrategy := terms.disableStrategy

def handleOffender (terms : ReportTerms) (r : State AccountId × Weight)
    (offender : OffenceDetails AccountId × Perbill) : State AccountId × Weight :=
  -- skip if the validator is invulnerable
  if offender.1.offender.1 ∈ r.1.invulnerables then r
  else
    match slashOffender cfg r.1 offender.1 (terms.params cfg offender.1 offender.2) with
    | (s, some unapplied) => (recordSlash cfg s terms.activeEra unapplied, r.2 + slashWeight cfg unapplied)
    | (s, none) => (s, r.2 + cfg.dbWeight.readsWrites 4 5)

def onOffence (offence : DeferredOffence AccountId) (disableStrategy : DisableStrategy) : State AccountId × Weight :=
  if s.staking.electionClosed = false then ({ s with deferredOffences := s.deferredOffences ++ [offence] }, 0)
  else
    let weight := cfg.dbWeight.readsWrites 1 0
    match s.eras.activeEra with
    -- this offence need not be re-submitted
    | none => (s, weight)
    | some activeEra =>
      let (era, eraWeight) := slashEra cfg s activeEra offence.slashSession
      let weight := weight + cfg.dbWeight.readsWrites 1 0 + eraWeight
      match era with
      -- before bonding period
      | none => (s, weight)
      | some era =>
        let s := { s with earliestUnappliedSlash := some (s.earliestUnappliedSlash.getD activeEra) }
        let weight := weight + cfg.dbWeight.readsWrites 1 1 + cfg.dbWeight.readsWrites 1 0
        let terms : ReportTerms :=
          { activeEra := activeEra, slashEra := era
            windowStart := Word.saturatingSub activeEra cfg.staking.bondingDuration, disableStrategy := disableStrategy }
        (offence.offenders.zip offence.slashFraction).foldl (handleOffender cfg terms) (s, weight)

/-- The deferred reports: one is handled while the limit is not consumed, and kept otherwise. -/
def retainDeferred (s : State AccountId) (consumed : Weight) :
    List (DeferredOffence AccountId) → State AccountId × Weight × List (DeferredOffence AccountId)
  | [] => (s, consumed, [])
  | offence :: deferred =>
    if cfg.weightSoftLimit.toNat ≤ consumed.toNat then
      let (s, consumed, kept) := retainDeferred s consumed deferred
      (s, consumed, offence :: kept)
    else
      let (s, weight) := onOffence cfg s offence .whenSlashed
      retainDeferred s (consumed + weight) deferred

def offencesOnInitialize : State AccountId × Weight :=
  if s.staking.electionClosed = false then (s, 0)
  else
    let (s, consumed, kept) := retainDeferred cfg s 0 s.deferredOffences
    ({ s with deferredOffences := kept }, consumed)

/-! ### Eras -/

def applyEraSlashes (era : EraIndex) : State AccountId :=
  { s with
    unappliedSlashes := s.unappliedSlashes.remove era
    staking := (s.unappliedSlashes.getD era []).foldl (applySlash cfg) s.staking }

def applyUnappliedSlashes (activeEra : EraIndex) : State AccountId :=
  match s.earliestUnappliedSlash with
  | none => s
  | some earliest =>
    let keepFrom := Word.saturatingSub activeEra cfg.slashDeferDuration
    let eras := (List.range' earliest.toNat (keepFrom.toNat - earliest.toNat)).map (BitVec.ofNat 32)
    let s := eras.foldl (applyEraSlashes cfg) s
    { s with earliestUnappliedSlash := some (if earliest.toNat ≤ keepFrom.toNat then keepFrom else earliest) }

def pruneBondedEras (activeEra : EraIndex) (startSession : SessionIndex) : State AccountId :=
  let bonded := s.bondedEras ++ [(activeEra, startSession)]
  if cfg.staking.bondingDuration.toNat < activeEra.toNat then
    let firstKept := activeEra - cfg.staking.bondingDuration
    -- prune out everything that's from before the first-kept index
    let pruned := bonded.takeWhile fun era => era.1.toNat < firstKept.toNat
    { s with
      bondedEras := bonded.drop pruned.length
      metadata := pruned.foldl (fun m era => clearEraMetadata m era.1) s.metadata }
  else { s with bondedEras := bonded }

def startEra (s : State AccountId) (startSession : SessionIndex) : State AccountId :=
  let activeEra := (s.eras.activeEra.map (· + 1)).getD 0
  let s := { s with eras := s.eras.startEra }
  let s := pruneBondedEras cfg s activeEra startSession
  applyUnappliedSlashes cfg s activeEra

/-! ### Cancelling -/

def isSortedAndUnique : List (BitVec 32) → Bool
  | a :: b :: list => a.toNat < b.toNat && isSortedAndUnique (b :: list)
  | _ => true

/-- Removes the slashes with these indices, after `removed` others. -/
def removeSlashes {α : Type} : Nat → List (BitVec 32) → List α → List α
  | _, [], unapplied => unapplied
  | removed, index :: indices, unapplied => removeSlashes (removed + 1) indices (unapplied.eraseIdx (index.toNat - removed))

def cancelDeferredSlash (era : EraIndex) (slashIndices : List (BitVec 32)) : Except Error (State AccountId) := do
  ensure (slashIndices.isEmpty = false) .emptyTargets
  ensure (isSortedAndUnique slashIndices = true) .notSortedAndUnique
  let unapplied := s.unappliedSlashes.getD era []
  ensure (slashIndices.getLast?.all fun last => last.toNat < unapplied.length) .invalidSlashIndex
  pure { s with unappliedSlashes := s.unappliedSlashes.insert era (removeSlashes 0 slashIndices unapplied) }

end Staking.Slashing
