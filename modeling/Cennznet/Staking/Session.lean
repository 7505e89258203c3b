import Cennznet.EthBridge

/-! # Sessions and eras

The part of `crml/staking` that plans eras over the sessions of `pallet_session`, and the rotation of a session, in
which the bridge learns of the change of validators. An era is planned one session before it starts. The election and
the bridge keys registered are parameters of each rotation. -/

namespace Staking

abbrev SessionIndex := BitVec 32
abbrev EraIndex := BitVec 32

inductive Forcing where
  | notForcing
  | forceNew
  | forceNone
  | forceAlways
deriving DecidableEq, Repr

structure Eras where
  currentEra : Option EraIndex
  activeEra : Option EraIndex
  erasStartSessionIndex : StorageMap EraIndex SessionIndex
  historyDepth : EraIndex
  forceEra : Forcing
  isCurrentSessionFinal : Bool
  isActiveSessionFinal : Bool
  wasEndEraForced : Bool

variable {AccountId EthyId : Type}

namespace Eras

/-! ### Forcing -/

def willEraBeForced (s : Eras) : Bool :=
  match s.forceEra with
  | .forceAlways | .forceNew => true
  | .forceNone | .notForcing => false

def ensureNewEra (s : Eras) : Eras :=
  let forceEra := match s.forceEra with
    | .forceAlways => .forceAlways
    | _ => .forceNew
  { s with forceEra := forceEra, isCurrentSessionFinal := true }

/-! ### Planning -/

def closeElectionWindow (s : Eras) : Eras := { s with isCurrentSessionFinal := false }

def newEra (election : Option (List AccountId)) (s : Eras) (startSessionIndex : SessionIndex) :
    Eras × Option (List AccountId) :=
  let currentEra := (s.currentEra.map (· + 1)).getD 0
  let erasStartSessionIndex := s.erasStartSessionIndex.insert currentEra startSessionIndex
  let erasStartSessionIndex := match Word.checkedSub currentEra (s.historyDepth + 1) with
    | some oldEra => erasStartSessionIndex.remove oldEra
    | none => erasStartSessionIndex
  let s := { s with currentEra := some currentEra, erasStartSessionIndex := erasStartSessionIndex }
  match election with
  | some electedStashes => (closeElectionWindow s, some electedStashes)
  | none => (s, none)

def eraLength (s : Eras) (currentEra : EraIndex) (sessionIndex : SessionIndex) : SessionIndex :=
  (Word.checkedSub sessionIndex (s.erasStartSessionIndex.getD currentEra 0)).getD 0

def moveFlags (s : Eras) : Eras :=
  let s := if s.willEraBeForced then { s with wasEndEraForced := true } else s
  -- if this is set, then the active session is done, it's a new era
  let s := if s.isActiveSessionFinal then { s with isActiveSessionFinal := false } else s
  if s.isCurrentSessionFinal then { s with isCurrentSessionFinal := false, isActiveSessionFinal := true } else s

def newSession (sessionsPerEra : SessionIndex) (election : Option (List AccountId)) (s : Eras)
    (sessionIndex : SessionIndex) : Eras × Option (List AccountId) :=
  match s.currentEra with
  | some currentEra =>
    let eraLength := s.eraLength currentEra sessionIndex
    let s := s.moveFlags
    match s.forceEra with
    | .forceNew => newEra election { s with forceEra := .notForcing } sessionIndex
    | .forceAlways => newEra election s sessionIndex
    | .notForcing =>
      if sessionsPerEra.toNat ≤ eraLength.toNat then newEra election s sessionIndex
      else if eraLength + 1 = sessionsPerEra then ({ s with isCurrentSessionFinal := true }, none)
      else (s, none)
    | .forceNone =>
      if eraLength + 1 = sessionsPerEra then ({ s with isCurrentSessionFinal := true }, none)
      else if sessionsPerEra.toNat ≤ eraLength.toNat then (closeElectionWindow s, none)
      else (s, none)
  | none => newEra election s sessionIndex

/-! ### Starting and ending -/

def startEra (s : Eras) : Eras := { s with activeEra := some ((s.activeEra.map (· + 1)).getD 0) }

def startSession (s : Eras) (startSession : SessionIndex) : Eras :=
  let nextActiveEra := (s.activeEra.map (· + 1)).getD 0
  match s.erasStartSessionIndex.get? nextActiveEra with
  | some nextActiveEraStartSessionIndex =>
    if nextActiveEraStartSessionIndex = startSession then s.startEra
    -- a session appears to have been skipped
    else if nextActiveEraStartSessionIndex.toNat < startSession.toNat then s.startEra
    else s
  | none => s

def endEra (s : Eras) : Eras := { s with wasEndEraForced := false }

def endSession (s : Eras) (sessionIndex : SessionIndex) : Eras :=
  match s.activeEra with
  | some activeEra =>
    match s.erasStartSessionIndex.get? (activeEra + 1) with
    | some nextActiveEraStartSessionIndex =>
      if nextActiveEraStartSessionIndex = sessionIndex + 1 then s.endEra else s
    | none => s
  | none => s

end Eras

/-! ### Sessions -/

structure Chain (EthyId AccountId : Type) where
  eras : Eras
  currentIndex : SessionIndex
  validators : List AccountId
  queuedKeys : List (AccountId × EthyId)
  bridge : EthBridge.State EthyId AccountId
  /-- For each era the bridge keys of its planned validators. A record, not in storage. -/
  electedKeys : StorageMap EraIndex (List EthyId)

def sessionEnv (s : Eras) (env : EthBridge.Env AccountId) : EthBridge.Env AccountId :=
  { env with isNextSessionFinal := s.isCurrentSessionFinal, isActiveSessionFinal := s.isActiveSessionFinal }

structure Rotation (EthyId AccountId : Type) where
  env : EthBridge.Env AccountId
  election : Option (List AccountId)
  loadKeys : AccountId → EthyId

def queue (r : Rotation EthyId AccountId) (planned : Option (List AccountId)) (validators : List AccountId) :
    List (AccountId × EthyId) :=
  (planned.getD validators).map fun validator => (validator, r.loadKeys validator)

def recordEra (before after : Eras) (queued : List (AccountId × EthyId)) (electedKeys : StorageMap EraIndex (List EthyId)) :
    StorageMap EraIndex (List EthyId) :=
  match after.currentEra with
  | some era => if before.currentEra = some era then electedKeys else electedKeys.insert era (queued.map Prod.snd)
  | none => electedKeys

/-- Ends the session, starts the next and plans the one after it. -/
def rotateSession (sessionsPerEra : SessionIndex) (r : Rotation EthyId AccountId) (s : Chain EthyId AccountId) :
    Chain EthyId AccountId :=
  let bridge := EthBridge.onBeforeSessionEnding (sessionEnv s.eras r.env) s.bridge
  let ended := s.eras.endSession s.currentIndex
  let validators := s.queuedKeys.map Prod.fst
  let sessionIndex := s.currentIndex + 1
  let started := ended.startSession sessionIndex
  let (planned, maybeNextValidators) := started.newSession sessionsPerEra r.election (sessionIndex + 1)
  let queuedKeys := queue r maybeNextValidators validators
  { eras := planned
    currentIndex := sessionIndex
    validators := validators
    queuedKeys := queuedKeys
    bridge := EthBridge.onNewSession (sessionEnv planned r.env) bridge (s.queuedKeys.map Prod.snd)
      (queuedKeys.map Prod.snd)
    electedKeys := recordEra started planned queuedKeys s.electedKeys }

def Eras.empty (historyDepth : EraIndex) : Eras where
  currentEra := none
  activeEra := none
  erasStartSessionIndex := ∅
  historyDepth := historyDepth
  forceEra := .notForcing
  isCurrentSessionFinal := false
  isActiveSessionFinal := false
  wasEndEraForced := false

/-- The chain at genesis. Sessions 0 and 1 are planned, and 0 starts. -/
def Chain.genesis (sessionsPerEra : SessionIndex) (historyDepth : EraIndex) (r : Rotation EthyId AccountId)
    (initialValidators : List AccountId) (eventDeadlineSeconds : EthBridge.Seconds := 604800) :
    Chain EthyId AccountId :=
  let (first, elected) := (Eras.empty historyDepth).newSession sessionsPerEra r.election 0
  let validators := elected.getD initialValidators
  let (second, maybeNextValidators) := first.newSession sessionsPerEra r.election 1
  let queuedKeys := queue r maybeNextValidators validators
  { eras := second.startSession 0
    currentIndex := 0
    validators := validators
    queuedKeys := queuedKeys
    bridge := EthBridge.State.genesis (queuedKeys.map Prod.snd) eventDeadlineSeconds
    electedKeys := recordEra first second queuedKeys
      (recordEra (.empty historyDepth) first (queue r elected initialValidators) ∅) }

/-! ### Steps -/

inductive ChainOp (EthyId AccountId : Type) where
  | rotateSession (r : Rotation EthyId AccountId)
  | forceNoEras
  | forceNewEra
  | forceNewEraAlways
  /-- A step of the bridge other than its session handlers. -/
  | bridge (op : EthBridge.Op EthyId AccountId)

variable [DecidableEq EthyId]

/-- Only the rotation calls the session handlers of the bridge. -/
def bridgeStep (cfg : EthBridge.Config) (bridge : EthBridge.State EthyId AccountId) (op : EthBridge.Op EthyId AccountId) :
    EthBridge.State EthyId AccountId :=
  match op.call with
  | .onNewSession _ _ | .onBeforeSessionEnding => bridge
  | _ => EthBridge.step cfg bridge op

def chainStep (cfg : EthBridge.Config) (sessionsPerEra : SessionIndex) (s : Chain EthyId AccountId) :
    ChainOp EthyId AccountId → Chain EthyId AccountId
  | .rotateSession r => rotateSession sessionsPerEra r s
  | .forceNoEras => { s with eras := { s.eras with forceEra := .forceNone } }
  | .forceNewEra => { s with eras := s.eras.ensureNewEra }
  | .forceNewEraAlways => { s with eras := { s.eras with forceEra := .forceAlways } }
  | .bridge op => { s with bridge := bridgeStep cfg s.bridge op }

end Staking
