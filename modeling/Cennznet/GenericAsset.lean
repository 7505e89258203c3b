import Cennznet.Lib.Storage
import Cennznet.Lib.Word

/-! # The asset ledger

`crml/generic-asset`: balances of many assets, free and reserved, with locks and existential deposits. Amounts are
`u128`; unchecked `+` and `-` wrap around. Dust goes to the account of `TransferDustImbalance`, as in the runtime.
Events, provider counts and the symbol of an asset are left out. -/

namespace GenericAsset

abbrev Balance := BitVec 128
abbrev AssetId := BitVec 32
abbrev LockIdentifier := BitVec 64

inductive Error where
  | assetIdExhausted
  | zeroAmount
  | noUpdatePermission
  | noMintPermission
  | noBurnPermission
  | totalMintingOverflow
  | freeMintingOverflow
  | totalBurningUnderflow
  | freeBurningUnderflow
  | assetIdExists
  | assetIdNotExist
  | insufficientBalance
  | transferOverflow
  | liquidityRestrictions
  | zeroExistentialDeposit
  | accountIdNotExist
  | decimalTooLarge
  | initialIssuanceTooLarge
deriving DecidableEq, Repr

/-! ### Types -/

abbrev WithdrawReasons := BitVec 8

namespace WithdrawReasons

def transactionPayment : WithdrawReasons := 0b00000001
def transfer : WithdrawReasons := 0b00000010
def reserve : WithdrawReasons := 0b00000100
def all : WithdrawReasons := 0b00011111

end WithdrawReasons

inductive Reasons where
  | fee
  | misc
  | all
deriving DecidableEq, Repr

def Reasons.ofWithdrawReasons (r : WithdrawReasons) : Reasons :=
  if r = WithdrawReasons.transactionPayment then .fee
  else if r &&& WithdrawReasons.transactionPayment = WithdrawReasons.transactionPayment then .all
  else .misc

def Reasons.bitor (r other : Reasons) : Reasons := if r = other then r else .all

structure BalanceLock where
  id : LockIdentifier
  amount : Balance
  reasons : Reasons
deriving DecidableEq, Repr

structure AllBalances where
  reserved : Balance
  staked : Balance
  available : Balance

structure AssetInfo where
  decimalPlaces : BitVec 8 := 4
  existentialDeposit : BitVec 64 := 1
deriving DecidableEq, Repr

instance : Inhabited AssetInfo := ⟨{}⟩

/-- Who may update, mint and burn; `none` is nobody. -/
structure PermissionsV1 (AccountId : Type) where
  update : Option AccountId := none
  mint : Option AccountId := none
  burn : Option AccountId := none
deriving DecidableEq

def PermissionsV1.new {AccountId : Type} (owner : AccountId) : PermissionsV1 AccountId :=
  { update := some owner, mint := some owner, burn := some owner }

structure AssetOptions (AccountId : Type) where
  initialIssuance : Balance
  permissions : PermissionsV1 AccountId

inductive PermissionType where
  | burn
  | mint
  | update
deriving DecidableEq, Repr

structure NegativeImbalance where
  amount : Balance
  assetId : AssetId
deriving DecidableEq, Repr

structure PositiveImbalance where
  amount : Balance
  assetId : AssetId
deriving DecidableEq, Repr

/-- What a withdrawal would come to, of the answers the ledger gives. -/
inductive WithdrawConsequence where
  | noFunds
  | success
deriving DecidableEq, Repr

inductive SameOrOther (A B : Type) where
  | none
  | same (a : A)
  | other (b : B)

inductive SignedImbalance where
  | positive (p : PositiveImbalance)
  | negative (n : NegativeImbalance)

structure Config (AccountId : Type) where
  dustAccount : AccountId

structure State (AccountId : Type) where
  totalIssuance : StorageMap AssetId Balance
  freeBalance : StorageMap (AssetId × AccountId) Balance
  reservedBalance : StorageMap (AssetId × AccountId) Balance
  nextAssetId : AssetId
  permissions : StorageMap AssetId (PermissionsV1 AccountId)
  locks : StorageMap (AssetId × AccountId) (List BalanceLock)
  assetMeta : StorageMap AssetId AssetInfo

variable {AccountId : Type}

def State.genesis (nextAssetId : AssetId) : State AccountId where
  totalIssuance := ∅
  freeBalance := ∅
  reservedBalance := ∅
  nextAssetId := nextAssetId
  permissions := ∅
  locks := ∅
  assetMeta := ∅

def State.issuanceOf (s : State AccountId) (assetId : AssetId) : Balance := s.totalIssuance.getD assetId 0

def State.existentialDeposit (s : State AccountId) (assetId : AssetId) : Balance :=
  (s.assetMeta.getD assetId default).existentialDeposit.setWidth 128

/-! ### Imbalances -/

def NegativeImbalance.zero : NegativeImbalance := ⟨0, 0⟩

def PositiveImbalance.zero : PositiveImbalance := ⟨0, 0⟩

def NegativeImbalance.offset (n : NegativeImbalance) (p : PositiveImbalance) :
    SameOrOther NegativeImbalance PositiveImbalance :=
  if p.amount.toNat ≤ n.amount.toNat then .same ⟨n.amount - p.amount, n.assetId⟩
  else .other ⟨p.amount - n.amount, n.assetId⟩

def NegativeImbalance.split (n : NegativeImbalance) (amount : Balance) : NegativeImbalance × NegativeImbalance :=
  let first := if n.amount.toNat ≤ amount.toNat then n.amount else amount
  (⟨first, n.assetId⟩, ⟨n.amount - first, n.assetId⟩)

/-- Adds another imbalance, whatever its asset. -/
def NegativeImbalance.subsume (n other : NegativeImbalance) : NegativeImbalance :=
  { n with amount := Word.saturatingAdd n.amount other.amount }

def PositiveImbalance.offset (p : PositiveImbalance) (n : NegativeImbalance) :
    SameOrOther PositiveImbalance NegativeImbalance :=
  if n.amount.toNat ≤ p.amount.toNat then .same ⟨p.amount - n.amount, p.assetId⟩
  else .other ⟨n.amount - p.amount, p.assetId⟩

def PositiveImbalance.split (p : PositiveImbalance) (amount : Balance) : PositiveImbalance × PositiveImbalance :=
  let first := if p.amount.toNat ≤ amount.toNat then p.amount else amount
  (⟨first, p.assetId⟩, ⟨p.amount - first, p.assetId⟩)

def PositiveImbalance.subsume (p other : PositiveImbalance) : PositiveImbalance :=
  { p with amount := Word.saturatingAdd p.amount other.amount }

def dropNegative (s : State AccountId) (n : NegativeImbalance) : State AccountId :=
  { s with totalIssuance := s.totalIssuance.insert n.assetId (Word.saturatingSub (s.issuanceOf n.assetId) n.amount) }

def dropPositive (s : State AccountId) (p : PositiveImbalance) : State AccountId :=
  { s with totalIssuance := s.totalIssuance.insert p.assetId (Word.saturatingAdd (s.issuanceOf p.assetId) p.amount) }

def dropSigned (s : State AccountId) : SignedImbalance → State AccountId
  | .positive p => dropPositive s p
  | .negative n => dropNegative s n

section
variable [DecidableEq AccountId]

section
variable (cfg : Config AccountId) (s : State AccountId)

def State.free (assetId : AssetId) (who : AccountId) : Balance :=
  s.freeBalance.getD (assetId, who) 0

def State.reserved (assetId : AssetId) (who : AccountId) : Balance :=
  s.reservedBalance.getD (assetId, who) 0

def setFreeBalance (assetId : AssetId) (who : AccountId) (free : Balance) : State AccountId :=
  { s with freeBalance := s.freeBalance.insert (assetId, who) free }

def setReservedBalance (assetId : AssetId) (who : AccountId) (reserved : Balance) : State AccountId :=
  if reserved = 0 then { s with reservedBalance := s.reservedBalance.remove (assetId, who) }
  else { s with reservedBalance := s.reservedBalance.insert (assetId, who) reserved }

/-- `TransferDustImbalance::on_nonzero_unbalanced`: the imbalance is forgotten, not dropped. -/
def onNonzeroUnbalanced (n : NegativeImbalance) : State AccountId :=
  setFreeBalance s n.assetId cfg.dustAccount (Word.saturatingAdd (s.free n.assetId cfg.dustAccount) n.amount)

def reclaimFreeBalance (assetId : AssetId) (who : AccountId) : State AccountId :=
  let amount := s.free assetId who
  let s := { s with freeBalance := s.freeBalance.remove (assetId, who) }
  if 0 < amount.toNat then onNonzeroUnbalanced cfg s ⟨amount, assetId⟩ else s

/-! ### Genesis -/

structure GenesisConfig (AccountId : Type) where
  assets : List AssetId
  initialBalance : Balance
  endowedAccounts : List AccountId
  nextAssetId : AssetId
  permissions : List (AssetId × AccountId)
  assetMeta : List (AssetId × AssetInfo)

def State.configured (config : GenesisConfig AccountId) : State AccountId :=
  let issuance := config.initialBalance * BitVec.ofNat 128 (config.endowedAccounts.length % 2 ^ 32)
  { State.genesis config.nextAssetId with
    totalIssuance := StorageMap.insertAll ∅ config.assets issuance
    permissions := config.permissions.foldl (fun m p => m.insert p.1 (.new p.2)) ∅
    assetMeta := config.assetMeta.foldl (fun m p => m.insert p.1 p.2) ∅ }

/-- The first state of a chain: each asset is issued once per endowed account. -/
def State.build (config : GenesisConfig AccountId) : State AccountId :=
  config.assets.foldl
    (fun s assetId => config.endowedAccounts.foldl (fun s who => setFreeBalance s assetId who config.initialBalance) s)
    (State.configured config)

/-! ### Permissions and creation -/

def checkPermission (assetId : AssetId) (who : AccountId) (what : PermissionType) : Bool :=
  let permission := s.permissions.getD assetId {}
  match what with
  | .burn => permission.burn = some who
  | .mint => permission.mint = some who
  | .update => permission.update = some who

def mintFree (assetId : AssetId) (who dest : AccountId) (amount : Balance) : Except Error (State AccountId) :=
  if checkPermission s assetId who .mint then
    match Word.checkedAdd (s.issuanceOf assetId) amount with
    | none => .error .totalMintingOverflow
    | some newTotalIssuance =>
      match Word.checkedAdd (s.free assetId dest) amount with
      | none => .error .freeMintingOverflow
      | some value =>
        let s := { s with totalIssuance := s.totalIssuance.insert assetId newTotalIssuance }
        .ok (setFreeBalance s assetId dest value)
  else .error .noMintPermission

def burnFree (assetId : AssetId) (who dest : AccountId) (amount : Balance) : Except Error (State AccountId) :=
  if checkPermission s assetId who .burn then
    match Word.checkedSub (s.issuanceOf assetId) amount with
    | none => .error .totalBurningUnderflow
    | some newTotalIssuance =>
      match Word.checkedSub (s.free assetId dest) amount with
      | none => .error .freeBurningUnderflow
      | some value =>
        let s := { s with totalIssuance := s.totalIssuance.insert assetId newTotalIssuance }
        .ok (setFreeBalance s assetId dest value)
  else .error .noBurnPermission

def chooseAssetId (assetId : Option AssetId) : Except Error (AssetId × AssetId) :=
  match assetId with
  | some assetId =>
    if assetId = 0 then .error .assetIdExists
    else if s.totalIssuance.contains assetId then .error .assetIdExists
    else if ¬assetId.toNat < s.nextAssetId.toNat then .error .assetIdExists
    else .ok (assetId, s.nextAssetId)
  | none =>
    match Word.checkedAdd s.nextAssetId 1 with
    | none => .error .assetIdExhausted
    | some nextId => .ok (s.nextAssetId, nextId)

def createAsset [Inhabited AccountId] (s : State AccountId) (assetId : Option AssetId) (fromAccount : Option AccountId)
    (options : AssetOptions AccountId) (info : AssetInfo) : Except Error (State AccountId) :=
  if info.existentialDeposit = 0 then .error .zeroExistentialDeposit
  else if ¬10 ^ info.decimalPlaces.toNat < 2 ^ 128 then .error .decimalTooLarge
  else
    match Word.checkedMul (BitVec.ofNat 128 (10 ^ info.decimalPlaces.toNat)) options.initialIssuance with
    | none => .error .initialIssuanceTooLarge
    | some totalIssuance =>
      match chooseAssetId s assetId with
      | .error e => .error e
      | .ok (assetId, nextId) =>
        let s := { s with nextAssetId := nextId, totalIssuance := s.totalIssuance.insert assetId totalIssuance }
        let s := setFreeBalance s assetId (fromAccount.getD default) totalIssuance
        .ok { s with
          permissions := s.permissions.insert assetId options.permissions
          assetMeta := s.assetMeta.insert assetId info }

/-! ### Moving balances -/

def BalanceLock.allows (l : BalanceLock) (reasons : WithdrawReasons) (newBalance : Balance) : Bool :=
  decide (l.amount.toNat ≤ newBalance.toNat) ||
    (decide (Reasons.ofWithdrawReasons reasons ≠ .all) && decide (l.reasons ≠ .all) &&
      decide (l.reasons ≠ Reasons.ofWithdrawReasons reasons))

def ensureCanWithdraw (assetId : AssetId) (who : AccountId) (amount : Balance) (reasons : WithdrawReasons)
    (newBalance : Balance) : Except Error Unit :=
  if amount = 0 then .ok ()
  else if (s.locks.getD (assetId, who) []).all fun l => l.allows reasons newBalance then .ok ()
  else .error .liquidityRestrictions

/-- The locks are added up, and taken from the free balance without a test. -/
def getAllBalances (who : AccountId) (assetId : AssetId) : AllBalances :=
  let staked := ((s.locks.getD (assetId, who) []).map (·.amount)).foldl (· + ·) 0
  { reserved := s.reserved assetId who, staked := staked, available := s.free assetId who - staked }

def makeTransfer (assetId : AssetId) (source dest : AccountId) (amount : Balance) : Except Error (State AccountId) :=
  match Word.checkedSub (s.free assetId source) amount with
  | none => .error .insufficientBalance
  | some newFromBalance =>
    match Word.checkedAdd (s.free assetId dest) amount with
    | none => .error .transferOverflow
    | some newToBalance =>
      match ensureCanWithdraw s assetId source amount .transfer newFromBalance with
      | .error e => .error e
      | .ok () =>
        if source = dest then .ok s
        else
          let s := setFreeBalance s assetId dest newToBalance
          let s := setFreeBalance s assetId source newFromBalance
          if newFromBalance.toNat < (s.existentialDeposit assetId).toNat then .ok (reclaimFreeBalance cfg s assetId source)
          else .ok s

def reserve (assetId : AssetId) (who : AccountId) (amount : Balance) : Except Error (State AccountId) :=
  let originalReserveBalance := s.reserved assetId who
  let originalFreeBalance := s.free assetId who
  if originalFreeBalance.toNat < amount.toNat then .error .insufficientBalance
  else
    let newReserveBalance := originalReserveBalance + amount
    let newFreeBalance := originalFreeBalance - amount
    let s :=
      if newFreeBalance.toNat < (s.existentialDeposit assetId).toNat then reclaimFreeBalance cfg s assetId who
      else { s with freeBalance := s.freeBalance.insert (assetId, who) newFreeBalance }
    .ok { s with reservedBalance := s.reservedBalance.insert (assetId, who) newReserveBalance }

def unreserve (assetId : AssetId) (who : AccountId) (amount : Balance) : State AccountId × Balance :=
  let b := s.reserved assetId who
  let actual := if b.toNat ≤ amount.toNat then b else amount
  let newFreeBalance := s.free assetId who + actual
  let s := setReservedBalance s assetId who (b - actual)
  ({ s with freeBalance := s.freeBalance.insert (assetId, who) newFreeBalance }, amount - actual)

def slashReserved (assetId : AssetId) (who : AccountId) (amount : Balance) : State AccountId × Option Balance :=
  let originalReserveBalance := s.reserved assetId who
  let slash := if originalReserveBalance.toNat ≤ amount.toNat then originalReserveBalance else amount
  let s := setReservedBalance s assetId who (originalReserveBalance - slash)
  (s, if amount = slash then none else some (amount - slash))

def slash (assetId : AssetId) (who : AccountId) (amount : Balance) : State AccountId × Option Balance :=
  let freeBalance := s.free assetId who
  let freeSlash := if freeBalance.toNat ≤ amount.toNat then freeBalance else amount
  let s := setFreeBalance s assetId who (freeBalance - freeSlash)
  if freeSlash.toNat < amount.toNat then slashReserved s assetId who (amount - freeSlash) else (s, none)

def repatriateReserved (assetId : AssetId) (payee beneficiary : AccountId) (amount : Balance) :
    State AccountId × Balance :=
  if amount = 0 then (s, 0)
  else
    let payeeReserveBalance := s.reserved assetId payee
    let repatriatedAmount := if payeeReserveBalance.toNat ≤ amount.toNat then payeeReserveBalance else amount
    let newBeneficiaryFreeBalance := s.free assetId beneficiary + repatriatedAmount
    let s := { s with freeBalance := s.freeBalance.insert (assetId, beneficiary) newBeneficiaryFreeBalance }
    (setReservedBalance s assetId payee (payeeReserveBalance - repatriatedAmount), amount - repatriatedAmount)

/-! ### Locks -/

/-- The new lock replaces the first with its identifier, or is added; others with the identifier go. -/
def replaceLock (id : LockIdentifier) : Option BalanceLock → List BalanceLock → List BalanceLock
  | newLock, [] => newLock.toList
  | newLock, l :: locks =>
    if l.id = id then newLock.toList ++ replaceLock id none locks else l :: replaceLock id newLock locks

def setLock (id : LockIdentifier) (assetId : AssetId) (who : AccountId) (amount : Balance) (reasons : WithdrawReasons) :
    State AccountId :=
  let newLock : BalanceLock := { id := id, amount := amount, reasons := .ofWithdrawReasons reasons }
  let locks := replaceLock id (some newLock) (s.locks.getD (assetId, who) [])
  { s with locks := s.locks.insert (assetId, who) locks }

def BalanceLock.extend (l nl : BalanceLock) : BalanceLock where
  id := l.id
  amount := if l.amount.toNat ≤ nl.amount.toNat then nl.amount else l.amount
  reasons := l.reasons.bitor nl.reasons

/-- The first lock with the identifier is combined with the new one, or that is added; others with it go. -/
def mergeLock (combine : BalanceLock → BalanceLock → BalanceLock) (id : LockIdentifier) :
    Option BalanceLock → List BalanceLock → List BalanceLock
  | newLock, [] => newLock.toList
  | newLock, l :: locks =>
    if l.id = id then (newLock.map (combine l)).toList ++ mergeLock combine id none locks
    else l :: mergeLock combine id newLock locks

def extendLock (id : LockIdentifier) (assetId : AssetId) (who : AccountId) (amount : Balance) (reasons : WithdrawReasons) :
    State AccountId :=
  let newLock : BalanceLock := { id := id, amount := amount, reasons := .ofWithdrawReasons reasons }
  let locks := mergeLock .extend id (some newLock) (s.locks.getD (assetId, who) [])
  { s with locks := s.locks.insert (assetId, who) locks }

def removeLock (id : LockIdentifier) (assetId : AssetId) (who : AccountId) : State AccountId :=
  let locks := (s.locks.getD (assetId, who) []).filter (·.id ≠ id)
  if locks.isEmpty then { s with locks := s.locks.remove (assetId, who) }
  else { s with locks := s.locks.insert (assetId, who) locks }

/-! ### Calls -/

inductive Call (AccountId : Type) where
  | create (owner : AccountId) (options : AssetOptions AccountId) (info : AssetInfo)
  | transfer (origin : AccountId) (assetId : AssetId) (dest : AccountId) (amount : Balance)
  | transferAll (origin : AccountId) (assetId : AssetId) (dest : AccountId)
  | updatePermission (origin : AccountId) (assetId : AssetId) (newPermission : PermissionsV1 AccountId)
  | updateAssetInfo (origin : AccountId) (assetId : AssetId) (info : AssetInfo)
  | mint (origin : AccountId) (assetId : AssetId) (dest : AccountId) (amount : Balance)
  | burn (origin : AccountId) (assetId : AssetId) (target : AccountId) (amount : Balance)
  | createReserved (assetId : AssetId) (options : AssetOptions AccountId) (info : AssetInfo)

def dispatch [Inhabited AccountId] (cfg : Config AccountId) (s : State AccountId) :
    Call AccountId → Except Error (State AccountId)
  | .create owner options info => createAsset s none (some owner) options info
  | .transfer origin assetId dest amount =>
    if amount = 0 then .error .zeroAmount else makeTransfer cfg s assetId origin dest amount
  | .transferAll origin assetId dest => makeTransfer cfg s assetId origin dest (s.free assetId origin)
  | .updatePermission origin assetId newPermission =>
    if checkPermission s assetId origin .update then
      .ok { s with permissions := s.permissions.insert assetId newPermission }
    else .error .noUpdatePermission
  | .updateAssetInfo origin assetId info =>
    if ¬s.totalIssuance.contains assetId then .error .assetIdNotExist
    else if ¬checkPermission s assetId origin .update then .error .noUpdatePermission
    else .ok { s with assetMeta := s.assetMeta.insert assetId info }
  | .mint origin assetId dest amount => mintFree s assetId origin dest amount
  | .burn origin assetId target amount => burnFree s assetId origin target amount
  | .createReserved assetId options info => createAsset s (some assetId) none options info

/-- A call that fails changes nothing: its checks precede its first write. -/
def step [Inhabited AccountId] (cfg : Config AccountId) (s : State AccountId) (call : Call AccountId) :
    State AccountId :=
  match dispatch cfg s call with
  | .ok s => s
  | .error _ => s

/-! ### `AssetCurrency` -/

end

namespace AssetCurrency

def withdraw (cfg : Config AccountId) (s : State AccountId) (assetId : AssetId) (who : AccountId) (value : Balance)
    (reasons : WithdrawReasons) : Except Error (State AccountId × NegativeImbalance) :=
  match Word.checkedSub (s.free assetId who) value with
  | none => .error .insufficientBalance
  | some newBalance =>
    match ensureCanWithdraw s assetId who value reasons newBalance with
    | .error e => .error e
    | .ok () =>
      if newBalance.toNat < (s.existentialDeposit assetId).toNat then
        .ok (reclaimFreeBalance cfg s assetId who, ⟨value, assetId⟩)
      else .ok (setFreeBalance s assetId who newBalance, ⟨value, assetId⟩)

def slash (s : State AccountId) (assetId : AssetId) (who : AccountId) (value : Balance) :
    State AccountId × NegativeImbalance × Balance :=
  match GenericAsset.slash s assetId who value with
  | (s, some r) => (s, ⟨value - r, assetId⟩, r)
  | (s, none) => (s, ⟨value, assetId⟩, 0)

def slashReserved (s : State AccountId) (assetId : AssetId) (who : AccountId) (value : Balance) :
    State AccountId × NegativeImbalance × Balance :=
  let (s, missing) := GenericAsset.slashReserved s assetId who value
  let leftover := missing.getD 0
  (s, ⟨value - leftover, assetId⟩, leftover)

end AssetCurrency

/-! ### `MultiCurrency` -/

namespace MultiCurrency

variable (cfg : Config AccountId) (s : State AccountId)

def makeFreeBalanceBe (who : AccountId) (currency : AssetId) (balance : Balance) : State AccountId × SignedImbalance :=
  let original := s.free currency who
  let imbalance : SignedImbalance :=
    if original.toNat ≤ balance.toNat then .positive ⟨balance - original, currency⟩
    else .negative ⟨original - balance, currency⟩
  (setFreeBalance s currency who balance, imbalance)

def depositCreating (who : AccountId) (currency : AssetId) (value : Balance) : State AccountId × PositiveImbalance :=
  if value = 0 then (s, .zero)
  else
    match makeFreeBalanceBe s who currency (s.free currency who + value) with
    | (s, .positive p) => (s, p)
    | (s, .negative n) => (dropNegative s n, .zero)

/-- The same as `depositCreating`: the source never returns an error. -/
def depositIntoExisting (who : AccountId) (currency : AssetId) (value : Balance) :
    State AccountId × PositiveImbalance :=
  depositCreating s who currency value

def transfer (transactor dest : AccountId) (currency : AssetId) (value : Balance) : Except Error (State AccountId) :=
  if value = 0 then .ok s else makeTransfer cfg s currency transactor dest value

def withdraw (who : AccountId) (currency : AssetId) (value : Balance) (reasons : WithdrawReasons) :
    Except Error (State AccountId × NegativeImbalance) :=
  if value = 0 then .ok (s, .zero)
  else
    match Word.checkedSub (s.free currency who) value with
    | none => .error .insufficientBalance
    | some newBalance =>
      match ensureCanWithdraw s currency who value reasons newBalance with
      | .error e => .error e
      | .ok () => .ok (setFreeBalance s currency who newBalance, ⟨value, currency⟩)

def reserve (cfg : Config AccountId) (s : State AccountId) (who : AccountId) (currency : AssetId) (amount : Balance) :
    Except Error (State AccountId) :=
  if amount = 0 then .ok s else GenericAsset.reserve cfg s currency who amount

def unreserve (s : State AccountId) (who : AccountId) (currency : AssetId) (amount : Balance) :
    State AccountId × Balance :=
  if amount = 0 then (s, 0) else GenericAsset.unreserve s currency who amount

def repatriateReserved (s : State AccountId) (who : AccountId) (currency : AssetId) (beneficiary : AccountId)
    (amount : Balance) : State AccountId × Balance :=
  GenericAsset.repatriateReserved s currency who beneficiary amount

def create [Inhabited AccountId] (s : State AccountId) (owner : AccountId) (initialSupply : Balance)
    (decimalPlaces : BitVec 8) (minimumBalance : BitVec 64) : Except Error (State AccountId × AssetId) :=
  match createAsset s none (some owner) { initialIssuance := initialSupply, permissions := .new owner }
      { decimalPlaces := decimalPlaces, existentialDeposit := minimumBalance } with
  | .error e => .error e
  | .ok s' => .ok (s', s.nextAssetId)

end MultiCurrency

namespace AssetCurrency

/-- Both currencies have one body for it. -/
def makeFreeBalanceBe (s : State AccountId) (assetId : AssetId) (who : AccountId) (balance : Balance) :
    State AccountId × SignedImbalance :=
  MultiCurrency.makeFreeBalanceBe s who assetId balance

variable (s : State AccountId)

def depositCreating (assetId : AssetId) (who : AccountId) (value : Balance) : State AccountId × PositiveImbalance :=
  match makeFreeBalanceBe s assetId who (s.free assetId who + value) with
  | (s, .positive p) => (s, p)
  | (s, .negative n) => (dropNegative s n, .zero)

/-- The new issuance is what the closure given to `mutate` returns, and is not stored. -/
def burn (assetId : AssetId) (amount : Balance) : State AccountId × PositiveImbalance :=
  let issued := s.issuanceOf assetId
  let s := { s with totalIssuance := s.totalIssuance.insert assetId issued }
  match Word.checkedSub issued amount with
  | some _ => (s, ⟨amount, assetId⟩)
  | none => (s, ⟨issued, assetId⟩)

def issue (assetId : AssetId) (amount : Balance) : State AccountId × NegativeImbalance :=
  let issued := s.issuanceOf assetId
  match Word.checkedAdd issued amount with
  | some total => ({ s with totalIssuance := s.totalIssuance.insert assetId total }, ⟨amount, assetId⟩)
  | none =>
    let rest := Word.maxValue 128 - issued
    ({ s with totalIssuance := s.totalIssuance.insert assetId (Word.maxValue 128) }, ⟨rest, assetId⟩)

/-- Deposits what the imbalance stands for and drops the rest. -/
def resolveCreating (assetId : AssetId) (who : AccountId) (value : NegativeImbalance) : State AccountId :=
  let (s, p) := depositCreating s assetId who value.amount
  match value.offset p with
  | .none => s
  | .same n => dropNegative s n
  | .other p => dropPositive s p

/-- An account without an entry for the asset gets nothing. -/
def depositIntoExisting (assetId : AssetId) (who : AccountId) (value : Balance) :
    Except Error (State AccountId × PositiveImbalance) :=
  if s.freeBalance.contains (assetId, who) then .ok (depositCreating s assetId who value)
  else .error .accountIdNotExist

/-! The `Inspect` trait. Locks are not looked at. -/

def balance (assetId : AssetId) (who : AccountId) : Balance := s.free assetId who

def reducibleBalance (assetId : AssetId) (who : AccountId) (_keepAlive : Bool) : Balance :=
  balance s assetId who

def canWithdraw (assetId : AssetId) (who : AccountId) (amount : Balance) : WithdrawConsequence :=
  match Word.checkedSub (s.free assetId who) amount with
  | some _ => .success
  | none => .noFunds

/-! The `ReservableCurrency` trait. -/

def canReserve (assetId : AssetId) (who : AccountId) (value : Balance) : Bool :=
  match Word.checkedSub (s.free assetId who) value with
  | some newBalance => (ensureCanWithdraw s assetId who value .reserve newBalance).isOk
  | none => false

def reserve (cfg : Config AccountId) (s : State AccountId) (assetId : AssetId) (who : AccountId) (value : Balance) :
    Except Error (State AccountId) :=
  GenericAsset.reserve cfg s assetId who value

end AssetCurrency

end

end GenericAsset
