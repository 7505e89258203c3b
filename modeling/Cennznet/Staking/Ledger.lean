import Cennznet.GenericAsset
import Cennznet.Lib.Result

/-! # Stashes and controllers

The part of `crml/staking` that says who controls what is bonded: the ledger of a bond is kept under the controller
that the stash names. -/

namespace Staking

open GenericAsset (Balance)
open Result

structure UnlockChunk where
  value : Balance
  era : BitVec 32
deriving DecidableEq, Repr

structure StakingLedger (AccountId : Type) where
  stash : AccountId
  total : Balance
  active : Balance
  unlocking : List UnlockChunk
deriving DecidableEq, Repr

inductive Error where
  | notController
  | notStash
  | alreadyBonded
  | alreadyPaired
  | insufficientFreeBalance
  | insufficientBond
  | noMoreChunks
  | noUnlockChunk
  | callNotAllowed
  | incorrectSlashingSpans
  | fundedTarget
  | emptyTargets
  | notSortedAndUnique
  | invalidSlashIndex
deriving DecidableEq, Repr

structure Bonds (AccountId : Type) where
  bonded : StorageMap AccountId AccountId
  ledger : StorageMap AccountId (StakingLedger AccountId)

namespace Bonds

variable {AccountId : Type} [DecidableEq AccountId]

def activeBalance (s : Bonds AccountId) (controller : AccountId) : Balance :=
  match s.ledger.get? controller with
  | some ledger => ledger.active
  | none => 0

def setController (s : Bonds AccountId) (stash controller : AccountId) : Except Error (Bonds AccountId) := do
  let oldController ← okOr (s.bonded.get? stash) .notStash
  ensure (s.ledger.contains controller = false) .alreadyPaired
  if controller ≠ oldController then
    let bonded := s.bonded.insert stash controller
    match s.ledger.get? oldController with
    | some l => pure { bonded := bonded, ledger := (s.ledger.remove oldController).insert controller l }
    | none => pure { s with bonded := bonded }
  else pure s

end Bonds

end Staking
