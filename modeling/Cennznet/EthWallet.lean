import Mathlib.Data.Nat.Init
import Mathlib.Order.Defs.PartialOrder

/-! # The Ethereum wallet

`crml/eth-wallet`: an unsigned extrinsic carries a call that an Ethereum wallet has signed together with the nonce of
the account. Hashing, key recovery, codecs, fees and the dispatch of calls are parameters. -/

namespace EthWallet

abbrev Bytes := List (BitVec 8)

def bytes (text : String) : Bytes := text.toList.map fun c => BitVec.ofNat 8 c.toNat

/-! ### Ethereum signatures -/

/-- The decimal digits of a length, last one first; fuel `l` is enough. -/
def reverseDigits : Nat → Nat → Bytes
  | 0, _ => []
  | fuel + 1, l => if 0 < l then BitVec.ofNat 8 (48 + l % 10) :: reverseDigits fuel (l / 10) else []

def signableMessage (what : Bytes) : Bytes :=
  BitVec.ofNat 8 0x19 :: bytes "Ethereum Signed Message:\n" ++ (reverseDigits what.length what.length).reverse ++ what

structure Execute (AccountId EthAddress DispatchError : Type) where
  ethAddress : EthAddress
  account : AccountId
  result : Except DispatchError Unit

structure State (AccountId EthAddress Index Rest DispatchError : Type) where
  nonces : AccountId → Index
  rest : Rest
  events : List (Execute AccountId EthAddress DispatchError)

structure Config (Call AccountId EthAddress Signature Public Hash Index Info Rest DispatchError : Type) where
  keccak256 : Bytes → Hash
  recoverCompressed : Signature → Hash → Option Public
  toEthereum : Public → Option EthAddress
  base64Encode : Bytes → Bytes
  encodeCall : Call → Bytes
  encodePayload : Call → Index → Bytes
  intoAccountId : EthAddress → AccountId
  getDispatchInfo : Call → Info
  payFee : Rest → BitVec 32 → Call → Info → AccountId → Rest × Except Unit Unit
  incNonce : Index → Index
  dispatch : State AccountId EthAddress Index Rest DispatchError → Call → AccountId →
    State AccountId EthAddress Index Rest DispatchError × Except DispatchError Unit
  unsignedPriority : BitVec 64

inductive Origin (AccountId : Type) where
  | root
  | signed (who : AccountId)
  | none
deriving DecidableEq

inductive Error where
  | badOrigin
  | invalidSignature
  | cantPay
deriving DecidableEq, Repr

/-- The module has one call, so the case of another does not arise. -/
inductive InvalidTransaction where
  | badProof
deriving DecidableEq, Repr

structure ValidTransaction (EthAddress Index : Type) where
  tagPrefix : String
  priority : BitVec 64
  provides : EthAddress × Index
  longevity : BitVec 64
  propagate : Bool

structure Extrinsic (Call EthAddress Signature : Type) where
  call : Call
  ethAddress : EthAddress
  signature : Signature

variable {Call AccountId EthAddress Signature Public Hash Index Info Rest DispatchError : Type}

section
variable [DecidableEq EthAddress]
variable (cfg : Config Call AccountId EthAddress Signature Public Hash Index Info Rest DispatchError)

def ecrecover (signature : Signature) (msg : Bytes) (address : EthAddress) : Option Public :=
  let msg := cfg.keccak256 (signableMessage msg)
  match cfg.recoverCompressed signature msg with
  | some public_ => if cfg.toEthereum public_ = some address then some public_ else none
  | none => none

/-- The message of a wallet: call and nonce, behind a prefix. -/
def fullMsg (call : Call) (nonce : Index) : Bytes :=
  bytes "data:application/octet-stream;base64," ++ cfg.base64Encode (cfg.encodePayload call nonce)

variable (s : State AccountId EthAddress Index Rest DispatchError) (x : Extrinsic Call EthAddress Signature)

def validateUnsigned : Except InvalidTransaction (ValidTransaction EthAddress Index) :=
  let account := cfg.intoAccountId x.ethAddress
  let nonce := s.nonces account
  match ecrecover cfg x.signature (fullMsg cfg x.call nonce) x.ethAddress with
  | some _ =>
    .ok
      { tagPrefix := "EthWallet"
        priority := cfg.unsignedPriority
        provides := (x.ethAddress, nonce)
        longevity := 64
        propagate := true }
  | none => .error .badProof

def feeLength (call : Call) : BitVec 32 := BitVec.ofNat 32 (cfg.encodeCall call).length + 33 + 65 + 4

def payFee (call : Call) (account : AccountId) : State AccountId EthAddress Index Rest DispatchError × Except Error Unit :=
  let (rest, paid) := cfg.payFee s.rest (feeLength cfg call) call (cfg.getDispatchInfo call) account
  ({ s with rest := rest }, paid.mapError fun _ => .cantPay)

/-- Execute a runtime `call` signed using `eth_sign`. What was written before an error stays. -/
def call [DecidableEq AccountId] (origin : Origin AccountId) :
    State AccountId EthAddress Index Rest DispatchError × Except Error Unit :=
  match origin with
  | .none =>
    let account := cfg.intoAccountId x.ethAddress
    let nonce := s.nonces account
    match ecrecover cfg x.signature (fullMsg cfg x.call nonce) x.ethAddress with
    | some _ =>
      match payFee cfg s x.call account with
      | (s, .error e) => (s, .error e)
      | (s, .ok ()) =>
        let s := { s with nonces := fun a => if a = account then cfg.incNonce (s.nonces a) else s.nonces a }
        let (s, res) := cfg.dispatch s x.call account
        -- a failed call is only reported in the event
        ({ s with events := s.events ++ [⟨x.ethAddress, account, res⟩] }, .ok ())
    | none => (s, .error .invalidSignature)
  | _ => (s, .error .badOrigin)

end

end EthWallet
