import Cennznet.Lib.Result
import Cennznet.EthBridge

/-! # Hex data of the Ethereum node

`BytesVisitor` and `Bytes` of `crml/eth-bridge`. A string is the list of its bytes in UTF-8. -/

namespace EthBridge.Hex

open Result

inductive Failure where
  | invalidBytesFormat
  | invalidDigit
  | panicked
deriving DecidableEq, Repr

/-- `char::to_digit(16)`. -/
def toDigit (c : BitVec 8) : Option Nat :=
  let n := c.toNat
  if 48 ≤ n ∧ n ≤ 57 then some (n - 48)
  else if 97 ≤ n ∧ n ≤ 102 then some (n - 87)
  else if 65 ≤ n ∧ n ≤ 70 then some (n - 55)
  else none

/-- `u8::from_str_radix` of two bytes, the first of which may be a plus sign. -/
def fromStrRadix (a b : BitVec 8) : Except Failure (BitVec 8) := do
  let high ← if a = 43 then pure 0 else okOr (toDigit a) .invalidDigit
  let low ← okOr (toDigit b) .invalidDigit
  return BitVec.ofNat 8 (16 * high + low)

/-- A character starts at the byte. -/
def isCharBoundary (c : BitVec 8) : Bool := c.toNat < 128 ∨ 192 ≤ c.toNat

/-- A slice that does not start and end at a character panics. -/
def decodeHex : Bytes → Except Failure Bytes
  | [] => .ok []
  | [_] => .error .panicked
  | a :: b :: rest => do
    ensure (isCharBoundary a ∧ rest.head?.all isCharBoundary) .panicked
    let byte ← fromStrRadix a b
    let bytes ← decodeHex rest
    return byte :: bytes

def hexPrefix : Bytes := [48, 120]

/-- Where `decode_hex` fails the `expect` panics. -/
def visitStr (value : Bytes) : Except Failure Bytes :=
  if 2 ≤ value.length ∧ hexPrefix.isPrefixOf value ∧ value.length % 2 = 0 then
    (decodeHex (value.drop 2)).mapError fun _ => .panicked
  else .error .invalidBytesFormat

def digit (n : Nat) : BitVec 8 := BitVec.ofNat 8 (if n < 10 then n + 48 else n + 87)

def serialize (bytes : Bytes) : Bytes :=
  hexPrefix ++ bytes.flatMap fun b => [digit (b.toNat / 16), digit (b.toNat % 16)]

end EthBridge.Hex
