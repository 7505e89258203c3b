import Cennznet.Lib.Result
import Cennznet.Lib.BigEndian

/-! # Solidity data

`evm-precompiles/utils/src/data.rs`: what the precompiles read of the input of a call, and how they write their output.
An error is the text of the revert. -/

namespace EvmData

open Result

abbrev Bytes := List (BitVec 8)

/-- The types of one word that are numbers. -/
inductive EvmWord where
  | u8 | u16 | u32 | u64 | u128 | u256 | h256 | address

def EvmWord.size : EvmWord → Nat
  | .u8 => 1
  | .u16 => 2
  | .u32 => 4
  | .u64 => 8
  | .u128 => 16
  | .u256 | .h256 => 32
  | .address => 20

/-- The name in an error, which for `u8` is not its own. -/
def EvmWord.name : EvmWord → String
  | .u16 => "u16"
  | .u32 => "u32"
  | .u8 | .u64 => "u64"
  | .u128 => "u128"
  | .u256 => "U256"
  | .h256 => "H256"
  | .address => "H160"

abbrev EvmWord.Value (w : EvmWord) : Type := BitVec (8 * w.size)

/-- The types that implement `EvmData`. -/
inductive EvmType where
  | word (w : EvmWord)
  | bool
  | bytes
  | vec (item : EvmType)

def EvmType.Value : EvmType → Type
  | .word w => w.Value
  | .bool => Bool
  | .bytes => Bytes
  | .vec item => List item.Value

/-! ### Reading -/

structure EvmDataReader where
  input : Bytes
  cursor : Nat

/-- What is read, with the reader after it. -/
abbrev Read (α : Type) := EvmDataReader → Except String (α × EvmDataReader)

def outOfBounds (what : String) : String := "tried to parse " ++ what ++ " out of bounds"

/-- What `usize` of the wasm runtime can hold. -/
def Fits (n : Nat) : Prop := n < 2 ^ 32

instance (n : Nat) : Decidable (Fits n) := inferInstanceAs (Decidable (n < 2 ^ 32))

namespace EvmDataReader

def new (input : Bytes) : EvmDataReader := ⟨input, 0⟩

/-- `selectorOf` is `try_from_primitive` of the selectors of the precompile. -/
def newWithSelector {T : Type} (selectorOf : BitVec 32 → Option T) (input : Bytes) :
    Except String (EvmDataReader × T) := do
  ensure (4 ≤ input.length) (outOfBounds "selector")
  let selector ← okOr (selectorOf (BitVec.ofNat 32 (BigEndian.decode (input.take 4)))) "unknown selector"
  return (new (input.drop 4), selector)

def moveCursor (len : Nat) : Read (Nat × Nat) := fun r => do
  ensure (Fits (r.cursor + len)) "data reading cursor overflow"
  return ((r.cursor, r.cursor + len), { r with cursor := r.cursor + len })

/-- `input.get(range)`. -/
def get (r : EvmDataReader) (range : Nat × Nat) : Option Bytes :=
  if range.1 ≤ range.2 ∧ range.2 ≤ r.input.length then some (r.input.extract range.1 range.2) else none

def readRawBytes (len : Nat) (what : String) : Read Bytes := fun r => do
  let (range, r) ← moveCursor len r
  let data ← okOr (r.get range) (outOfBounds what)
  return (data, r)

def readWord (w : EvmWord) : Read w.Value := fun r => do
  let (data, r) ← readRawBytes 32 w.name r
  return (BitVec.ofNat (8 * w.size) (BigEndian.decode (data.drop (32 - w.size))), r)

def readBool : Read Bool := fun r => do
  let (h256, r) ← (readWord .h256 r).mapError fun _ => outOfBounds "bool"
  return (h256 ≠ 0, r)

/-- A `U256` that is to be an offset or a length. -/
def readUsize (what : String) : Read Nat := fun r => do
  let (n, r) ← (readWord .u256 r).mapError fun _ => outOfBounds what
  ensure (Fits n.toNat) (what ++ " is too large")
  return (n.toNat, r)

/-- A reader at the pointed location. -/
def readPointer : Read EvmDataReader := fun r => do
  let (offset, r) ← readUsize "array offset" r
  ensure (offset < r.input.length) "pointer points out of bounds"
  return (new (r.input.drop offset), r)

def readBytes : Read Bytes := fun r => do
  let (inner, r) ← readPointer r
  let (length, inner) ← readUsize "bytes/string length" inner
  let (data, _) ← readRawBytes length "bytes/string" inner
  return (data, r)

/-- One read after the other. -/
def readEach {α : Type} : List (Read α) → Read (List α)
  | [], r => pure ([], r)
  | read :: reads, r => do
    let (a, r) ← read r
    let (l, r) ← readEach reads r
    return (a :: l, r)

def readVec {α : Type} (read : Read α) : Read (List α) := fun r => do
  let (inner, r) ← readPointer r
  let (length, inner) ← readUsize "array length" inner
  ensure (32 ≤ inner.input.length) "try to read array items out of bound"
  let (array, _) ← readEach (List.replicate length read) (new (inner.input.drop 32))
  return (array, r)

def read : (t : EvmType) → Read t.Value
  | .word w => readWord w
  | .bool => readBool
  | .bytes => readBytes
  | .vec item => readVec (read item)

end EvmDataReader

/-! ### Writing -/

/-- Data that comes after the data of the writer, and where the offset of it is to stand. -/
structure OffsetDatum where
  offsetPosition : Nat
  data : Bytes
  offsetShift : Nat

structure EvmDataWriter where
  data : Bytes
  offsetData : List OffsetDatum
  selector : Option (BitVec 32)

namespace EvmDataWriter

def new : EvmDataWriter := ⟨[], [], none⟩

def newWithSelector (selector : BitVec 32) : EvmDataWriter := ⟨[], [], some selector⟩

/-- Puts in the offset of one datum, and the datum at the end. -/
def bakeOffset (output : Bytes) (datum : OffsetDatum) : Bytes :=
  output.take datum.offsetPosition ++ BigEndian.encode 32 (output.length - datum.offsetShift) ++
    output.drop (datum.offsetPosition + 32) ++ datum.data

def bakeOffsets (output : Bytes) (offsets : List OffsetDatum) : Bytes := offsets.foldl bakeOffset output

def build (w : EvmDataWriter) : Bytes :=
  let data := bakeOffsets w.data w.offsetData
  match w.selector with
  | some selector => BigEndian.encode 4 selector.toNat ++ data
  | none => data

def writeRawBytes (w : EvmDataWriter) (value : Bytes) : EvmDataWriter := { w with data := w.data ++ value }

def writePointer (w : EvmDataWriter) (data : Bytes) : EvmDataWriter :=
  { w with
    data := w.data ++ List.replicate 32 0xff
    offsetData := w.offsetData ++ [⟨w.data.length, data, 0⟩] }

def wordBytes (w : EvmWord) (value : w.Value) : Bytes :=
  List.replicate (32 - w.size) 0 ++ BigEndian.encode w.size value.toNat

def boolBytes (value : Bool) : Bytes := List.replicate 31 0 ++ [if value then 1 else 0]

def writeUsize (w : EvmDataWriter) (n : Nat) : EvmDataWriter := w.writeRawBytes (wordBytes .u256 (BitVec.ofNat _ n))

def paddedSize (length : Nat) : Nat :=
  let chunks := length / 32
  if length % 32 = 0 then chunks * 32 else (chunks + 1) * 32

def writeBytes (w : EvmDataWriter) (value : Bytes) : EvmDataWriter :=
  w.writePointer
    ((new.writeUsize value.length).writeRawBytes
      (value ++ List.replicate (paddedSize value.length - value.length) 0)).build

/-- The offsets of an item count from the end of the length of the array. -/
def writeItem (inner item : EvmDataWriter) : EvmDataWriter :=
  { inner with
    data := inner.data ++ item.data
    offsetData := inner.offsetData ++ item.offsetData.map fun datum =>
      { datum with
        offsetShift := datum.offsetShift + 32
        offsetPosition := datum.offsetPosition + inner.data.length } }

def writeVec {α : Type} (write : EvmDataWriter → α → EvmDataWriter) (w : EvmDataWriter) (value : List α) :
    EvmDataWriter :=
  w.writePointer (value.foldl (fun inner a => inner.writeItem (write new a)) (new.writeUsize value.length)).build

def write : (t : EvmType) → EvmDataWriter → t.Value → EvmDataWriter
  | .word w => fun writer value => writer.writeRawBytes (wordBytes w value)
  | .bool => fun writer value => writer.writeRawBytes (boolBytes value)
  | .bytes => writeBytes
  | .vec item => writeVec (write item)

end EvmDataWriter

end EvmData
