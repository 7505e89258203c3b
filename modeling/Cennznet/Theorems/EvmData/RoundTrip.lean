import Cennznet.EvmData
import Mathlib.Data.List.Infix

/-! # What is written is read back -/

namespace EvmData

open Result
open BigEndian (encode)

theorem prefix_of_append {a b l : Bytes} {c : Nat} (h : a ++ b <+: l.drop c) :
    a <+: l.drop c ∧ b <+: l.drop (c + a.length) := by
  obtain ⟨rest, hrest⟩ := h
  rw [List.append_assoc] at hrest
  refine ⟨⟨_, hrest⟩, rest, ?_⟩
  rw [← List.drop_drop, ← hrest, List.drop_left]

/-! ### Words -/

namespace EvmDataWriter

@[simp] theorem length_wordBytes (w : EvmWord) (v : w.Value) : (wordBytes w v).length = 32 := by
  rw [wordBytes, List.length_append, List.length_replicate, BigEndian.length_encode]
  cases w <;> rfl

theorem toNat_ofNat {n : Nat} (h : Fits n) : (BitVec.ofNat (8 * EvmWord.u256.size) n).toNat = n :=
  (BitVec.toNat_ofNat _ _).trans (Nat.mod_eq_of_lt (Nat.lt_trans h (by decide)))

theorem wordBytes_ofNat {n : Nat} (h : Fits n) : wordBytes .u256 (BitVec.ofNat _ n) = encode 32 n := by
  rw [wordBytes, toNat_ofNat h]
  simp only [EvmWord.size, Nat.sub_self, List.replicate_zero, List.nil_append]

theorem decode_wordBytes (w : EvmWord) (v : w.Value) :
    BigEndian.decode ((wordBytes w v).drop (32 - w.size)) = v.toNat := by
  have hlt : v.toNat < 256 ^ w.size := by
    have := v.isLt
    rwa [Nat.pow_mul] at this
  rw [wordBytes, List.drop_left' List.length_replicate, BigEndian.decode_encode hlt]

end EvmDataWriter

namespace EvmDataReader

open EvmDataWriter

variable {input data : Bytes} {c n : Nat} {w : EvmWord} {v : w.Value} {b : Bool}

theorem readRawBytes_eq_ok (what : String) (hfit : Fits input.length) (h : data <+: input.drop c)
    (hend : c + data.length ≤ input.length) :
    readRawBytes data.length what ⟨input, c⟩ = .ok (data, ⟨input, c + data.length⟩) := by
  have hcur : Fits (c + data.length) := Nat.lt_of_le_of_lt hend hfit
  have hget : get ⟨input, c + data.length⟩ (c, c + data.length) = some data := by
    rw [get, if_pos ⟨Nat.le_add_right _ _, hend⟩, List.extract_eq_take_drop, Nat.add_sub_cancel_left,
      ← List.prefix_iff_eq_take.mp h]
  rw [readRawBytes, moveCursor, ensure, if_pos hcur]
  simp only [ok_bind, pure_bind, hget, okOr_some]
  rfl

theorem readWord_eq_ok (hfit : Fits input.length) (h : wordBytes w v <+: input.drop c) :
    readWord w ⟨input, c⟩ = .ok (v, ⟨input, c + 32⟩) := by
  have hlen := length_wordBytes w v
  have hle := h.length_le
  rw [hlen, List.length_drop] at hle
  have hread := readRawBytes_eq_ok w.name hfit h (by omega)
  rw [hlen] at hread
  rw [readWord, hread, ok_bind]
  simp only [decode_wordBytes, BitVec.ofNat_toNat, BitVec.setWidth_eq]
  rfl

theorem readBool_eq_ok (hfit : Fits input.length) (h : boolBytes b <+: input.drop c) :
    readBool ⟨input, c⟩ = .ok (b, ⟨input, c + 32⟩) := by
  have hword : boolBytes b = wordBytes .h256 (if b then 1 else 0) := by cases b <;> rfl
  rw [hword] at h
  rw [readBool, readWord_eq_ok hfit h]
  cases b <;> rfl

theorem readUsize_eq_ok (what : String) (hfit : Fits input.length) (hn : Fits n)
    (h : encode 32 n <+: input.drop c) : readUsize what ⟨input, c⟩ = .ok (n, ⟨input, c + 32⟩) := by
  rw [← wordBytes_ofNat hn] at h
  rw [readUsize, readWord_eq_ok hfit h]
  simp only [Except.mapError, ok_bind, toNat_ofNat hn, ensure, if_pos hn]
  rfl

theorem readPointer_eq_ok (hfit : Fits input.length) (hn : n < input.length)
    (h : encode 32 n <+: input.drop c) :
    readPointer ⟨input, c⟩ = .ok (new (input.drop n), ⟨input, c + 32⟩) := by
  rw [readPointer, readUsize_eq_ok _ hfit (Nat.lt_trans hn hfit) h]
  simp only [ok_bind, ensure, if_pos hn]
  rfl

end EvmDataReader

/-! ### Slots -/

/-- What a value takes in the data of a writer: its word, or the place of the offset of its data. -/
inductive Slot where
  | word (bytes : {b : Bytes // b.length = 32})
  | pointer (tail : Bytes)

namespace Slot

open EvmDataWriter

def head : Slot → Bytes
  | .word b => b.1
  | .pointer _ => List.replicate 32 0xff

def tail : Slot → Bytes
  | .word _ => []
  | .pointer tail => tail

def offsets (shift position : Nat) : Slot → List OffsetDatum
  | .word _ => []
  | .pointer tail => [⟨position, tail, shift⟩]

/-- The slot once the tail is known to come at `offset`. -/
def baked (offset : Nat) : Slot → Bytes
  | .word b => b.1
  | .pointer _ => encode 32 offset

@[simp] theorem length_head (s : Slot) : s.head.length = 32 := by
  cases s with
  | word b => exact b.2
  | pointer tail => rfl

@[simp] theorem length_baked (s : Slot) (offset : Nat) : (s.baked offset).length = 32 := by
  cases s with
  | word b => exact b.2
  | pointer tail => exact BigEndian.length_encode

def heads (l : List Slot) : Bytes := l.flatMap head

def tails (l : List Slot) : Bytes := l.flatMap tail

def offsetsOf (shift : Nat) : Nat → List Slot → List OffsetDatum
  | _, [] => []
  | position, s :: l => s.offsets shift position ++ offsetsOf shift (position + 32) l

def bakedOf : Nat → List Slot → Bytes
  | _, [] => []
  | offset, s :: l => s.baked offset ++ bakedOf (offset + s.tail.length) l

/-- The slots and then their data, with the offsets counted from the first slot. -/
def layout (l : List Slot) : Bytes := bakedOf (32 * l.length) l ++ tails l

@[simp] theorem length_heads (l : List Slot) : (heads l).length = 32 * l.length := by
  simp [heads, List.length_flatMap, Nat.mul_comm]

@[simp] theorem length_bakedOf (l : List Slot) (offset : Nat) : (bakedOf offset l).length = 32 * l.length := by
  induction l generalizing offset with
  | nil => rfl
  | cons s l ih =>
    rw [bakedOf, List.length_append, length_baked, ih, List.length_cons]
    omega

/-- `bake_offsets` puts the offset of one slot in its place, and its data at the end. -/
theorem bakeOffsets_slot (before after : Bytes) (s : Slot) (shift : Nat) :
    bakeOffsets (before ++ s.head ++ after) (s.offsets shift before.length) =
      before ++ s.baked (before.length + 32 + after.length - shift) ++ after ++ s.tail := by
  cases s with
  | word b => exact (List.append_nil _).symm
  | pointer tail =>
    show bakeOffset _ _ = _
    simp only [bakeOffset, List.append_assoc, List.take_left, ← List.drop_drop, List.drop_left, List.length_append,
      length_head]
    rw [List.drop_left' (length_head _), Nat.add_assoc]
    rfl

/-- The slots stand after `before`, and the data that is there already after the slots. -/
theorem bakeOffsets_slots (l : List Slot) (shift : Nat) (before after : Bytes) (h : shift ≤ before.length) :
    bakeOffsets (before ++ heads l ++ after) (offsetsOf shift before.length l) =
      before ++ bakedOf (before.length + 32 * l.length + after.length - shift) l ++ after ++ tails l := by
  induction l generalizing before after with
  | nil => simp [heads, tails, offsetsOf, bakedOf, bakeOffsets]
  | cons s l ih =>
    -- The data of the first slot is in place before the offset of the second one is computed.
    let offset := before.length + 32 * (s :: l).length + after.length - shift
    have hone : bakeOffsets (before ++ heads (s :: l) ++ after) (s.offsets shift before.length) =
        before ++ s.baked offset ++ heads l ++ (after ++ s.tail) := by
      have hslot := bakeOffsets_slot before (heads l ++ after) s shift
      have hoff : before.length + 32 + (heads l ++ after).length - shift = offset := by
        simp only [List.length_append, length_heads, List.length_cons, offset]
        omega
      rw [hoff] at hslot
      simpa only [heads, List.flatMap_cons, List.append_assoc] using hslot
    have hrest := ih (before ++ s.baked offset) (after ++ s.tail) (by simp only [List.length_append]; omega)
    have hnext : (before ++ s.baked offset).length + 32 * l.length + (after ++ s.tail).length - shift =
        offset + s.tail.length := by
      simp only [List.length_append, length_baked, List.length_cons, offset]
      omega
    rw [hnext, List.length_append, length_baked] at hrest
    rw [offsetsOf, bakeOffsets, List.foldl_append, ← bakeOffsets, ← bakeOffsets, hone, hrest]
    simp only [bakedOf, tails, List.flatMap_cons, List.append_assoc, offset]

/-- `write` of a value into a writer, the offset of whose data is to count from `shift`. -/
def put (shift : Nat) (w : EvmDataWriter) (s : Slot) : EvmDataWriter :=
  ⟨w.data ++ s.head, w.offsetData ++ s.offsets shift w.data.length, w.selector⟩

theorem foldl_put (l : List Slot) (shift : Nat) (w : EvmDataWriter) :
    l.foldl (put shift) w = ⟨w.data ++ heads l, w.offsetData ++ offsetsOf shift w.data.length l, w.selector⟩ := by
  induction l generalizing w with
  | nil => simp [heads, offsetsOf]
  | cons s l ih =>
    rw [List.foldl_cons, ih]
    simp [put, heads, offsetsOf]

theorem build_foldl_put (l : List Slot) (before : Bytes) :
    (l.foldl (put before.length) ⟨before, [], none⟩).build = before ++ layout l := by
  have hbake := bakeOffsets_slots l before.length before [] (Nat.le_refl _)
  rw [foldl_put]
  simpa only [build, layout, List.append_assoc, List.nil_append, List.append_nil, List.length_nil, Nat.add_zero,
    Nat.add_sub_cancel_left] using hbake

/-- Wherever in the input the slot is, with its data at the offset, it is read as `a`. -/
def Reads {α : Type} (s : Slot) (input : Bytes) (read : Read α) (a : α) : Prop :=
  ∀ c offset, s.baked offset <+: input.drop c → s.tail <+: input.drop offset →
    read ⟨input, c⟩ = .ok (a, ⟨input, c + 32⟩)

end Slot

open EvmDataReader EvmDataWriter Slot

section

variable {α : Type} {input : Bytes} {slotOf : α → Slot}

theorem readEach_slots {read : α → Read α} (hread : ∀ a, (slotOf a).Reads input (read a) a) (l : List α)
    {c offset : Nat} (hbaked : bakedOf offset (l.map slotOf) <+: input.drop c)
    (htails : tails (l.map slotOf) <+: input.drop offset) :
    ∃ r, readEach (l.map read) ⟨input, c⟩ = .ok (l, r) := by
  induction l generalizing c offset with
  | nil => exact ⟨_, rfl⟩
  | cons a l ih =>
    obtain ⟨hslot, hslots⟩ := prefix_of_append hbaked
    obtain ⟨htail, htails⟩ := prefix_of_append htails
    rw [length_baked] at hslots
    obtain ⟨r, hl⟩ := ih hslots htails
    refine ⟨r, ?_⟩
    rw [List.map_cons, readEach, hread a c offset hslot htail, ok_bind]
    simp only [hl, ok_bind]
    rfl

theorem readEach_layout {read : α → Read α} (hread : ∀ a, (slotOf a).Reads input (read a) a) (l : List α)
    (h : layout (l.map slotOf) <+: input) : ∃ r, readEach (l.map read) (.new input) = .ok (l, r) := by
  obtain ⟨hbaked, htails⟩ := prefix_of_append (c := 0) h
  rw [length_bakedOf, Nat.zero_add] at htails
  exact readEach_slots hread l hbaked htails

end

/-! ### Values -/

def lengthWord (n : Nat) : Bytes := wordBytes .u256 (BitVec.ofNat _ n)

def bytesSlot (v : Bytes) : Slot :=
  .pointer (lengthWord v.length ++ (v ++ List.replicate (paddedSize v.length - v.length) 0))

def vecSlot {α : Type} (slotOf : α → Slot) (v : List α) : Slot :=
  .pointer (lengthWord v.length ++ layout (v.map slotOf))

/-- The slot of a value, with its data as it is in the end. -/
def slot : (t : EvmType) → t.Value → Slot
  | .word w => fun v => .word ⟨wordBytes w v, length_wordBytes w v⟩
  | .bool => fun v => .word ⟨boolBytes v, by cases v <;> rfl⟩
  | .bytes => bytesSlot
  | .vec item => vecSlot (slot item)

theorem new_writeUsize (n : Nat) : new.writeUsize n = ⟨lengthWord n, [], none⟩ := by
  simp only [writeUsize, writeRawBytes, EvmDataWriter.new, List.nil_append, lengthWord]

theorem writeBytes_eq_put (w : EvmDataWriter) (v : Bytes) : w.writeBytes v = put 0 w (bytesSlot v) := by
  rw [writeBytes, new_writeUsize]
  rfl

theorem writeVec_eq_put {α : Type} {write : EvmDataWriter → α → EvmDataWriter} {slotOf : α → Slot}
    (h : ∀ a w, write w a = put 0 w (slotOf a)) (w : EvmDataWriter) (v : List α) :
    w.writeVec write v = put 0 w (vecSlot slotOf v) := by
  have hitem : (fun inner a => inner.writeItem (write new a)) = fun inner a => put 32 inner (slotOf a) := by
    funext inner a
    rw [h a new]
    cases slotOf a <;> simp [writeItem, put, offsets, EvmDataWriter.new]
  have hbuild := build_foldl_put (v.map slotOf) (lengthWord v.length)
  rw [List.foldl_map, lengthWord, length_wordBytes] at hbuild
  rw [writeVec, new_writeUsize, hitem, lengthWord, hbuild]
  rfl

theorem write_eq_put (t : EvmType) (v : t.Value) (w : EvmDataWriter) : w.write t v = put 0 w (slot t v) := by
  induction t generalizing w with
  | word t => simp [write, writeRawBytes, put, slot, offsets, head]
  | bool => simp [write, writeRawBytes, put, slot, offsets, head]
  | bytes => exact writeBytes_eq_put w v
  | vec item ih => exact writeVec_eq_put ih w v

section

variable {α : Type} {input rest : Bytes} {c offset n : Nat}

/-- The data at an offset, after the length at its start. -/
theorem readUsize_lengthWord (what : String) (hfit : Fits input.length)
    (h : lengthWord n ++ rest <+: input) (hn : n ≤ rest.length) :
    readUsize what (.new input) = .ok (n, ⟨input, 32⟩) ∧ rest <+: input.drop 32 ∧ 32 + rest.length ≤ input.length := by
  obtain ⟨hlength, hrest⟩ := prefix_of_append (c := 0) h
  have hle := h.length_le
  rw [lengthWord, length_wordBytes, Nat.zero_add] at hrest
  rw [lengthWord, List.length_append, length_wordBytes] at hle
  have hfits : Fits n := Nat.lt_of_le_of_lt (by omega) hfit
  rw [lengthWord, wordBytes_ofNat hfits] at hlength
  exact ⟨readUsize_eq_ok what hfit hfits hlength, hrest, hle⟩

theorem readPointer_slot (hfit : Fits input.length)
    (hbaked : encode 32 offset <+: input.drop c) (htail : lengthWord n ++ rest <+: input.drop offset) :
    readPointer ⟨input, c⟩ = .ok (.new (input.drop offset), ⟨input, c + 32⟩) := by
  have hle := htail.length_le
  rw [lengthWord, List.length_append, length_wordBytes, List.length_drop] at hle
  exact readPointer_eq_ok hfit (by omega) hbaked

theorem Fits.drop (h : Fits input.length) (n : Nat) : Fits (input.drop n).length :=
  Nat.lt_of_le_of_lt (List.length_drop ▸ Nat.sub_le _ _) h

theorem readBytes_reads (hfit : Fits input.length) (v : Bytes) : (bytesSlot v).Reads input readBytes v := by
  intro c offset hbaked htail
  obtain ⟨hlength, hrest, hle⟩ := readUsize_lengthWord "bytes/string length" (hfit.drop offset) htail (by simp)
  have hdata := (prefix_of_append hrest).1
  rw [List.length_append] at hle
  rw [readBytes, readPointer_slot hfit hbaked htail, ok_bind]
  simp only [hlength, ok_bind, readRawBytes_eq_ok _ (hfit.drop offset) hdata (by omega)]
  rfl

theorem readVec_reads {read : Read α} {slotOf : α → Slot} (hfit : Fits input.length)
    (hread : ∀ a input, Fits (List.length input) → (slotOf a).Reads input read a) (v : List α) :
    (vecSlot slotOf v).Reads input (readVec read) v := by
  intro c offset hbaked htail
  have hlen : v.length ≤ (layout (v.map slotOf)).length := by
    rw [layout, List.length_append, length_bakedOf, List.length_map]
    omega
  obtain ⟨hlength, hrest, hle⟩ := readUsize_lengthWord "array length" (hfit.drop offset) htail hlen
  obtain ⟨r, heach⟩ := readEach_layout (fun a => hread a _ ((hfit.drop offset).drop 32)) v hrest
  rw [List.map_const'] at heach
  rw [readVec, readPointer_slot hfit hbaked htail, ok_bind]
  simp only [hlength, ok_bind, ensure, if_pos (Nat.le_trans (Nat.le_add_right 32 _) hle), heach]
  rfl

end

theorem read_reads (t : EvmType) (v : t.Value) (input : Bytes) (hfit : Fits input.length) :
    (slot t v).Reads input (read t) v := by
  induction t generalizing input with
  | word w => exact fun c offset hbaked htail => readWord_eq_ok hfit hbaked
  | bool => exact fun c offset hbaked htail => readBool_eq_ok hfit hbaked
  | bytes => exact readBytes_reads hfit v
  | vec item ih => exact readVec_reads hfit ih v

/-! ### Calls -/

/-- A value with its type. -/
abbrev Argument := (t : EvmType) × t.Value

def writeAll (w : EvmDataWriter) (arguments : List Argument) : EvmDataWriter :=
  arguments.foldl (fun w a => w.write a.1 a.2) w

def readAs (t : EvmType) : Read Argument := fun r => do
  let (value, r) ← read t r
  return (⟨t, value⟩, r)

def readAll (types : List EvmType) (r : EvmDataReader) : Except String (List Argument) := do
  let (arguments, _) ← readEach (types.map readAs) r
  return arguments

def inputOf (arguments : List Argument) : Bytes := layout (arguments.map fun a => slot a.1 a.2)

theorem build_writeAll (selector : BitVec 32) (arguments : List Argument) :
    (writeAll (.newWithSelector selector) arguments).build = encode 4 selector.toNat ++ inputOf arguments := by
  have hput : writeAll (.newWithSelector selector) arguments =
      (arguments.map fun a => slot a.1 a.2).foldl (put 0) (.newWithSelector selector) := by
    rw [writeAll, List.foldl_map]
    simp only [write_eq_put]
  have hbuild := build_foldl_put (arguments.map fun a => slot a.1 a.2) []
  rw [List.nil_append, foldl_put] at hbuild
  rw [hput, foldl_put, inputOf, ← hbuild]
  rfl

theorem newWithSelector_append {T : Type} {selectorOf : BitVec 32 → Option T} {selector : BitVec 32} {known : T}
    (h : selectorOf selector = some known) (rest : Bytes) :
    EvmDataReader.newWithSelector selectorOf (encode 4 selector.toNat ++ rest) = .ok (.new rest, known) := by
  have hlen : (encode 4 selector.toNat).length = 4 := BigEndian.length_encode
  rw [EvmDataReader.newWithSelector, ensure, if_pos (by rw [List.length_append, hlen]; omega), List.take_left' hlen,
    List.drop_left' hlen, BigEndian.decode_encode selector.isLt, BitVec.ofNat_toNat, BitVec.setWidth_eq, h]
  rfl

theorem readAll_inputOf (arguments : List Argument) (h : Fits (inputOf arguments).length) :
    readAll (arguments.map (·.1)) (.new (inputOf arguments)) = .ok arguments := by
  have hread (a : Argument) : (slot a.1 a.2).Reads (inputOf arguments) (readAs a.1) a := by
    intro c offset hbaked htail
    rw [readAs, read_reads a.1 a.2 _ h c offset hbaked htail]
    rfl
  obtain ⟨r, heach⟩ := readEach_layout hread arguments (List.prefix_refl _)
  rw [readAll, List.map_map]
  exact congrArg (· >>= fun p => pure p.1) heach

/-- Whatever the types of the arguments, nested as they may be, a call is read as it was written. -/
theorem call_read_back {T : Type} (selectorOf : BitVec 32 → Option T) (selector : BitVec 32) (known : T)
    (arguments : List Argument) (hselector : selectorOf selector = some known)
    (hfit : Fits (writeAll (.newWithSelector selector) arguments).build.length) :
    ∃ r, EvmDataReader.newWithSelector selectorOf (writeAll (.newWithSelector selector) arguments).build =
        .ok (r, known) ∧ readAll (arguments.map (·.1)) r = .ok arguments := by
  rw [build_writeAll] at hfit ⊢
  have hinput := Nat.lt_of_le_of_lt (List.length_append ▸ Nat.le_add_left _ _) hfit
  exact ⟨_, newWithSelector_append hselector _, readAll_inputOf arguments hinput⟩

/-- The arguments of a function `(uint32, bytes[][])`. -/
def nestedArguments : List Argument :=
  [⟨.word .u32, (7 : BitVec 32)⟩, ⟨.vec (.vec .bytes), [[[1, 2], []], [], [[3]]]⟩]

theorem nestedArguments_read_back :
    ∃ r, EvmDataReader.newWithSelector some (writeAll (.newWithSelector 9) nestedArguments).build = .ok (r, 9) ∧
      readAll (nestedArguments.map (·.1)) r = .ok nestedArguments :=
  call_read_back some 9 9 nestedArguments rfl (by decide +kernel)

end EvmData
