import Cennznet.EthBridge.Hex

/-! # Hex data is decoded or the worker panics -/

namespace EthBridge.Hex

open List Result

/-- The digits are those of the bytes, two for each. -/
inductive Denotes : Bytes → Bytes → Prop
  | nil : Denotes [] []
  | cons {a b : BitVec 8} {high low : Nat} {digits bytes : Bytes} : toDigit a = some high → toDigit b = some low →
    Denotes digits bytes → Denotes (a :: b :: digits) (BitVec.ofNat 8 (16 * high + low) :: bytes)

variable {c : BitVec 8} {n : Nat} {value digits bytes : Bytes}

theorem toDigit_ascii (h : toDigit c = some n) : c.toNat < 128 ∧ c ≠ 43 := by
  have hne : c.toNat ≠ 43 → c ≠ 43 := fun hn hc => hn (hc ▸ rfl)
  simp only [toDigit] at h
  split_ifs at h <;> exact ⟨by omega, hne (by omega)⟩

theorem Denotes.decode (h : Denotes digits bytes) :
    digits.length % 2 = 0 ∧ (∀ c ∈ digits, (toDigit c).isSome) ∧ decodeHex digits = .ok bytes := by
  induction h with
  | nil => exact ⟨rfl, fun _ h => absurd h not_mem_nil, rfl⟩
  | @cons a b high low digits bytes ha hb _ ih =>
    obtain ⟨hlen, hall, hde⟩ := ih
    obtain ⟨hlt, hne⟩ := toDigit_ascii ha
    have hbound {c : BitVec 8} (h : c.toNat < 128) : isCharBoundary c = true := by simp [isCharBoundary, h]
    have hhead : digits.head?.all isCharBoundary = true := by
      cases digits with
      | nil => rfl
      | cons c rest =>
        obtain ⟨n, hc⟩ := Option.isSome_iff_exists.mp (hall c mem_cons_self)
        exact hbound (toDigit_ascii hc).1
    have hpair : fromStrRadix a b = .ok (BitVec.ofNat 8 (16 * high + low)) := by
      rw [fromStrRadix, if_neg hne, ha, hb]
      rfl
    refine ⟨?_, by simpa [ha, hb] using hall, ?_⟩
    · rw [length_cons, length_cons]
      omega
    · simp only [decodeHex, bind_eq_ok, ensure_eq_ok, pure_eq_ok]
      exact ⟨(), ⟨hbound hlt, hhead⟩, _, hpair, bytes, hde, rfl⟩

theorem denotes_of_digits (hlen : digits.length % 2 = 0) (hall : ∀ c ∈ digits, (toDigit c).isSome) :
    ∃ bytes, Denotes digits bytes := by
  induction digits using decodeHex.induct with
  | case1 => exact ⟨[], .nil⟩
  | case2 c => cases hlen
  | case3 a b rest ih =>
    simp only [forall_mem_cons, Option.isSome_iff_exists] at hall
    obtain ⟨⟨high, ha⟩, ⟨low, hb⟩, hall⟩ := hall
    rw [length_cons, length_cons] at hlen
    obtain ⟨bytes, h⟩ := ih (by omega) (by simpa [Option.isSome_iff_exists] using hall)
    exact ⟨_, .cons ha hb h⟩

theorem visitStr_hexPrefix (hlen : digits.length % 2 = 0) :
    visitStr (hexPrefix ++ digits) = (decodeHex digits).mapError fun _ => .panicked := by
  have hle : 2 ≤ (hexPrefix ++ digits).length := by simp [hexPrefix]
  have hev : (hexPrefix ++ digits).length % 2 = 0 := by simp [hexPrefix]; omega
  rw [visitStr, if_pos ⟨hle, by simp, hev⟩]
  rfl

theorem Denotes.visitStr (h : Denotes digits bytes) : visitStr (hexPrefix ++ digits) = .ok bytes := by
  rw [visitStr_hexPrefix h.decode.1, h.decode.2.2]
  rfl

theorem toDigit_digit : ∀ n < 16, toDigit (digit n) = some n := by decide

theorem denotes_serialized (bytes : Bytes) :
    Denotes (bytes.flatMap fun b => [digit (b.toNat / 16), digit (b.toNat % 16)]) bytes := by
  induction bytes with
  | nil => exact .nil
  | cons b bytes ih =>
    have hb := b.isLt
    have heq : BitVec.ofNat 8 (16 * (b.toNat / 16) + b.toNat % 16) = b := by
      rw [Nat.div_add_mod, BitVec.ofNat_toNat, BitVec.setWidth_eq]
    have h := Denotes.cons (toDigit_digit (b.toNat / 16) (by omega)) (toDigit_digit (b.toNat % 16) (by omega)) ih
    rwa [heq] at h

/-- A string is decoded rightly exactly if it is not a prefixed string of even length, or one of hex digits; and what is
serialised is read back. -/
theorem hex_decoded_iff (value bytes : Bytes) :
    ((visitStr value ≠ .error .panicked ∧
        ∀ bytes, visitStr value = .ok bytes ↔ ∃ digits, value = hexPrefix ++ digits ∧ Denotes digits bytes) ↔
      ∀ digits, value = hexPrefix ++ digits → digits.length % 2 = 0 → ∀ c ∈ digits, (toDigit c).isSome) ∧
    visitStr (serialize bytes) = .ok bytes := by
  refine ⟨⟨?_, fun h => ?_⟩, (denotes_serialized bytes).visitStr⟩
  · rintro ⟨hpa, hok⟩ digits rfl hlen
    rw [visitStr_hexPrefix hlen] at hpa hok
    cases hde : decodeHex digits with
    | error e => exact absurd (by rw [hde]; rfl) hpa
    | ok bytes =>
      obtain ⟨digits', heq, h⟩ := (hok bytes).mp (by rw [hde]; rfl)
      exact append_cancel_left heq ▸ h.decode.2.1
  · by_cases hv : ∃ digits, value = hexPrefix ++ digits ∧ digits.length % 2 = 0
    · obtain ⟨digits, rfl, hlen⟩ := hv
      obtain ⟨bytes, hd⟩ := denotes_of_digits hlen (h digits rfl hlen)
      rw [hd.visitStr]
      refine ⟨fun h => (by cases h), fun bytes' => ⟨fun heq => ⟨digits, rfl, ?_⟩, ?_⟩⟩
      · cases heq
        exact hd
      · rintro ⟨digits', heq, hd'⟩
        rw [← hd.visitStr, heq, hd'.visitStr]
    · have her : visitStr value = .error .invalidBytesFormat := by
        refine if_neg fun hc => hv ?_
        obtain ⟨digits, rfl⟩ := isPrefixOf_iff_prefix.mp hc.2.1
        have hlen := hc.2.2
        simp [hexPrefix] at hlen
        exact ⟨digits, rfl, by omega⟩
      rw [her]
      refine ⟨fun h => (by cases h), fun bytes' => ⟨fun h => (by cases h), ?_⟩⟩
      rintro ⟨digits, heq, hd⟩
      exact absurd ⟨digits, heq, hd.decode.1⟩ hv

theorem letters_panic : visitStr [48, 120, 122, 122] = .error .panicked ∧ visitStr [48, 120, 43, 49] = .ok [1] ∧
    toDigit 43 = none := by
  decide

end EthBridge.Hex
