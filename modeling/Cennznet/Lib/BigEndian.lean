import Mathlib.Algebra.Group.Nat.Defs

/-! # Big-endian bytes

Numbers as byte strings of a fixed length, most significant byte first. -/

namespace BigEndian

def encode : Nat → Nat → List (BitVec 8)
  | 0, _ => []
  | k + 1, n => encode k (n / 256) ++ [BitVec.ofNat 8 n]

def decode (bytes : List (BitVec 8)) : Nat := bytes.foldl (fun n b => n * 256 + b.toNat) 0

variable {k n : Nat}

@[simp] theorem length_encode : (encode k n).length = k := by
  induction k generalizing n with
  | zero => rfl
  | succ k ih => rw [encode, List.length_append, ih, List.length_singleton]

theorem decode_concat (bytes : List (BitVec 8)) (b : BitVec 8) : decode (bytes ++ [b]) = decode bytes * 256 + b.toNat := by
  unfold decode
  rw [List.foldl_append]
  rfl

theorem decode_encode (h : n < 256 ^ k) : decode (encode k n) = n := by
  induction k generalizing n with
  | zero => exact (Nat.lt_one_iff.mp h).symm
  | succ k ih =>
    have hqu : n / 256 < 256 ^ k := Nat.div_lt_of_lt_mul (by rwa [Nat.pow_succ'] at h)
    rw [encode, decode_concat, ih hqu, BitVec.toNat_ofNat]
    omega

theorem encode_inj {m : Nat} (hm : m < 256 ^ k) (hn : n < 256 ^ k) (h : encode k m = encode k n) : m = n := by
  rw [← decode_encode hm, h, decode_encode hn]

theorem encode_eq_map : encode k n = (List.range k).map fun i => BitVec.ofNat 8 (n / 256 ^ (k - 1 - i)) := by
  induction k generalizing n with
  | zero => rfl
  | succ k ih =>
    rw [encode, ih, List.range_succ, List.map_append, List.map_singleton, Nat.add_sub_cancel, Nat.sub_self, Nat.pow_zero,
      Nat.div_one]
    congr 1
    refine List.map_congr_left fun i hi => ?_
    have hexp : k - i = (k - 1 - i).succ := by
      have := List.mem_range.mp hi
      omega
    rw [Nat.div_div_eq_div_mul, ← Nat.pow_succ', hexp]

theorem flatMap_inj {α β : Type} {word : α → List β} (hlen : ∀ a b, (word a).length = (word b).length)
    (hinj : ∀ a b, word a = word b → a = b) {l l' : List α} (hco : l.length = l'.length)
    (h : l.flatMap word = l'.flatMap word) : l = l' := by
  induction l generalizing l' with
  | nil => exact (List.length_eq_zero_iff.mp hco.symm).symm
  | cons a l ih =>
    cases l' with
    | nil => cases hco
    | cons b l' =>
      rw [List.flatMap_cons, List.flatMap_cons] at h
      obtain ⟨hhe, hta⟩ := List.append_inj h (hlen a b)
      rw [hinj a b hhe, ih (Nat.succ.inj hco) hta]

end BigEndian
