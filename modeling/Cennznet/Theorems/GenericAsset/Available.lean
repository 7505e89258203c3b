import Cennznet.Precompiles
import Cennznet.Theorems.GenericAsset.Locks

/-! # Available balances

Locks overlay each other, and `get_all_balances` adds them up. -/

namespace GenericAsset

open Word List
open Precompiles.Erc20PrecompileSet (balanceOf)

variable {A : Type} [DecidableEq A]

def State.lockTotal (s : State A) (a : AssetId) (who : A) : Nat :=
  ((s.locksOf a who).map (·.amount.toNat)).sum

/-- The largest amount of which a transfer passes the tests of balance and locks. -/
def Transferable (s : State A) (a : AssetId) (who : A) (v : Balance) : Prop :=
  Spendable s a who v .transfer ∧ ∀ w, Spendable s a who w .transfer → w.toNat ≤ v.toNat

/-- Every lock covers transfers and is within the free balance. -/
structure Locked (s : State A) (a : AssetId) (who : A) : Prop where
  covers : ∀ l ∈ s.locksOf a who, l.reasons.Overlaps .misc
  within : ∀ l ∈ s.locksOf a who, l.amount.toNat ≤ s.freeOf a who

section
variable {s : State A} {a : AssetId} {who : A} {v : Balance}

theorem toNat_sum_locks (locks : List BalanceLock) (n : Balance) :
    ((locks.map (·.amount)).foldl (· + ·) n).toNat = (n.toNat + (locks.map (·.amount.toNat)).sum) % 2 ^ 128 := by
  induction locks generalizing n with
  | nil => exact (Nat.mod_eq_of_lt n.isLt).symm
  | cons l locks ih => rw [map_cons, foldl_cons, ih, BitVec.toNat_add, Nat.mod_add_mod, Nat.add_assoc, map_cons, sum_cons]

theorem available_add_total (hf : s.lockTotal a who ≤ s.freeOf a who) :
    (getAllBalances s who a).available.toNat + s.lockTotal a who = s.freeOf a who := by
  have hfr : s.freeOf a who < 2 ^ 128 := (s.free a who).isLt
  have hst : (getAllBalances s who a).staked.toNat = s.lockTotal a who :=
    (toNat_sum_locks _ 0).trans ((congrArg (· % _) (Nat.zero_add _)).trans (Nat.mod_eq_of_lt (Nat.lt_of_le_of_lt hf hfr)))
  have hsub := toNat_sub_of_le (hst.trans_le hf)
  rw [hst] at hsub
  exact (congrArg (· + _) hsub).trans (Nat.sub_add_cancel hf)

theorem Locked.spendable_iff (h : Locked s a who) : Spendable s a who v .transfer ↔
    v.toNat ≤ s.freeOf a who ∧ ∀ l ∈ s.locksOf a who, l.amount.toNat + v.toNat ≤ s.freeOf a who := by
  unfold Spendable
  rw [ensureCanWithdraw_eq_ok]
  refine and_congr_right fun hfu => ?_
  have hlf := toNat_sub_of_le hfu
  rw [hlf]
  constructor
  · rintro (rfl | hab) l hl
    · exact h.within l hl
    · exact Nat.add_le_of_le_sub hfu (hab l hl (h.covers l hl))
  · exact fun hab => .inr fun l hl _ => Nat.le_sub_of_add_le (hab l hl)

theorem Locked.transferable_iff (h : Locked s a who) : Transferable s a who v ↔ Spendable s a who v .transfer ∧
      (v.toNat = s.freeOf a who ∨ ∃ l ∈ s.locksOf a who, l.amount.toNat + v.toNat = s.freeOf a who) := by
  refine and_congr_right fun hsd => ⟨fun hla => ?_, ?_⟩
  · obtain ⟨hfu, hlo⟩ := h.spendable_iff.mp hsd
    have hlt : s.freeOf a who < 2 ^ 128 := (s.free a who).isLt
    by_contra hsl
    push Not at hsl
    obtain ⟨hls, hr⟩ := hsl
    have hmo : v.toNat + 1 ≤ s.freeOf a who := Nat.lt_of_le_of_ne hfu hls
    obtain ⟨w, hw⟩ := exists_toNat_eq (Nat.lt_of_le_of_lt hmo hlt)
    have hsp : Spendable s a who w .transfer := by
      refine h.spendable_iff.mpr ⟨hw ▸ hmo, fun l hl => ?_⟩
      have hle := hlo l hl
      have hne := hr l hl
      omega
    have hle := hla w hsp
    omega
  · rintro (hall | ⟨l, hl, hst⟩) w hw
    · exact hall ▸ hw.1
    · have := (h.spendable_iff.mp hw).2 l hl
      omega

theorem Locked.transferable_of_total (h : Locked s a who)
    (hv : v.toNat + s.lockTotal a who = s.freeOf a who) : Transferable s a who v ↔
      s.lockTotal a who = 0 ∨ ∃ l ∈ s.locksOf a who, l.amount.toNat = s.lockTotal a who := by
  have hsp : Spendable s a who v .transfer := by
    refine h.spendable_iff.mpr ⟨Nat.le.intro hv, fun l hl => ?_⟩
    have hle : l.amount.toNat ≤ s.lockTotal a who := le_sum_of_mem (mem_map_of_mem hl)
    omega
  rw [h.transferable_iff, and_iff_right hsp]
  refine or_congr (by omega) (exists_congr fun l => and_congr_right fun _ => by omega)

theorem Locked.transferable_of_all (h : Locked s a who) (hv : v.toNat = s.freeOf a who) :
    Transferable s a who v ↔ s.lockTotal a who = 0 := by
  rw [h.transferable_iff, h.spendable_iff, and_iff_left (Or.inl hv), and_iff_right hv.le, State.lockTotal,
    sum_eq_zero_iff, forall_mem_map]
  exact forall₂_congr fun l _ => by omega

end

/-- Where all locks cover transfers, the balances reported are what can be transferred exactly if no lock is of more
than zero, or just one is, of the staking asset. -/
theorem available_exact_iff (stakingAssetId : AssetId) (s : State A) (assetId : AssetId) (who : A)
    (h : Locked s assetId who) :
    (s.lockTotal assetId who ≤ s.freeOf assetId who ∧
      Transferable s assetId who (getAllBalances s who assetId).available ∧
      Transferable s assetId who (balanceOf stakingAssetId s assetId who)) ↔
    s.lockTotal assetId who = 0 ∨ assetId = stakingAssetId ∧
      ∃ l ∈ s.locksOf assetId who, l.amount.toNat = s.lockTotal assetId who := by
  have hf : (s.lockTotal assetId who = 0 ∨ ∃ l ∈ s.locksOf assetId who, l.amount.toNat = s.lockTotal assetId who) →
      s.lockTotal assetId who ≤ s.freeOf assetId who := by
    rintro (hz | ⟨l, hl, hone⟩)
    · rw [hz]
      exact Nat.zero_le _
    · exact hone ▸ h.within l hl
  constructor
  · rintro ⟨hle, hav, hre⟩
    rw [h.transferable_of_total (available_add_total hle)] at hav
    by_cases hst : assetId = stakingAssetId
    · exact hav.imp_right fun hone => ⟨hst, hone⟩
    · rw [balanceOf, if_neg hst, h.transferable_of_all rfl] at hre
      exact .inl hre
  · intro hone
    have hsum := available_add_total (hf (hone.imp_right And.right))
    refine ⟨hf (hone.imp_right And.right), (h.transferable_of_total hsum).mpr (hone.imp_right And.right), ?_⟩
    unfold balanceOf
    split_ifs with hoth
    · exact (h.transferable_of_total hsum).mpr (hone.imp_right And.right)
    · exact (h.transferable_of_all rfl).mpr (hone.resolve_right fun hst => hoth hst.1)

theorem one_lock_exact : Transferable lockedHolder 16000 1 (getAllBalances lockedHolder 1 16000).available :=
  ((available_exact_iff 16000 lockedHolder 16000 1 ⟨by decide, by decide⟩).mpr
    (.inr ⟨rfl, ⟨1, 5, .all⟩, by decide, rfl⟩)).2.1

def twiceLocked : State Nat :=
  { oneHolder 100 {} with
    locks := (∅ : StorageMap (AssetId × Nat) (List BalanceLock)).insert (16000, 1) [⟨1, 60, .all⟩, ⟨2, 70, .misc⟩] }

theorem two_locks_wrap : (getAllBalances twiceLocked 1 16000).available.toNat = 2 ^ 128 - 30 ∧
    Spendable twiceLocked 16000 1 30 .transfer ∧ ¬Spendable twiceLocked 16000 1 31 .transfer :=
  ⟨by decide, ⟨by decide, rfl⟩, fun h => nomatch h.2⟩

end GenericAsset
