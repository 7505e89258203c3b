import Cennznet.Theorems.GenericAsset.Dust
import Cennznet.Theorems.GenericAsset.Transfer

/-! # Locks

What an amount leaves is tested against the locks, and only then swept. -/

namespace GenericAsset

open Word

variable {A : Type} [DecidableEq A]

def Reasons.Overlaps (a b : Reasons) : Prop := a = .all ∨ b = .all ∨ a = b

instance (a b : Reasons) : Decidable (a.Overlaps b) := inferInstanceAs (Decidable (_ ∨ _ ∨ _))

def State.locksOf (s : State A) (a : AssetId) (who : A) : List BalanceLock :=
  s.locks.getD (a, who) []

def State.AboveLocks (s : State A) (a : AssetId) (who : A) (reasons : WithdrawReasons) (balance : Nat) : Prop :=
  ∀ l ∈ s.locksOf a who, l.reasons.Overlaps (.ofWithdrawReasons reasons) → l.amount.toNat ≤ balance

/-- What has lowered the free balance of the account has left it above its locks. -/
def LocksKept (s s' : State A) (a : AssetId) (who : A) (reasons : WithdrawReasons) : Prop :=
  s'.freeOf a who < s.freeOf a who → s.AboveLocks a who reasons (s'.freeOf a who)

/-- The account has the amount, and its locks allow for it. -/
def Spendable (s : State A) (a : AssetId) (who : A) (amt : Balance) (reasons : WithdrawReasons) :
    Prop :=
  amt.toNat ≤ s.freeOf a who ∧
    ensureCanWithdraw s a who amt reasons (s.free a who - amt) = .ok ()

/-- Nothing is swept from under a lock: what is left is no dust, or the dust account's own, or there was nothing to
sweep, or every lock that applies is of zero. -/
def SweepSafe (cfg : Config A) (s : State A) (a : AssetId) (who : A) (amt : Balance)
    (reasons : WithdrawReasons) : Prop :=
  (s.existentialDeposit a).toNat ≤ s.freeOf a who - amt.toNat ∨ who = cfg.dustAccount ∨
    s.freeOf a who = 0 ∨ s.AboveLocks a who reasons 0

section
variable {cfg : Config A} {s s' : State A} {a : AssetId} {who source dest : A}
  {amt nb : Balance} {reasons : WithdrawReasons}

/-! ### The test -/

theorem allows_iff {l : BalanceLock} : l.allows reasons nb = true ↔
    (l.reasons.Overlaps (.ofWithdrawReasons reasons) → l.amount.toNat ≤ nb.toNat) := by
  unfold BalanceLock.allows Reasons.Overlaps
  simp only [Bool.or_eq_true, Bool.and_eq_true, decide_eq_true_eq]
  tauto

theorem ensureCanWithdraw_eq_ok : ensureCanWithdraw s a who amt reasons nb = .ok () ↔
    amt = 0 ∨ s.AboveLocks a who reasons nb.toNat := by
  have hall : ((s.locks.getD (a, who) []).all fun l => l.allows reasons nb) = true ↔
      s.AboveLocks a who reasons nb.toNat := by
    rw [List.all_eq_true]
    exact forall₂_congr fun l _ => allows_iff
  unfold ensureCanWithdraw
  by_cases hz : amt = 0
  · exact iff_of_true (if_pos hz) (Or.inl hz)
  · rw [if_neg hz, or_iff_right hz, ← hall]
    split_ifs with hal
    · exact iff_of_true rfl hal
    · exact iff_of_false (fun h => by cases h) hal

theorem AboveLocks.mono {m n : Nat} (h : s.AboveLocks a who reasons m) (hle : m ≤ n) : s.AboveLocks a who reasons n :=
  fun l hl hov => (h l hl hov).trans hle

theorem Spendable.above (h : Spendable s a who amt reasons) (hpos : amt ≠ 0) :
    s.AboveLocks a who reasons (s.freeOf a who - amt.toNat) := by
  obtain ⟨hfu, hlo⟩ := h
  have hab := (ensureCanWithdraw_eq_ok.mp hlo).resolve_left hpos
  rw [toNat_sub_of_le hfu] at hab
  exact hab

/-! ### What is left -/

def Leftover (cfg : Config A) (s : State A) (a : AssetId) (who : A) (amt : Balance) (left : Nat) : Prop :=
  ((s.existentialDeposit a).toNat ≤ s.freeOf a who - amt.toNat ∧ left = s.freeOf a who - amt.toNat) ∨
    (s.freeOf a who - amt.toNat < (s.existentialDeposit a).toNat ∧ who ≠ cfg.dustAccount ∧ left = 0) ∨
    (who = cfg.dustAccount ∧ s.freeOf a who - amt.toNat ≤ left)

theorem locksKept_iff (hsp : Spendable s a who amt reasons) (hl : Leftover cfg s a who amt (s'.freeOf a who)) :
    LocksKept s s' a who reasons ↔ SweepSafe cfg s a who amt reasons := by
  have hk (hle : s.freeOf a who - amt.toNat ≤ s'.freeOf a who) : LocksKept s s' a who reasons := by
    intro hlo
    refine AboveLocks.mono (hsp.above ?_) hle
    rintro rfl
    have hz : (0 : Balance).toNat = 0 := rfl
    omega
  rcases hl with ⟨hde, hl⟩ | ⟨hdu, hoth, hl⟩ | ⟨hse, hle⟩
  · exact iff_of_true (hk (Nat.le_of_eq hl.symm)) (Or.inl hde)
  · unfold LocksKept SweepSafe
    rw [hl]
    constructor
    · intro h
      rcases Nat.eq_zero_or_pos (s.freeOf a who) with hey | hpos
      · exact Or.inr (Or.inr (Or.inl hey))
      · exact Or.inr (Or.inr (Or.inr (h hpos)))
    · rintro (hde | hse | hey | hab) hlo
      · exact absurd hde (Nat.not_le_of_lt hdu)
      · exact absurd hse hoth
      · exact absurd hey (Nat.ne_of_gt hlo)
      · exact hab
  · exact iff_of_true (hk hle) (Or.inr (Or.inl hse))

theorem spendable_of_sum (hsum : nb.toNat + amt.toNat = s.freeOf a who)
    (hlo : ensureCanWithdraw s a who amt reasons nb = .ok ()) :
    Spendable s a who amt reasons := by
  have hfu : amt.toNat ≤ s.freeOf a who := Nat.le.intro ((Nat.add_comm _ _).trans hsum)
  have hnew : s.free a who - amt = nb := by
    refine BitVec.eq_of_toNat_eq ((toNat_sub_of_le hfu).trans ?_)
    exact (Nat.eq_sub_of_add_eq hsum).symm
  exact ⟨hfu, hnew ▸ hlo⟩

theorem Spendable.sum (h : Spendable s a who amt reasons) :
    (s.free a who - amt).toNat + amt.toNat = s.freeOf a who := by
  rw [toNat_sub_of_le h.1]
  exact Nat.sub_add_cancel h.1

theorem reclaimFreeBalance_own (cfg : Config A) (s : State A) (a : AssetId) (who : A) :
    (reclaimFreeBalance cfg s a who).freeOf a who =
      if who = cfg.dustAccount then s.freeOf a who else 0 := by
  have hlt : s.freeOf a who < 2 ^ 128 := (s.free a who).isLt
  rw [reclaimFreeBalance_freeOf]
  split_ifs with hse
  · subst hse
    unfold emptied
    rw [Function.update_self, Function.update_self]
    omega
  · rw [Function.update_of_ne hse, Function.update_self]

theorem makeTransfer_leftover (hsum : nb.toNat + amt.toNat = s.freeOf a source) (newTo : Balance) :
    Leftover cfg s a source amt ((settleTransfer cfg s a source dest nb newTo).freeOf a source) := by
  have hr := Nat.eq_sub_of_add_eq hsum
  have hset : (setFreeBalance (setFreeBalance s a dest newTo) a source nb).freeOf a source = nb.toNat := by
    rw [setFreeBalance_freeOf, Function.update_self]
  unfold Leftover
  rw [← hr]
  unfold settleTransfer
  dsimp only
  split_ifs with hdu
  · rw [reclaimFreeBalance_own, hset]
    split_ifs with hse
    · exact Or.inr (Or.inr ⟨hse, Nat.le_refl _⟩)
    · exact Or.inr (Or.inl ⟨hdu, hse, rfl⟩)
  · exact Or.inl ⟨Nat.le_of_not_lt hdu, hset⟩

theorem takeOut_leftover (hsum : nb.toNat + amt.toNat = s.freeOf a who) :
    Leftover cfg s a who amt ((takeOut cfg s a who nb).freeOf a who) := by
  have hr := Nat.eq_sub_of_add_eq hsum
  unfold Leftover
  rw [← hr]
  unfold takeOut
  split_ifs with hdu
  · rw [reclaimFreeBalance_own]
    split_ifs with hse
    · exact Or.inr (Or.inr ⟨hse, Nat.le.intro hsum⟩)
    · exact Or.inr (Or.inl ⟨hdu, hse, rfl⟩)
  · refine Or.inl ⟨Nat.le_of_not_lt hdu, ?_⟩
    rw [setFreeBalance_freeOf, Function.update_self]

/-! ### The two calls -/

theorem assetWithdraw_eq_ok {n : NegativeImbalance} : AssetCurrency.withdraw cfg s a who amt reasons = .ok (s', n) ↔
      ∃ nb : Balance, nb.toNat + amt.toNat = s.freeOf a who ∧
        ensureCanWithdraw s a who amt reasons nb = .ok () ∧
        s' = takeOut cfg s a who nb ∧ n = ⟨amt, a⟩ := by
  constructor
  · intro h
    obtain ⟨nb, hsum, hs', hn⟩ := withdraw_inv h
    have hsub := checkedSub_eq_some.mpr hsum
    refine ⟨nb, hsum, ?_, hs', hn⟩
    unfold AssetCurrency.withdraw at h
    rw [hsub] at h
    dsimp only at h
    split at h
    · cases h
    · assumption
  · rintro ⟨nb, hsum, hlo, rfl, rfl⟩
    have hsub := checkedSub_eq_some.mpr hsum
    unfold AssetCurrency.withdraw takeOut
    rw [hsub]
    simp only [hlo]
    split <;> rfl

structure Moving (s : State A) (a : AssetId) (source dest : A) (amt : Balance) : Prop where
  spendable : Spendable s a source amt .transfer
  room : s.freeOf a dest + amt.toNat < 2 ^ 128
  apart : source ≠ dest

end

/-- Transfers and withdrawals keep locks exactly if they sweep nothing from under one. -/
theorem locks_kept_iff (cfg : Config A) (s : State A) (assetId : AssetId) : (∀ source dest amount,
      (∀ s', makeTransfer cfg s assetId source dest amount = .ok s' → LocksKept s s' assetId source .transfer) ↔
        (Moving s assetId source dest amount → SweepSafe cfg s assetId source amount .transfer)) ∧
    (∀ who amount reasons, (∀ s' n, AssetCurrency.withdraw cfg s assetId who amount reasons = .ok (s', n) →
        LocksKept s s' assetId who reasons) ↔
        (Spendable s assetId who amount reasons → SweepSafe cfg s assetId who amount reasons)) := by
  constructor
  · intro source dest amount
    constructor
    · intro h hmo
      have hsum := hmo.spendable.sum
      obtain ⟨newTo, hto⟩ := exists_toNat_eq hmo.room
      have hk := h _ (makeTransfer_eq_ok.mpr ⟨_, newTo, hsum, hto.symm, hmo.spendable.2, rfl⟩)
      rw [if_neg hmo.apart] at hk
      exact (locksKept_iff hmo.spendable (makeTransfer_leftover hsum newTo)).mp hk
    · intro hsa s' h
      obtain ⟨newFrom, newTo, hsum, hto, hlo, rfl⟩ := makeTransfer_eq_ok.mp h
      by_cases hse : source = dest
      · rw [if_pos hse]
        exact fun hlw => absurd hlw (Nat.lt_irrefl _)
      · have hsp := spendable_of_sum hsum hlo
        rw [if_neg hse]
        exact (locksKept_iff hsp (makeTransfer_leftover hsum newTo)).mpr (hsa ⟨hsp, hto ▸ newTo.isLt, hse⟩)
  · intro who amount reasons
    constructor
    · intro h hsp
      have hk := h _ _ (assetWithdraw_eq_ok.mpr ⟨_, hsp.sum, hsp.2, rfl, rfl⟩)
      exact (locksKept_iff hsp (takeOut_leftover hsp.sum)).mp hk
    · intro hsa s' n h
      obtain ⟨nb, hsum, hlo, rfl, -⟩ := assetWithdraw_eq_ok.mp h
      have hsp := spendable_of_sum hsum hlo
      exact (locksKept_iff hsp (takeOut_leftover hsum)).mpr (hsa hsp)

def lockedHolder : State Nat :=
  { oneHolder 100 { existentialDeposit := 10 } with
    locks := (∅ : StorageMap (AssetId × Nat) (List BalanceLock)).insert (16000, 1) [⟨1, 5, .all⟩] }

theorem locked_balance_kept : ∃ s', makeTransfer ⟨99⟩ lockedHolder 16000 1 2 50 = .ok s' ∧ s'.free 16000 1 = 50 ∧
      LocksKept lockedHolder s' 16000 1 .transfer :=
  ⟨_, rfl, by decide, ((locks_kept_iff ⟨99⟩ lockedHolder 16000).1 1 2 50).mpr (fun _ => Or.inl (by decide)) _ rfl⟩

/-- A transfer of 92 leaves 8, above the lock of 5 but below the existential deposit: all is swept. -/
theorem locked_balance_swept :
    ∃ s', makeTransfer ⟨99⟩ lockedHolder 16000 1 2 92 = .ok s' ∧ s'.free 16000 1 = 0 ∧ s'.free 16000 99 = 8 ∧
      ¬LocksKept lockedHolder s' 16000 1 .transfer := by
  refine ⟨_, rfl, by decide, by decide, fun hk => ?_⟩
  have hfl := hk (by decide) ⟨1, 5, .all⟩ (by decide) (by decide)
  revert hfl
  decide

section
variable {s : State A} {a : AssetId} {who : A} {v : Balance}

theorem reserve_isOk_iff {cfg : Config A} :
    (∃ s', AssetCurrency.reserve cfg s a who v = .ok s') ↔ v.toNat ≤ s.freeOf a who := by
  constructor
  · rintro ⟨s', h⟩
    exact (reserve_inv h).1
  · intro hfu
    exact ⟨_, if_neg (Nat.not_lt.mpr hfu)⟩

theorem canReserve_iff : AssetCurrency.canReserve s a who v = true ↔ v.toNat ≤ s.freeOf a who ∧
      (v = 0 ∨ s.AboveLocks a who .reserve (s.freeOf a who - v.toNat)) := by
  unfold AssetCurrency.canReserve
  split
  · rename_i nb hsub
    have hsum : nb.toNat + v.toNat = s.freeOf a who := checkedSub_eq_some.mp hsub
    rw [← Nat.eq_sub_of_add_eq hsum, and_iff_right (Nat.le.intro ((Nat.add_comm _ _).trans hsum)),
      ← ensureCanWithdraw_eq_ok]
    cases ensureCanWithdraw s a who v .reserve nb with
    | ok u => exact iff_of_true rfl rfl
    | error e => exact iff_of_false Bool.false_ne_true fun h => by cases h
  · rename_i hsub
    exact iff_of_false Bool.false_ne_true fun h => Nat.not_le.mpr (checkedSub_eq_none.mp hsub) h.1

end

/-- A reservation looks at no lock, so it is predicted exactly where no lock stands in its way. -/
theorem canReserve_predicts_iff (cfg : Config A) (s : State A) (assetId : AssetId) (who : A) (value : Balance) :
    ((∃ s', AssetCurrency.reserve cfg s assetId who value = .ok s') ↔
      AssetCurrency.canReserve s assetId who value = true) ↔
    (value ≠ 0 → value.toNat ≤ s.freeOf assetId who →
      s.AboveLocks assetId who .reserve (s.freeOf assetId who - value.toNat)) := by
  rw [reserve_isOk_iff, canReserve_iff]
  tauto

theorem locked_balance_reserved : (∃ s', AssetCurrency.reserve ⟨99⟩ lockedHolder 16000 1 96 = .ok s') ∧
      AssetCurrency.canReserve lockedHolder 16000 1 96 = false :=
  ⟨⟨_, rfl⟩, by decide⟩

end GenericAsset
