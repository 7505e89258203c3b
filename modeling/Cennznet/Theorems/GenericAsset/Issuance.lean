import Cennznet.Lib.Result
import Cennznet.Lib.Run
import Cennznet.Theorems.GenericAsset.Transfer

/-! # Issuance and holdings

What an operation does to the balances is said once, by `Wrote`. -/

namespace GenericAsset

open Word

def State.Balanced {A : Type} (s : State A) : Prop :=
  ∀ aid, (s.issuanceOf aid).toNat = s.holdings aid

structure Wrote {A : Type} (s s' : State A) (aid : AssetId) (gained lost : Nat) : Prop where
  holdings : s'.holdings aid + lost = s.holdings aid + gained
  others : ∀ a, a ≠ aid → s'.holdings a = s.holdings a
  issuance : s'.totalIssuance = s.totalIssuance

def Slashed {A : Type} (s : State A) (aid : AssetId) (amt : Balance) (r : State A × Option Balance) : Prop :=
  ∃ taken : Balance, taken.toNat ≤ amt.toNat ∧ Wrote s r.1 aid 0 taken.toNat ∧
    r.2 = if amt = taken then none else some (amt - taken)

def setIssuance {A : Type} (s : State A) (aid : AssetId) (v : Balance) : State A :=
  { s with totalIssuance := s.totalIssuance.insert aid v }

section
variable {A : Type} {s s' s'' : State A} {aid : AssetId} {gained lost gained' lost' : Nat}
  {amt : Balance}

theorem State.Balanced.holdings_lt (h : s.Balanced) (aid : AssetId) : s.holdings aid < 2 ^ 128 := by
  rw [← h aid]
  exact BitVec.isLt _

theorem setIssuance_holdings (a : AssetId) : (setIssuance s aid amt).holdings a = s.holdings a := rfl

theorem Wrote.refl : Wrote s s aid 0 0 := ⟨rfl, fun _ _ => rfl, rfl⟩

theorem Wrote.trans (h : Wrote s s' aid gained lost) (h' : Wrote s' s'' aid gained' lost') :
    Wrote s s'' aid (gained + gained') (lost + lost') := by
  refine ⟨?_, fun a ha => (h'.others a ha).trans (h.others a ha), h'.issuance.trans h.issuance⟩
  have h1 := h.holdings
  have h2 := h'.holdings
  omega

theorem Wrote.of_eq (h : Wrote s s' aid gained lost) (heq : gained + lost' = gained' + lost) :
    Wrote s s' aid gained' lost' := by
  refine ⟨?_, h.others, h.issuance⟩
  have hsum := h.holdings
  omega

theorem Wrote.issuanceOf (h : Wrote s s' aid gained lost) (a : AssetId) : s'.issuanceOf a = s.issuanceOf a := by
  unfold State.issuanceOf
  rw [h.issuance]

theorem Wrote.holdings_eq (h : Wrote s s' aid 0 0) (a : AssetId) : s'.holdings a = s.holdings a := by
  by_cases ha : a = aid
  · subst ha
    exact h.holdings
  · exact h.others a ha

theorem Wrote.balanced (h : Wrote s s' aid gained gained) (hs : s.Balanced) : s'.Balanced := by
  intro a
  rw [h.issuanceOf, hs a]
  by_cases ha : a = aid
  · subst ha
    have hsum := h.holdings
    omega
  · exact (h.others a ha).symm

theorem Wrote.balanced_setIssuance_iff (h : Wrote s s' aid gained lost) (hs : s.Balanced) :
    (setIssuance s' aid amt).Balanced ↔ amt.toNat + lost = (s.issuanceOf aid).toNat + gained := by
  have hsum := h.holdings
  have hbal := hs aid
  have hnew : ((setIssuance s' aid amt).issuanceOf aid).toNat = amt.toNat :=
    congrArg BitVec.toNat (StorageMap.getD_insert.trans (if_pos rfl))
  constructor
  · intro h'
    have hst := h' aid
    rw [hnew, setIssuance_holdings] at hst
    omega
  · intro heq a
    rw [setIssuance_holdings]
    by_cases ha : a = aid
    · subst ha
      omega
    · have hoth : (setIssuance s' aid amt).issuanceOf a = s'.issuanceOf a := StorageMap.getD_insert.trans (if_neg ha)
      rw [hoth, h.issuanceOf, hs a, h.others a ha]

theorem Wrote.balanced_dropPositive (h : Wrote s s' aid amt.toNat 0) (hs : s.Balanced)
    (hfit : (s.issuanceOf aid).toNat + amt.toNat < 2 ^ 128) : (dropPositive s' ⟨amt, aid⟩).Balanced := by
  refine (h.balanced_setIssuance_iff hs).mpr ?_
  rw [toNat_saturatingAdd, h.issuanceOf]
  dsimp only
  omega

theorem Wrote.balanced_dropNegative (h : Wrote s s' aid 0 amt.toNat) (hs : s.Balanced) :
    (dropNegative s' ⟨amt, aid⟩).Balanced := by
  refine (h.balanced_setIssuance_iff hs).mpr ?_
  have hsum := h.holdings
  have hbal := hs aid
  rw [toNat_saturatingSub, h.issuanceOf]
  dsimp only
  omega

theorem Slashed.balanced {r : State A × Option Balance} (h : Slashed s aid amt r) (hs : s.Balanced) :
    (dropNegative r.1 ⟨amt - r.2.getD 0, aid⟩).Balanced := by
  obtain ⟨taken, -, hwr, hr⟩ := h
  have him : amt - r.2.getD 0 = taken := by
    rw [hr]
    split_ifs with hall
    · rw [hall]
      exact BitVec.sub_zero taken
    · show amt - (amt - taken) = taken
      bv_omega
  rw [him]
  exact hwr.balanced_dropNegative hs

end

section
variable {A : Type} [DecidableEq A] {cfg : Config A} {s s' : State A}
  {aid : AssetId} {who dest payee : A} {amt v : Balance}

theorem setFreeBalance_wrote (s : State A) (aid : AssetId) (who : A) (v : Balance) :
    Wrote s (setFreeBalance s aid who v) aid v.toNat (s.freeOf aid who) :=
  ⟨setFreeBalance_holdings s aid who v, fun _ ha => setFreeBalance_holdings_ne ha, rfl⟩

theorem setReservedBalance_wrote (s : State A) (aid : AssetId) (who : A) (v : Balance) :
    Wrote s (setReservedBalance s aid who v) aid v.toNat (s.reservedOf aid who) :=
  ⟨setReservedBalance_holdings s aid who v, fun _ ha => setReservedBalance_holdings_ne ha,
    setReservedBalance_totalIssuance⟩

theorem reclaimFreeBalance_wrote (hfit : s.holdings aid < 2 ^ 128) :
    Wrote s (reclaimFreeBalance cfg s aid who) aid 0 0 := by
  have hsum := reclaimFreeBalance_holdings cfg s aid who
  have hle := emptied_add_le_holdings s aid who cfg.dustAccount
  refine ⟨?_, fun _ ha => reclaimFreeBalance_holdings_ne ha, reclaimFreeBalance_totalIssuance⟩
  omega

theorem makeTransfer_wrote (h : makeTransfer cfg s aid who dest amt = .ok s')
    (hfit : s.holdings aid < 2 ^ 128) : Wrote s s' aid 0 0 := by
  obtain ⟨newFrom, newTo, hfr, hto, -, rfl⟩ := makeTransfer_eq_ok.mp h
  split_ifs with hse
  · exact Wrote.refl
  have hso : (setFreeBalance s aid dest newTo).freeOf aid who = s.freeOf aid who := by
    rw [setFreeBalance_freeOf, Function.update_of_ne hse]
  have hmo : Wrote s (setFreeBalance (setFreeBalance s aid dest newTo) aid who newFrom) aid 0 0 := by
    have hbo := (setFreeBalance_wrote s aid dest newTo).trans (setFreeBalance_wrote _ aid who newFrom)
    rw [hso] at hbo
    refine hbo.of_eq ?_
    omega
  unfold settleTransfer
  dsimp only
  split
  · refine hmo.trans (reclaimFreeBalance_wrote ?_)
    have hsum := hmo.holdings
    omega
  · exact hmo

theorem transfer_wrote (h : MultiCurrency.transfer cfg s who dest aid amt = .ok s')
    (hfit : s.holdings aid < 2 ^ 128) : Wrote s s' aid 0 0 := by
  unfold MultiCurrency.transfer at h
  split at h
  · cases h
    exact Wrote.refl
  · exact makeTransfer_wrote h hfit

theorem freeOf_add_freeOf_le_holdings (s : State A) (aid : AssetId) (h : who ≠ dest) :
    s.freeOf aid who + s.freeOf aid dest ≤ s.holdings aid := by
  have hle := emptied_add_le_holdings s aid who dest
  unfold emptied at hle
  rw [Function.update_of_ne h.symm] at hle
  omega

theorem transfer_isOk (cfg : Config A) (hfu : amt.toNat ≤ s.freeOf aid who) (hne : who ≠ dest)
    (hfit : s.holdings aid < 2 ^ 128) (hun : s.locks.getD (aid, who) [] = []) :
    ∃ s', MultiCurrency.transfer cfg s who dest aid amt = .ok s' := by
  have hsum := freeOf_add_freeOf_le_holdings s aid hne
  obtain ⟨newFrom, hfr⟩ := exists_toNat_eq (w := 128) (n := s.freeOf aid who - amt.toNat)
    (Nat.lt_of_le_of_lt (Nat.sub_le _ _) (s.free aid who).isLt)
  obtain ⟨newTo, hto⟩ := exists_toNat_eq (w := 128) (n := s.freeOf aid dest + amt.toNat) (by omega)
  have hlo : ensureCanWithdraw s aid who amt .transfer newFrom = .ok () := by
    unfold ensureCanWithdraw
    rw [hun]
    split <;> rfl
  unfold MultiCurrency.transfer
  split
  · exact ⟨s, rfl⟩
  · exact ⟨_, makeTransfer_eq_ok.mpr ⟨newFrom, newTo, by omega, hto.symm, hlo, rfl⟩⟩

theorem setReservedBalance_freeOf : (setReservedBalance s aid who v).freeOf = s.freeOf := by
  funext a x
  unfold State.freeOf State.free
  rw [setReservedBalance_freeBalance]

theorem freeOf_add_reservedOf_le_holdings (s : State A) (aid : AssetId) (who payee : A) :
    s.freeOf aid who + s.reservedOf aid payee ≤ s.holdings aid := by
  have hsum := setReservedBalance_holdings s aid payee 0
  have hle := freeOf_le_holdings (setReservedBalance s aid payee 0) aid who
  have hz : (0 : Balance).toNat = 0 := rfl
  rw [setReservedBalance_freeOf] at hle
  omega

theorem released_eq (who : A) (hle : v.toNat ≤ s.reservedOf aid payee) (hfit : s.holdings aid < 2 ^ 128) :
    (s.free aid who + v).toNat + (s.reserved aid payee - v).toNat = s.freeOf aid who + s.reservedOf aid payee := by
  have hsum := freeOf_add_reservedOf_le_holdings s aid who payee
  have hadd : (s.free aid who + v).toNat = s.freeOf aid who + v.toNat := by
    refine BitVec.toNat_add_of_lt ?_
    unfold State.freeOf at hsum
    omega
  have hsub : (s.reserved aid payee - v).toNat = s.reservedOf aid payee - v.toNat := toNat_sub_of_le hle
  omega

theorem unreserve_wrote (hfit : s.holdings aid < 2 ^ 128) : Wrote s (unreserve s aid who amt).1 aid 0 0 := by
  unfold unreserve
  dsimp only
  generalize hva : (if (s.reserved aid who).toNat ≤ amt.toNat then s.reserved aid who else amt) = v
  have hle : v.toNat ≤ s.reservedOf aid who := by
    rw [← hva, toNat_lesser]
    exact Nat.min_le_left _ _
  have hbo := (setReservedBalance_wrote s aid who (s.reserved aid who - v)).trans
    (setFreeBalance_wrote _ aid who (s.free aid who + v))
  have hsum := released_eq who hle hfit
  rw [setReservedBalance_freeOf] at hbo
  have hmo : Wrote s _ aid 0 0 := hbo.of_eq (by omega)
  rw [setFreeBalance, setReservedBalance_freeBalance] at hmo
  rw [setReservedBalance_freeBalance]
  exact hmo

theorem repatriateReserved_wrote (hfit : s.holdings aid < 2 ^ 128) :
    Wrote s (repatriateReserved s aid payee who amt).1 aid 0 0 := by
  unfold repatriateReserved
  split
  · exact Wrote.refl
  dsimp only
  generalize hva : (if (s.reserved aid payee).toNat ≤ amt.toNat then s.reserved aid payee else amt) = v
  have hle : v.toNat ≤ s.reservedOf aid payee := by
    rw [← hva, toNat_lesser]
    exact Nat.min_le_left _ _
  have hbo := (setFreeBalance_wrote s aid who (s.free aid who + v)).trans
    (setReservedBalance_wrote _ aid payee (s.reserved aid payee - v))
  have hsum := released_eq who hle hfit
  have hre : (setFreeBalance s aid who (s.free aid who + v)).reservedOf aid payee = s.reservedOf aid payee := rfl
  exact hbo.of_eq (by omega)

theorem slashReserved_slashed (s : State A) (aid : AssetId) (who : A) (amt : Balance) :
    Slashed s aid amt (slashReserved s aid who amt) := by
  unfold slashReserved
  dsimp only
  generalize hta : (if (s.reserved aid who).toNat ≤ amt.toNat then s.reserved aid who else amt) = taken
  have hmin : taken.toNat = min (s.reservedOf aid who) amt.toNat := by
    rw [← hta, toNat_lesser]
    rfl
  have hsub : (s.reserved aid who - taken).toNat = s.reservedOf aid who - taken.toNat :=
    toNat_sub_of_le (hmin.trans_le (Nat.min_le_left _ _))
  refine ⟨taken, by omega, (setReservedBalance_wrote s aid who _).of_eq ?_, rfl⟩
  omega

theorem slash_slashed : Slashed s aid amt (slash s aid who amt) := by
  unfold slash
  dsimp only
  generalize hta : (if (s.free aid who).toNat ≤ amt.toNat then s.free aid who else amt) = taken
  have hmin : taken.toNat = min (s.freeOf aid who) amt.toNat := by
    rw [← hta, toNat_lesser]
    rfl
  have hsub : (s.free aid who - taken).toNat = s.freeOf aid who - taken.toNat :=
    toNat_sub_of_le (hmin.trans_le (Nat.min_le_left _ _))
  have hf : Wrote s (setFreeBalance s aid who (s.free aid who - taken)) aid 0 taken.toNat :=
    (setFreeBalance_wrote s aid who _).of_eq (by omega)
  split
  · -- the free balance does not cover the amount, and the rest comes off the reserved balance
    rename_i hlt
    obtain ⟨more, hle, hwr, hr⟩ := slashReserved_slashed
      (setFreeBalance s aid who (s.free aid who - taken)) aid who (amt - taken)
    have hrem : (amt - taken).toNat = amt.toNat - taken.toNat := toNat_sub_of_le hlt.le
    have hadd : (taken + more).toNat = taken.toNat + more.toNat := BitVec.toNat_add_of_lt (by omega)
    refine ⟨taken + more, by omega, ?_, ?_⟩
    · rw [hadd]
      exact hf.trans hwr
    · have hs : (amt = taken + more) = (amt - taken = more) := by
        apply propext
        rw [← BitVec.toNat_inj, ← BitVec.toNat_inj]
        omega
      have hdi : amt - (taken + more) = amt - taken - more := by bv_omega
      rw [hr, hdi]
      simp only [hs]
  · have hall : amt = taken := by
      rw [← BitVec.toNat_inj]
      omega
    exact ⟨taken, by omega, hf, (if_pos hall).symm⟩

theorem mintFree_balanced (h : mintFree s aid who dest amt = .ok s') (hs : s.Balanced) : s'.Balanced := by
  unfold mintFree at h
  split at h
  · split at h
    · cases h
    rename_i newTotal htot
    split at h
    · cases h
    rename_i newFree hf
    cases h
    rw [checkedAdd_eq_some] at htot hf
    refine ((setFreeBalance_wrote s aid dest _).balanced_setIssuance_iff hs).mpr ?_
    unfold State.freeOf
    omega
  · cases h

theorem burnFree_balanced (h : burnFree s aid who dest amt = .ok s') (hs : s.Balanced) : s'.Balanced := by
  unfold burnFree at h
  split at h
  · split at h
    · cases h
    rename_i newTotal htot
    split at h
    · cases h
    rename_i newFree hf
    cases h
    rw [checkedSub_eq_some] at htot hf
    refine ((setFreeBalance_wrote s aid dest _).balanced_setIssuance_iff hs).mpr ?_
    unfold State.freeOf
    omega
  · cases h

theorem makeFreeBalanceBe_balanced (aid : AssetId) (who : A) (v : Balance) (hs : s.Balanced)
    (hfit : s.holdings aid - s.freeOf aid who + v.toNat < 2 ^ 128) :
    (dropSigned (MultiCurrency.makeFreeBalanceBe s who aid v).1
      (MultiCurrency.makeFreeBalanceBe s who aid v).2).Balanced := by
  have hbal := hs aid
  have hle := freeOf_le_holdings s aid who
  unfold MultiCurrency.makeFreeBalanceBe
  dsimp only
  split_ifs with hup
  · have hdi : (v - s.free aid who).toNat = v.toNat - s.freeOf aid who := toNat_sub_of_le hup
    have hcr : Wrote s (setFreeBalance s aid who v) aid (v - s.free aid who).toNat 0 :=
      (setFreeBalance_wrote s aid who v).of_eq (by unfold State.freeOf at hdi ⊢; omega)
    exact hcr.balanced_dropPositive hs (by unfold State.freeOf at *; omega)
  · have hdi : (s.free aid who - v).toNat = s.freeOf aid who - v.toNat := toNat_sub_of_le (Nat.le_of_not_le hup)
    have hde : Wrote s (setFreeBalance s aid who v) aid 0 (s.free aid who - v).toNat :=
      (setFreeBalance_wrote s aid who v).of_eq (by unfold State.freeOf at hdi ⊢; omega)
    exact hde.balanced_dropNegative hs

theorem depositCreating_eq (hfit : s.freeOf aid who + v.toNat < 2 ^ 128) : MultiCurrency.depositCreating s who aid v =
      if v = 0 then (s, .zero) else (setFreeBalance s aid who (s.free aid who + v), ⟨v, aid⟩) := by
  have hadd := BitVec.toNat_add_of_lt hfit
  have hup : (s.free aid who).toNat ≤ (s.free aid who + v).toNat := by omega
  have hdi : s.free aid who + v - s.free aid who = v := by bv_omega
  unfold MultiCurrency.depositCreating MultiCurrency.makeFreeBalanceBe
  simp only [hup, hdi, if_true]

theorem depositCreating_wrote (hfit : s.freeOf aid who + v.toNat < 2 ^ 128) :
    Wrote s (MultiCurrency.depositCreating s who aid v).1 aid v.toNat 0 := by
  rw [depositCreating_eq hfit]
  have hadd : (s.free aid who + v).toNat = s.freeOf aid who + v.toNat := BitVec.toNat_add_of_lt hfit
  split_ifs with hz
  · subst hz
    exact Wrote.refl
  · exact (setFreeBalance_wrote s aid who _).of_eq (by omega)

theorem depositCreating_balanced (hs : s.Balanced) (hfit : (s.issuanceOf aid).toNat + v.toNat < 2 ^ 128) :
    (dropPositive (MultiCurrency.depositCreating s who aid v).1
      (MultiCurrency.depositCreating s who aid v).2).Balanced := by
  have hbal := hs aid
  have hle := freeOf_le_holdings s aid who
  have hr : s.freeOf aid who + v.toNat < 2 ^ 128 := by omega
  have hwr : Wrote s (MultiCurrency.depositCreating s who aid v).1 aid v.toNat 0 := depositCreating_wrote hr
  rw [depositCreating_eq hr] at hwr ⊢
  by_cases hz : v = 0
  · rw [if_pos hz]
    exact Wrote.balanced_dropPositive (Wrote.refl : Wrote s s 0 0 0) hs (BitVec.isLt _)
  · rw [if_neg hz] at hwr ⊢
    exact hwr.balanced_dropPositive hs hfit

theorem withdraw_eq_ok {rs : WithdrawReasons} {n : NegativeImbalance} :
    MultiCurrency.withdraw s who aid v rs = .ok (s', n) ↔
      if v = 0 then s' = s ∧ n = .zero
      else ∃ newBalance : Balance, newBalance.toNat + v.toNat = s.freeOf aid who ∧
        ensureCanWithdraw s aid who v rs newBalance = .ok () ∧
        s' = setFreeBalance s aid who newBalance ∧ n = ⟨v, aid⟩ := by
  unfold MultiCurrency.withdraw
  split
  · rw [Except.ok.injEq, Prod.mk.injEq, eq_comm (a := s), eq_comm (b := n)]
  constructor
  · intro h
    split at h
    · cases h
    rename_i newBalance hnew
    split at h
    · cases h
    rename_i hlo
    cases h
    exact ⟨newBalance, checkedSub_eq_some.mp hnew, hlo, rfl, rfl⟩
  · rintro ⟨newBalance, hnew, hlo, rfl, rfl⟩
    have hsub := checkedSub_eq_some.mpr hnew
    simp only [hsub, hlo]

theorem withdraw_balanced {rs : WithdrawReasons} {n : NegativeImbalance}
    (h : MultiCurrency.withdraw s who aid v rs = .ok (s', n)) (hs : s.Balanced) :
    (dropNegative s' n).Balanced := by
  rw [withdraw_eq_ok] at h
  split at h
  · obtain ⟨rfl, rfl⟩ := h
    exact Wrote.balanced_dropNegative (Wrote.refl : Wrote _ _ 0 0 0) hs
  · obtain ⟨nb, hnew, -, rfl, rfl⟩ := h
    exact Wrote.balanced_dropNegative ((setFreeBalance_wrote s aid who nb).of_eq (by omega)) hs

end

end GenericAsset
