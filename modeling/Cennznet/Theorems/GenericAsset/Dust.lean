import Cennznet.Lib.Run
import Cennznet.Theorems.GenericAsset.Ledger

/-! # Withdrawing and reserving

A remainder of dust sweeps the whole balance before the amount is taken off. -/

namespace GenericAsset

variable {A : Type} [DecidableEq A]

/-! ### Taking an amount out of a free balance -/

def takeOut (cfg : Config A) (s : State A) (aid : AssetId) (who : A) (nb : Balance) : State A :=
  if nb.toNat < (s.existentialDeposit aid).toNat then reclaimFreeBalance cfg s aid who
  else setFreeBalance s aid who nb

def State.debited (cfg : Config A) (s : State A) (aid : AssetId) (who : A) (val : Balance) : A → Nat :=
  debit (s.freeOf aid) (s.existentialDeposit aid).toNat who cfg.dustAccount val.toNat

/-- The remainder is no dust; or nothing is taken and the beneficiary has room for the dust; or its balance is capped at
the amount the remainder alone would give it. -/
def DustSafe (cfg : Config A) (s : State A) (aid : AssetId) (who : A) (val : Balance) :
    Prop :=
  (s.existentialDeposit aid).toNat ≤ s.freeOf aid who - val.toNat ∨
    (val.toNat = 0 ∧ emptied (s.freeOf aid) who cfg.dustAccount + s.freeOf aid who ≤ 2 ^ 128 - 1) ∨
    emptied (s.freeOf aid) who cfg.dustAccount + (s.freeOf aid who - val.toNat) = 2 ^ 128 - 1

section
variable {cfg : Config A} {s s' : State A} {aid a : AssetId} {who : A}
  {val nb : Balance}

theorem takeOut_reservedBalance : (takeOut cfg s aid who nb).reservedBalance = s.reservedBalance := by
  unfold takeOut
  split
  · exact reclaimFreeBalance_reservedBalance
  · rfl

theorem takeOut_totalIssuance : (takeOut cfg s aid who nb).totalIssuance = s.totalIssuance := by
  unfold takeOut
  split
  · exact reclaimFreeBalance_totalIssuance
  · rfl

theorem takeOut_freeOf_ne (h : a ≠ aid) : (takeOut cfg s aid who nb).freeOf a = s.freeOf a := by
  unfold takeOut
  split
  · exact reclaimFreeBalance_freeOf_ne h
  · exact setFreeBalance_freeOf_ne h

theorem debit_of_lt {b : A → Nat} {e v : Nat} {who ben : A} (h : b who - v < e) :
    debit b e who ben v = Function.update (Function.update b who 0) ben (emptied b who ben + (b who - v)) := by
  unfold debit sweep emptied
  simp only [h, if_true, Function.update_idem, Function.update_self]

theorem takeOut_freeOf_iff (hnew : nb.toNat + val.toNat = s.freeOf aid who) :
    (takeOut cfg s aid who nb).freeOf aid = s.debited cfg aid who val ↔ DustSafe cfg s aid who val := by
  have hsub : s.freeOf aid who - val.toNat = nb.toNat := by omega
  unfold takeOut State.debited DustSafe
  by_cases hdu : nb.toNat < (s.existentialDeposit aid).toNat
  · rw [if_pos hdu, reclaimFreeBalance_freeOf, debit_of_lt (hsub ▸ hdu), hsub]
    have hup : ∀ (b : A → Nat) (x : A) (m n : Nat),
        Function.update b x m = Function.update b x n ↔ m = n := fun b x m n =>
      (Function.update_injective b x).eq_iff
    rw [hup]
    omega
  · rw [if_neg hdu, setFreeBalance_freeOf]
    have hke : debit (s.freeOf aid) (s.existentialDeposit aid).toNat who cfg.dustAccount val.toNat =
        Function.update (s.freeOf aid) who nb.toNat := by
      unfold debit
      simp only [hsub, hdu, if_false]
    exact iff_of_true hke.symm (Or.inl (by omega))

theorem takeOut_holdings (hnew : nb.toNat + val.toNat = s.freeOf aid who) (hsa : DustSafe cfg s aid who val) :
    (takeOut cfg s aid who nb).holdings aid + val.toNat = s.holdings aid := by
  unfold takeOut
  by_cases hdu : nb.toNat < (s.existentialDeposit aid).toNat
  · rw [if_pos hdu]
    have hsum := reclaimFreeBalance_holdings cfg s aid who
    unfold DustSafe at hsa
    omega
  · rw [if_neg hdu]
    have hsum := setFreeBalance_holdings s aid who nb
    omega

/-! ### `AssetCurrency::withdraw` -/

/-- The ledger loses `value`, taken from `who` alone, and dropping the imbalance squares up the issuance. -/
structure Withdrawn (cfg : Config A) (s : State A) (aid : AssetId) (who : A)
    (val : Balance) (s' : State A) (n : NegativeImbalance) : Prop where
  free : s'.freeOf aid = s.debited cfg aid who val
  otherAssets : ∀ a, a ≠ aid → s'.freeOf a = s.freeOf a
  reserved : ∀ a, s'.reservedOf a = s.reservedOf a
  holdings : s'.holdings aid + val.toNat = s.holdings aid
  imbalance : n = ⟨val, aid⟩
  issuance : (s.issuanceOf aid).toNat = s.holdings aid →
    ((dropNegative s' n).issuanceOf aid).toNat = (dropNegative s' n).holdings aid

theorem withdraw_inv {rs : WithdrawReasons} {n : NegativeImbalance}
    (h : AssetCurrency.withdraw cfg s aid who val rs = .ok (s', n)) :
    ∃ nb : Balance, nb.toNat + val.toNat = s.freeOf aid who ∧ s' = takeOut cfg s aid who nb ∧ n = ⟨val, aid⟩ := by
  unfold AssetCurrency.withdraw at h
  split at h
  · cases h
  · rename_i nb hsub
    refine ⟨nb, Word.checkedSub_eq_some.mp hsub, ?_⟩
    split at h
    · cases h
    · unfold takeOut
      split at h <;> cases h
      · rename_i hdu
        exact ⟨(if_pos hdu).symm, rfl⟩
      · rename_i hdu
        exact ⟨(if_neg hdu).symm, rfl⟩

end

/-- A withdrawal balances exactly if it meets no dust or meets it harmlessly. -/
theorem withdraw_balances_iff (cfg : Config A) (s s' : State A) (assetId : AssetId) (who : A) (value : Balance)
    (reasons : WithdrawReasons) (n : NegativeImbalance)
    (h : AssetCurrency.withdraw cfg s assetId who value reasons = .ok (s', n)) :
    Withdrawn cfg s assetId who value s' n ↔ DustSafe cfg s assetId who value := by
  obtain ⟨nb, hnew, rfl, rfl⟩ := withdraw_inv h
  constructor
  · intro w
    exact (takeOut_freeOf_iff hnew).mp w.free
  · intro hsa
    have hsum := takeOut_holdings hnew hsa
    refine ⟨(takeOut_freeOf_iff hnew).mpr hsa, fun a ha => takeOut_freeOf_ne ha, fun a => ?_, hsum, rfl, ?_⟩
    · funext x
      unfold State.reservedOf State.reserved
      rw [takeOut_reservedBalance]
    · intro hie
      have hti : (takeOut cfg s assetId who nb).issuanceOf assetId = s.issuanceOf assetId := by
        unfold State.issuanceOf
        rw [takeOut_totalIssuance]
      rw [dropNegative_issuanceOf, dropNegative_holdings, hti]
      omega

def oneHolder (n : Balance) (info : AssetInfo) : State Nat :=
  Steps.execute (step ⟨99⟩) (State.genesis 16000)
    [.create 1 { initialIssuance := n, permissions := {} } { info with decimalPlaces := 0 }]

theorem withdraw_above_deposit_balances :
    ∃ s' n, AssetCurrency.withdraw ⟨99⟩ (oneHolder 5 {}) 16000 1 3 .transfer = .ok (s', n) ∧
      Withdrawn ⟨99⟩ (oneHolder 5 {}) 16000 1 3 s' n :=
  ⟨_, _, rfl, (withdraw_balances_iff _ _ _ _ _ _ WithdrawReasons.transfer _ rfl).mpr (Or.inl (by decide))⟩

theorem withdraw_whole_balance_unbalanced :
    ∃ s' n, AssetCurrency.withdraw ⟨99⟩ (oneHolder 5 {}) 16000 1 5 .transfer = .ok (s', n) ∧
      n.amount = 5 ∧ s'.free 16000 99 = 5 ∧ ¬Withdrawn ⟨99⟩ (oneHolder 5 {}) 16000 1 5 s' n := by
  refine ⟨_, _, rfl, rfl, rfl, fun w => ?_⟩
  have hsum := w.holdings
  revert hsum
  decide

/-! ### `reserve` -/

/-- `amount` moves from the free to the reserved balance of `who`, and only a remainder of dust moves besides. -/
structure Reserved (cfg : Config A) (s : State A) (aid : AssetId) (who : A)
    (n : Balance) (s' : State A) : Prop where
  free : s'.freeOf aid = s.debited cfg aid who n
  otherAssets : ∀ a, a ≠ aid → s'.freeOf a = s.freeOf a
  reserved : s'.reservedOf aid = Function.update (s.reservedOf aid) who (s.reservedOf aid who + n.toNat)
  otherReserved : ∀ a, a ≠ aid → s'.reservedOf a = s.reservedOf a
  holdings : s'.holdings aid = s.holdings aid

def putReserved (s : State A) (aid : AssetId) (who : A) (n : Balance) : State A :=
  { s with reservedBalance := s.reservedBalance.insert (aid, who) n }

section
variable {cfg : Config A} {s s' : State A} {aid a : AssetId} {who : A} {n : Balance}

theorem reserve_inv (h : reserve cfg s aid who n = .ok s') : n.toNat ≤ s.freeOf aid who ∧
      s' = putReserved (takeOut cfg s aid who (s.free aid who - n)) aid who (s.reserved aid who + n) := by
  unfold reserve at h
  dsimp only at h
  split at h
  · cases h
  · rename_i hle
    cases h
    exact ⟨Nat.le_of_not_lt hle, rfl⟩

theorem putReserved_reservedOf : (putReserved s aid who n).reservedOf aid =
      Function.update (s.reservedOf aid) who n.toNat := by
  funext x
  unfold State.reservedOf State.reserved putReserved
  by_cases h : x = who <;> simp [h]

theorem putReserved_reservedOf_ne (h : a ≠ aid) : (putReserved s aid who n).reservedOf a = s.reservedOf a := by
  funext x
  unfold State.reservedOf State.reserved putReserved
  simp [h]

theorem putReserved_holdings (s : State A) (aid : AssetId) (who : A) (n : Balance) :
    (putReserved s aid who n).holdings aid + s.reservedOf aid who = s.holdings aid + n.toNat := by
  have h : (s.reservedBalance.insert (aid, who) n).sumBy (held aid) + s.reservedOf aid who =
      s.reservedBalance.sumBy (held aid) + n.toNat := StorageMap.sumBy_under_insert rfl
  unfold State.holdings putReserved
  dsimp only
  omega

theorem takeOut_reservedOf {nb : Balance} : (takeOut cfg s aid who nb).reservedOf = s.reservedOf := by
  funext a x
  unfold State.reservedOf State.reserved
  rw [takeOut_reservedBalance]

end

/-- A reservation fails for want of funds, or it balances, exactly if it meets no dust (or harmless dust) and the
reserved balance has room. -/
theorem reserve_balances_iff (cfg : Config A) (s : State A) (assetId : AssetId) (who : A) (amount : Balance) :
    (∀ s', reserve cfg s assetId who amount = .ok s' → Reserved cfg s assetId who amount s') ↔
      (s.freeOf assetId who < amount.toNat ∨
        (s.reservedOf assetId who + amount.toNat < 2 ^ 128 ∧ DustSafe cfg s assetId who amount)) := by
  by_cases hfu : s.freeOf assetId who < amount.toNat
  · refine iff_of_true (fun s' h => ?_) (Or.inl hfu)
    cases h.symm.trans (if_pos hfu)
  have hle : amount.toNat ≤ (s.free assetId who).toNat := Nat.le_of_not_lt hfu
  have hnew : (s.free assetId who - amount).toNat + amount.toNat = s.freeOf assetId who := by
    rw [Word.toNat_sub_of_le hle]
    exact Nat.sub_add_cancel hle
  constructor
  · intro h
    have w := h _ (if_neg hfu)
    refine Or.inr ⟨?_, (takeOut_freeOf_iff hnew).mp w.free⟩
    -- The reserved balance is a sum that wraps around, so it is the sum only where it fits.
    have hres := congrFun w.reserved who
    rw [Function.update_self] at hres
    rw [← hres]
    exact BitVec.isLt _
  · rintro (h | ⟨hfit, hsa⟩) s' hs'
    · exact absurd h hfu
    obtain ⟨-, rfl⟩ := reserve_inv hs'
    have hadd : (s.reserved assetId who + amount).toNat = s.reservedOf assetId who + amount.toNat :=
      BitVec.toNat_add_of_lt hfit
    have hsum := takeOut_holdings hnew hsa
    have hput := putReserved_holdings (takeOut cfg s assetId who (s.free assetId who - amount)) assetId who
      (s.reserved assetId who + amount)
    refine ⟨(takeOut_freeOf_iff hnew).mpr hsa, fun a ha => takeOut_freeOf_ne ha, ?_, fun a ha => ?_, ?_⟩
    · rw [putReserved_reservedOf, takeOut_reservedOf, hadd]
    · rw [putReserved_reservedOf_ne ha, takeOut_reservedOf]
    · rw [takeOut_reservedOf, hadd] at hput
      omega

theorem reserve_whole_balance_unbalanced : ∃ s', reserve ⟨99⟩ (oneHolder 5 {}) 16000 1 5 = .ok s' ∧
      s'.reserved 16000 1 = 5 ∧ s'.free 16000 99 = 5 ∧ ¬Reserved ⟨99⟩ (oneHolder 5 {}) 16000 1 5 s' := by
  refine ⟨_, rfl, rfl, rfl, fun w => ?_⟩
  have hsum := w.holdings
  revert hsum
  decide

end GenericAsset
