import Cennznet.Theorems.GenericAsset.Dust
import Cennznet.Theorems.GenericAsset.Frame

/-! # Reserved balances -/

namespace GenericAsset

variable {A : Type} [DecidableEq A]

def portion (aid : AssetId) (who : A) (n : Nat) (a : AssetId) (x : A) : Nat :=
  if a = aid ∧ x = who then n else 0

theorem portion_self (aid : AssetId) (who : A) (n : Nat) : portion aid who n aid who = n :=
  if_pos ⟨rfl, rfl⟩

theorem portion_add (aid : AssetId) (who : A) (m n : Nat) (a : AssetId) (x : A) :
    portion aid who (m + n) a x = portion aid who m a x + portion aid who n a x := by
  unfold portion
  split <;> rfl

def Released (s s' : State A) (aid : AssetId) (who : A) (n : Nat) : Prop :=
  ∀ a x, s'.reservedOf a x + portion aid who n a x = s.reservedOf a x

section
variable {cfg : Config A} {s s' s'' : State A} {aid : AssetId} {who dest : A} {m n : Nat}
  {amt : Balance}

theorem Released.refl : Released s s aid who 0 := by
  intro a x
  rw [portion, ite_self, Nat.add_zero]

theorem Released.trans (h : Released s s' aid who m) (h' : Released s' s'' aid who n) :
    Released s s'' aid who (m + n) := by
  intro a x
  have hfi := h a x
  have hse := h' a x
  rw [portion_add]
  omega

theorem Released.of_asset (h : Released s s' aid who n) (x : A) :
    s'.reservedOf aid x + (if who = x then n else 0) = s.reservedOf aid x := by
  have hx := h aid x
  unfold portion at hx
  simpa only [true_and, eq_comm (a := x)] using hx

theorem Released.left (h : Released s s' aid who n) : s'.reservedOf aid who + n = s.reservedOf aid who := by
  have hown := h aid who
  rwa [portion_self] at hown

theorem setReservedBalance_released (hle : amt.toNat ≤ s.reservedOf aid who)
    (hk : s'.reservedBalance = s.reservedBalance) :
    Released s (setReservedBalance s' aid who (s.reserved aid who - amt)) aid who amt.toNat := by
  intro a x
  have hsub := Word.toNat_sub_of_le hle
  unfold State.reservedOf portion at *
  rw [setReservedBalance_reserved]
  by_cases hown : a = aid ∧ x = who
  · obtain ⟨rfl, rfl⟩ := hown
    rw [if_pos rfl, if_pos ⟨rfl, rfl⟩, hsub]
    omega
  · rw [if_neg (fun heq => hown (Prod.mk.inj heq)), if_neg hown, Nat.add_zero]
    unfold State.reserved
    rw [hk]

theorem lesser_eq {held : Balance} (hle : amt.toNat ≤ held.toNat) :
    (if held.toNat ≤ amt.toNat then held else amt) = amt := by
  split_ifs with h
  · exact BitVec.eq_of_toNat_eq (Nat.le_antisymm h hle)
  · rfl

section
variable (hle : amt.toNat ≤ s.reservedOf aid who)
include hle

theorem unreserve_fst : (unreserve s aid who amt).1 =
    setFreeBalance (setReservedBalance s aid who (s.reserved aid who - amt)) aid who (s.free aid who + amt) := by
  unfold unreserve
  simp only [lesser_eq hle]
  rfl

theorem unreserve_moves : Released s (unreserve s aid who amt).1 aid who amt.toNat := by
  rw [unreserve_fst hle]
  exact setReservedBalance_released hle rfl

theorem unreserve_free (x : A) : (unreserve s aid who amt).1.free aid x =
      if x = who then s.free aid x + amt else s.free aid x := by
  rw [unreserve_fst hle, setFreeBalance_free]
  by_cases hx : x = who
  · rw [if_pos (by rw [hx]), if_pos hx, hx]
  · rw [if_neg fun heq => hx (Prod.mk.inj heq).2, if_neg hx]
    unfold State.free
    rw [setReservedBalance_freeBalance]

theorem unreserve_released :
    Released s (MultiCurrency.unreserve s who aid amt).1 aid who amt.toNat := by
  unfold MultiCurrency.unreserve
  split_ifs with hz
  · rw [hz]
    exact Released.refl
  · exact unreserve_moves hle

theorem slashReserved_eq : AssetCurrency.slashReserved s aid who amt =
    (setReservedBalance s aid who (s.reserved aid who - amt), ⟨amt, aid⟩, 0) := by
  have hall : amt - 0 = amt := BitVec.sub_zero amt
  unfold AssetCurrency.slashReserved slashReserved
  simp only [lesser_eq hle, if_pos, Option.getD_none, hall]

theorem repatriateReserved_released (dest : A) :
    Released s (MultiCurrency.repatriateReserved s who aid dest amt).1 aid who amt.toNat := by
  unfold MultiCurrency.repatriateReserved repatriateReserved
  split_ifs with hz
  · rw [hz]
    exact Released.refl
  · simp only [lesser_eq hle]
    exact setReservedBalance_released hle rfl

end

theorem reserve_adds (hfit : s.reservedOf aid who + amt.toNat < 2 ^ 128)
    (h : reserve cfg s aid who amt = .ok s') : Released s' s aid who amt.toNat := by
  obtain ⟨-, rfl⟩ := reserve_inv h
  intro a x
  have hadd : (s.reserved aid who + amt).toNat = s.reservedOf aid who + amt.toNat := BitVec.toNat_add_of_lt hfit
  unfold portion
  by_cases ha : a = aid
  · subst ha
    rw [putReserved_reservedOf, takeOut_reservedOf, hadd, Function.update_apply]
    by_cases hx : x = who <;> simp [hx]
  · rw [putReserved_reservedOf_ne ha, takeOut_reservedOf, if_neg (fun hown => ha hown.1), Nat.add_zero]

theorem reserve_reserved (hfit : s.reservedOf aid who + amt.toNat < 2 ^ 128)
    (h : MultiCurrency.reserve cfg s who aid amt = .ok s') : Released s' s aid who amt.toNat := by
  unfold MultiCurrency.reserve at h
  split_ifs at h with hz
  · cases h
    rw [hz]
    exact Released.refl
  · exact reserve_adds hfit h

/-! ### Payments from free balances -/

theorem transfer_reservedOf (h : MultiCurrency.transfer cfg s who dest aid amt = .ok s') :
    s'.reservedOf = s.reservedOf := by
  funext a
  by_cases ha : a = aid
  · rw [ha]
    exact (transfer_moves h).reserved
  · exact (transfer_leaves h ha).reserved

theorem withdraw_reservedOf {rs : WithdrawReasons} {imb : NegativeImbalance}
    (h : MultiCurrency.withdraw s who aid amt rs = .ok (s', imb)) : s'.reservedOf = s.reservedOf := by
  rw [withdraw_eq_ok] at h
  split at h
  · rw [h.1]
  · obtain ⟨nb, -, -, rfl, -⟩ := h
    rfl

theorem depositCreating_reservedOf : (MultiCurrency.depositCreating s who aid amt).1.reservedOf = s.reservedOf := by
  funext a x
  unfold State.reservedOf State.reserved
  rw [depositCreating_leaves_rest.1]

end

end GenericAsset
