import Cennznet.Theorems.GenericAsset.Issuance

/-! # Payments account by account -/

namespace GenericAsset

open Word

variable {A : Type} [DecidableEq A] {s s' s'' : State A} {aid : AssetId}
  {payer who : A} {gain gain' : A → Nat} {credited credited' released released' : Nat} {val : Balance}

def gainOf (who : A) (val : Nat) (x : A) : Nat := if x = who then val else 0

structure Credited (s s' : State A) (aid : AssetId) (payer : A) (gain : A → Nat)
    (credited released : Nat) : Prop where
  free : ∀ x, s'.freeOf aid x = s.freeOf aid x + gain x
  reserved : ∀ x, s'.reservedOf aid x + gainOf payer released x = s.reservedOf aid x
  wrote : Wrote s s' aid credited released

theorem gainOf_zero (who : A) : gainOf who 0 = fun _ => 0 := funext fun _ => ite_self 0

theorem gainOf_self (who : A) (n : Nat) : gainOf who n who = n := if_pos rfl

theorem gainOf_ne {x : A} (h : x ≠ who) (n : Nat) : gainOf who n x = 0 := if_neg h

theorem gainOf_add (who : A) (m n : Nat) (x : A) : gainOf who (m + n) x = gainOf who m x + gainOf who n x := by
  unfold gainOf
  split <;> rfl

theorem Credited.refl : Credited s s aid payer (fun _ => 0) 0 0 := ⟨fun _ => rfl, fun x => by rw [gainOf_zero]; rfl, Wrote.refl⟩

theorem Credited.trans (h : Credited s s' aid payer gain credited released)
    (h' : Credited s' s'' aid payer gain' credited' released') :
    Credited s s'' aid payer (fun x => gain x + gain' x) (credited + credited') (released + released') := by
  refine ⟨fun x => ?_, fun x => ?_, h.wrote.trans h'.wrote⟩
  · rw [h'.free, h.free, Nat.add_assoc]
  · rw [← h.reserved, ← h'.reserved, gainOf_add]
    omega

theorem setFreeBalance_gain (h : (s.free aid who + val).toNat = s.freeOf aid who + val.toNat)
    (x : A) : (setFreeBalance s aid who (s.free aid who + val)).freeOf aid x =
      s.freeOf aid x + gainOf who val.toNat x := by
  rw [setFreeBalance_freeOf, Function.update_apply, gainOf]
  split_ifs with hx
  · rw [hx, h]
  · rfl

theorem depositCreating_credited (payer : A) (hfit : s.freeOf aid who + val.toNat < 2 ^ 128) :
    Credited s (MultiCurrency.depositCreating s who aid val).1 aid payer (gainOf who val.toNat) val.toNat 0 := by
  have hwr : Wrote s (MultiCurrency.depositCreating s who aid val).1 aid val.toNat 0 := depositCreating_wrote hfit
  rw [depositCreating_eq hfit] at hwr ⊢
  by_cases hz : val = 0
  · subst hz
    rw [if_pos rfl]
    exact gainOf_zero who ▸ Credited.refl
  · rw [if_neg hz] at hwr ⊢
    refine ⟨setFreeBalance_gain (BitVec.toNat_add_of_lt hfit), fun x => ?_, hwr⟩
    rw [gainOf_zero]
    rfl

theorem depositCreating_amount (hfit : s.freeOf aid who + val.toNat < 2 ^ 128) :
    (MultiCurrency.depositCreating s who aid val).2.amount = val := by
  rw [depositCreating_eq hfit]
  split_ifs with hz
  · exact hz.symm
  · rfl

theorem repatriateReserved_credited (who : A) (hle : val.toNat ≤ s.reservedOf aid payer)
    (hfit : s.holdings aid < 2 ^ 128) :
    Credited s (repatriateReserved s aid payer who val).1 aid payer (gainOf who val.toNat) val.toNat val.toNat := by
  have hwr : Wrote s (repatriateReserved s aid payer who val).1 aid val.toNat val.toNat :=
    (repatriateReserved_wrote hfit).of_eq (Nat.add_comm _ _)
  unfold repatriateReserved at hwr ⊢
  by_cases hz : val = 0
  · subst hz
    rw [if_pos rfl]
    exact gainOf_zero who ▸ Credited.refl
  have hva : (if (s.reserved aid payer).toNat ≤ val.toNat then s.reserved aid payer else val) = val := by
    split_ifs with h
    · exact BitVec.toNat_inj.mp (Nat.le_antisymm h hle)
    · rfl
  have hsum := freeOf_add_reservedOf_le_holdings s aid who payer
  rw [if_neg hz] at hwr ⊢
  simp only [hva] at hwr ⊢
  refine ⟨fun x => ?_, fun x => ?_, hwr⟩
  · rw [setReservedBalance_freeOf]
    exact setFreeBalance_gain (BitVec.toNat_add_of_lt (by unfold State.freeOf at hsum; omega)) x
  · have hsub := toNat_sub_of_le hle
    unfold State.reservedOf at hle hsub ⊢
    rw [setReservedBalance_reserved]
    by_cases hx : x = payer
    · subst hx
      rw [if_pos rfl, gainOf_self]
      omega
    · rw [gainOf_ne hx, if_neg fun h => hx (congrArg Prod.snd h)]
      rfl

theorem withdraw_debited {rs : WithdrawReasons} (hfu : val.toNat ≤ s.freeOf aid who)
    (hlo : ensureCanWithdraw s aid who val rs (s.free aid who - val) = .ok ()) :
    ∃ s' imbalanceId, MultiCurrency.withdraw s who aid val rs = .ok (s', ⟨val, imbalanceId⟩) ∧
      (∀ x, s'.freeOf aid x + gainOf who val.toNat x = s.freeOf aid x) ∧
      s'.reservedOf = s.reservedOf ∧ Wrote s s' aid 0 val.toNat := by
  by_cases hz : val = 0
  · subst hz
    refine ⟨s, 0, withdraw_eq_ok.mpr ((if_pos rfl).mpr ⟨rfl, rfl⟩), fun x => ?_, rfl, Wrote.refl⟩
    rw [BitVec.ofNat_eq_ofNat, BitVec.toNat_ofNat, Nat.zero_mod, gainOf_zero]
    rfl
  · have hsub : (s.free aid who - val).toNat = s.freeOf aid who - val.toNat := toNat_sub_of_le hfu
    refine ⟨_, aid, withdraw_eq_ok.mpr ((if_neg hz).mpr ⟨_, by omega, hlo, rfl, rfl⟩), fun x => ?_, rfl,
      (setFreeBalance_wrote s aid who _).of_eq (by omega)⟩
    rw [setFreeBalance_freeOf, Function.update_apply]
    by_cases hx : x = who
    · subst hx
      rw [if_pos rfl, gainOf_self]
      omega
    · rw [if_neg hx, gainOf_ne hx]
      rfl

theorem depositCreating_free : (MultiCurrency.depositCreating s who aid val).1.free aid who = s.free aid who + val := by
  have hset (v : Balance) : (setFreeBalance s aid who v).free aid who = v :=
    setFreeBalance_free.trans (if_pos rfl)
  unfold MultiCurrency.depositCreating MultiCurrency.makeFreeBalanceBe
  split_ifs with hz
  · rw [hz]
    exact (BitVec.add_zero _).symm
  · dsimp only
    split
    · rename_i heq
      rw [← (Prod.mk.inj heq).1, hset]
    · rename_i n heq
      show (dropNegative _ n).free aid who = _
      rw [← (Prod.mk.inj heq).1]
      exact hset _

theorem depositCreating_pays_iff :
    (MultiCurrency.depositCreating s who aid val).1.freeOf aid who = s.freeOf aid who + val.toNat ↔
      s.freeOf aid who + val.toNat < 2 ^ 128 := by
  unfold State.freeOf
  rw [depositCreating_free, BitVec.toNat_add]
  constructor
  · intro h
    rw [← h]
    exact Nat.mod_lt _ (by decide)
  · exact Nat.mod_eq_of_lt

/-! ### Transfers that pay -/

/-- The transfer goes through, and the destination gains just the amount: it is not the account of the dust, unless it
is full. -/
structure TransferPays (cfg : Config A) (s : State A) (aid : AssetId) (src dest : A)
    (amt : Balance) : Prop where
  apart : src ≠ dest
  funded : amt.toNat ≤ s.freeOf aid src
  room : s.freeOf aid dest + amt.toNat < 2 ^ 128
  unlocked : ensureCanWithdraw s aid src amt .transfer (s.free aid src - amt) = .ok ()
  clean : dest = cfg.dustAccount → s.freeOf aid src - amt.toNat < (s.existentialDeposit aid).toNat →
    s.freeOf aid src = amt.toNat ∨ s.freeOf aid dest + amt.toNat = 2 ^ 128 - 1

variable {cfg : Config A} {src dest : A} {amt newFrom newTo : Balance}

theorem settleTransfer_freeOf_dest (hne : src ≠ dest) :
    (settleTransfer cfg s aid src dest newFrom newTo).freeOf aid dest =
      if newFrom.toNat < (s.existentialDeposit aid).toNat ∧ dest = cfg.dustAccount then
        min (newTo.toNat + newFrom.toNat) (2 ^ 128 - 1)
      else newTo.toNat := by
  have hp : (setFreeBalance (setFreeBalance s aid dest newTo) aid src newFrom).freeOf aid =
      Function.update (Function.update (s.freeOf aid) dest newTo.toNat) src newFrom.toNat := by
    rw [setFreeBalance_freeOf, setFreeBalance_freeOf]
  have hed : (setFreeBalance (setFreeBalance s aid dest newTo) aid src newFrom).existentialDeposit aid =
      s.existentialDeposit aid := rfl
  unfold settleTransfer
  dsimp only
  rw [hed]
  by_cases hdu : newFrom.toNat < (s.existentialDeposit aid).toNat
  · rw [if_pos hdu, reclaimFreeBalance_freeOf, hp]
    unfold emptied
    by_cases hde : dest = cfg.dustAccount
    · rw [if_pos ⟨hdu, hde⟩, ← hde]
      simp [hne.symm]
    · rw [if_neg fun h => hde h.2]
      simp [hne.symm, hde]
  · rw [if_neg hdu, hp, if_neg fun h => hdu h.1]
    simp [hne.symm]

theorem transfer_pays_iff : (Result.getD (MultiCurrency.transfer cfg s src dest aid amt) s).freeOf aid dest =
        s.freeOf aid dest + amt.toNat ↔
      amt = 0 ∨ TransferPays cfg s aid src dest amt := by
  unfold MultiCurrency.transfer
  by_cases hz : amt = 0
  · subst hz
    exact iff_of_true rfl (Or.inl rfl)
  have hpos : 0 < amt.toNat := toNat_pos.mpr hz
  rw [if_neg hz, or_iff_right hz]
  cases hma : makeTransfer cfg s aid src dest amt with
  | error e =>
    refine iff_of_false (fun h => ?_) fun h => ?_
    · have hs : s.freeOf aid dest = s.freeOf aid dest + amt.toNat := h
      omega
    · -- what a transfer that pays needs is all that a transfer needs
      obtain ⟨newTo, hto⟩ := exists_toNat_eq h.room
      have hsub : (s.free aid src - amt).toNat = s.freeOf aid src - amt.toNat := toNat_sub_of_le h.funded
      have hfu := h.funded
      have hok : makeTransfer cfg s aid src dest amt = .ok _ :=
        makeTransfer_eq_ok.mpr ⟨_, newTo, by omega, hto.symm, h.unlocked, rfl⟩
      rw [hma] at hok
      cases hok
  | ok s' =>
    obtain ⟨newFrom, newTo, hfr, hto, hlo, rfl⟩ := makeTransfer_eq_ok.mp hma
    have hfe : newFrom = s.free aid src - amt := by
      unfold State.freeOf at hfr
      bv_omega
    by_cases hse : src = dest
    · rw [if_pos hse]
      refine iff_of_false (fun h => ?_) fun h => h.apart hse
      have hs : s.freeOf aid dest = s.freeOf aid dest + amt.toNat := h
      omega
    · rw [if_neg hse]
      show (settleTransfer cfg s aid src dest newFrom newTo).freeOf aid dest = _ ↔ _
      rw [settleTransfer_freeOf_dest hse]
      have hr := newTo.isLt
      constructor
      · intro h
        refine ⟨hse, by omega, by omega, hfe ▸ hlo, fun hde hdu => ?_⟩
        rw [if_pos ⟨by omega, hde⟩] at h
        omega
      · intro h
        split_ifs with hdu
        · have hcl := h.clean hdu.2 (by omega)
          omega
        · exact hto.symm

theorem transfer_getD_of_empty (h : s.freeOf aid src = 0) :
    Result.getD (MultiCurrency.transfer cfg s src dest aid amt) s = s := by
  refine Result.getD_cases (P := fun s' => s' = s) (fun s' hok => ?_) rfl
  unfold MultiCurrency.transfer at hok
  split_ifs at hok with hpos
  · cases hok
    rfl
  · obtain ⟨newFrom, newTo, hfr, -⟩ := makeTransfer_eq_ok.mp hok
    have hz : amt.toNat = 0 := by omega
    exact absurd (toNat_eq_zero.mp hz) hpos

end GenericAsset
