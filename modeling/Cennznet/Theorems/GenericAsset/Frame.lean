import Cennznet.Theorems.GenericAsset.Conservation

/-! # What an operation leaves alone -/

namespace GenericAsset

variable {A : Type} [DecidableEq A]

structure Leaves (s s' : State A) (a : AssetId) : Prop where
  issuance : s'.issuanceOf a = s.issuanceOf a
  free : s'.freeOf a = s.freeOf a
  reserved : s'.reservedOf a = s.reservedOf a
  holdings : s'.holdings a = s.holdings a

/-- Asset `a` only moves between the free balances of `parties`: nothing of it is made, and unless it passes the bound
of a balance, nothing lost. -/
structure Moves (s s' : State A) (a : AssetId) (parties : List A) : Prop where
  issuance : s'.issuanceOf a = s.issuanceOf a
  holdings : s.holdings a < 2 ^ 128 → s'.holdings a = s.holdings a
  reserved : s'.reservedOf a = s.reservedOf a
  elsewhere : ∀ x, x ∉ parties → s'.freeOf a x = s.freeOf a x

variable {s s' s'' : State A} {a aid : AssetId} {who : A} {v : Balance}

theorem Leaves.refl : Leaves s s a := ⟨rfl, rfl, rfl, rfl⟩

theorem Leaves.trans (h : Leaves s s' a) (h' : Leaves s' s'' a) : Leaves s s'' a where
  issuance := h'.issuance.trans h.issuance
  free := h'.free.trans h.free
  reserved := h'.reserved.trans h.reserved
  holdings := h'.holdings.trans h.holdings

theorem Leaves.moves (h : Leaves s s' a) (parties : List A) : Moves s s' a parties where
  issuance := h.issuance
  holdings _ := h.holdings
  reserved := h.reserved
  elsewhere x _ := congrFun h.free x

theorem Moves.mono {parties parties' : List A} (h : Moves s s' a parties) (hsub : parties ⊆ parties') :
    Moves s s' a parties' where
  issuance := h.issuance
  holdings := h.holdings
  reserved := h.reserved
  elsewhere x hx := h.elsewhere x fun hmem => hx (hsub hmem)

/-! ### Other assets -/

theorem setFreeBalance_leaves (h : a ≠ aid) : Leaves s (setFreeBalance s aid who v) a :=
  ⟨rfl, setFreeBalance_freeOf_ne h, rfl, setFreeBalance_holdings_ne h⟩

variable {n : NegativeImbalance} {rs : WithdrawReasons}

theorem dropNegative_leaves (h : a ≠ n.assetId) : Leaves s (dropNegative s n) a :=
  ⟨dropNegative_issuanceOf_ne h, rfl, rfl, rfl⟩

theorem dropNegative_zero_leaves : Leaves s (dropNegative s .zero) a := ⟨dropNegative_zero_issuanceOf 0, rfl, rfl, rfl⟩

theorem dropPositive_zero_leaves : Leaves s (dropPositive s .zero) a := by
  refine ⟨?_, rfl, rfl, rfl⟩
  by_cases h : a = 0
  · subst h
    have hsum : ((dropPositive s ⟨0, 0⟩).issuanceOf 0).toNat = min ((s.issuanceOf 0).toNat + 0) (2 ^ 128 - 1) :=
      dropPositive_issuanceOf 0
    have hlt := (s.issuanceOf 0).isLt
    exact BitVec.eq_of_toNat_eq (hsum.trans (by omega))
  · exact dropPositive_issuanceOf_ne h

theorem depositCreating_leaves (h : a ≠ aid) :
    let r := MultiCurrency.depositCreating s who aid v
    Leaves s (dropPositive r.1 r.2) a := by
  unfold MultiCurrency.depositCreating MultiCurrency.makeFreeBalanceBe
  have hset : Leaves s (setFreeBalance s aid who (s.free aid who + v)) a := setFreeBalance_leaves h
  split
  · exact dropPositive_zero_leaves
  · dsimp only
    split
    · rename_i heq
      obtain ⟨rfl, him⟩ := Prod.mk.inj heq
      split at him <;> cases him
      exact hset.trans ⟨dropPositive_issuanceOf_ne h, rfl, rfl, rfl⟩
    · rename_i heq
      obtain ⟨rfl, him⟩ := Prod.mk.inj heq
      split at him <;> cases him
      exact (hset.trans (dropNegative_leaves h)).trans dropPositive_zero_leaves

theorem withdraw_leaves (h : MultiCurrency.withdraw s who aid v rs = .ok (s', n)) (ha : a ≠ aid) :
    Leaves s (dropNegative s' n) a := by
  rw [withdraw_eq_ok] at h
  split at h
  · obtain ⟨rfl, rfl⟩ := h
    exact dropNegative_zero_leaves
  · obtain ⟨nb, -, -, rfl, rfl⟩ := h
    exact (setFreeBalance_leaves ha).trans (dropNegative_leaves ha)

theorem reclaimFreeBalance_leaves {cfg : Config A} (h : a ≠ aid) : Leaves s (reclaimFreeBalance cfg s aid who) a where
  issuance := by
    unfold State.issuanceOf
    rw [reclaimFreeBalance_totalIssuance]
  free := reclaimFreeBalance_freeOf_ne h
  reserved := by
    unfold State.reservedOf State.reserved
    rw [reclaimFreeBalance_reservedBalance]
  holdings := reclaimFreeBalance_holdings_ne h

theorem created_leaves {nextId : AssetId} {options : AssetOptions A} {info : AssetInfo} (h : a ≠ aid) :
    Leaves s (created s aid nextId who options info v) a := by
  have hset : Leaves s (setIssuance (setFreeBalance s aid who v) aid v) a :=
    (setFreeBalance_leaves h).trans ⟨StorageMap.getD_insert.trans (if_neg h), rfl, rfl, rfl⟩
  exact ⟨hset.issuance, hset.free, hset.reserved, hset.holdings⟩

variable {cfg : Config A} {src dest : A} {amt newFrom newTo : Balance}

theorem settleTransfer_elsewhere {x : A} (hx : x ∉ [src, dest, cfg.dustAccount]) :
    (settleTransfer cfg s aid src dest newFrom newTo).freeOf aid x = s.freeOf aid x := by
  obtain ⟨hso, hde, hdu⟩ : x ≠ src ∧ x ≠ dest ∧ x ≠ cfg.dustAccount := by simpa using hx
  unfold settleTransfer
  dsimp only
  split
  · rw [reclaimFreeBalance_freeOf, setFreeBalance_freeOf, setFreeBalance_freeOf]
    simp [hso, hde, hdu]
  · rw [setFreeBalance_freeOf, setFreeBalance_freeOf]
    simp [hso, hde]

theorem settleTransfer_frame : (settleTransfer cfg s aid src dest newFrom newTo).reservedBalance = s.reservedBalance ∧
      (settleTransfer cfg s aid src dest newFrom newTo).totalIssuance = s.totalIssuance := by
  unfold settleTransfer
  dsimp only
  split
  · exact ⟨reclaimFreeBalance_reservedBalance, reclaimFreeBalance_totalIssuance⟩
  · exact ⟨rfl, rfl⟩

theorem settleTransfer_leaves (h : a ≠ aid) : Leaves s (settleTransfer cfg s aid src dest newFrom newTo) a := by
  have hset : Leaves s (setFreeBalance (setFreeBalance s aid dest newTo) aid src newFrom) a :=
    (setFreeBalance_leaves h).trans (setFreeBalance_leaves h)
  unfold settleTransfer
  dsimp only
  split
  · exact hset.trans (reclaimFreeBalance_leaves h)
  · exact hset

theorem transfer_moves (h : MultiCurrency.transfer cfg s src dest aid amt = .ok s') :
    Moves s s' aid [src, dest, cfg.dustAccount] := by
  have hhe (hfit : s.holdings aid < 2 ^ 128) : s'.holdings aid = s.holdings aid :=
    (transfer_wrote h hfit).holdings_eq aid
  unfold MultiCurrency.transfer at h
  split at h
  · cases h
    exact Leaves.refl.moves _
  obtain ⟨newFrom, newTo, -, -, -, rfl⟩ := makeTransfer_eq_ok.mp h
  by_cases hse : src = dest
  · rw [if_pos hse]
    exact Leaves.refl.moves _
  · rw [if_neg hse] at hhe ⊢
    refine ⟨?_, hhe, ?_, fun x hx => settleTransfer_elsewhere hx⟩
    · unfold State.issuanceOf
      rw [settleTransfer_frame.2]
    · unfold State.reservedOf State.reserved
      rw [settleTransfer_frame.1]

theorem transfer_leaves (h : MultiCurrency.transfer cfg s src dest aid amt = .ok s') (ha : a ≠ aid) :
    Leaves s s' a := by
  unfold MultiCurrency.transfer at h
  split at h
  · cases h
    exact Leaves.refl
  obtain ⟨newFrom, newTo, -, -, -, rfl⟩ := makeTransfer_eq_ok.mp h
  split
  · exact Leaves.refl
  · exact settleTransfer_leaves ha

/-! ### Minting and burning

Issuance and holdings of one asset move together; the others are left as they are. -/

theorem depositCreating_mints (hhe : (s.issuanceOf aid).toNat = s.holdings aid)
    (hfit : (s.issuanceOf aid).toNat + v.toNat < 2 ^ 128) :
    let r := MultiCurrency.depositCreating s who aid v
    ((dropPositive r.1 r.2).issuanceOf aid).toNat = (s.issuanceOf aid).toNat + v.toNat ∧
      (dropPositive r.1 r.2).holdings aid = s.holdings aid + v.toNat := by
  have hle := freeOf_le_holdings s aid who
  have hr : s.freeOf aid who + v.toNat < 2 ^ 128 := by omega
  rw [depositCreating_eq hr]
  by_cases hz : v = 0
  · subst hz
    rw [if_pos rfl]
    have hl : Leaves s (dropPositive s .zero) aid := dropPositive_zero_leaves
    exact ⟨congrArg BitVec.toNat hl.issuance, hl.holdings⟩
  · rw [if_neg hz]
    have hadd : (s.free aid who + v).toNat = s.freeOf aid who + v.toNat := BitVec.toNat_add_of_lt hr
    have hset := setFreeBalance_holdings s aid who (s.free aid who + v)
    refine ⟨(dropPositive_issuanceOf v).trans ?_, (dropPositive_holdings _).trans ?_⟩
    · show min ((s.issuanceOf aid).toNat + v.toNat) (2 ^ 128 - 1) = _
      omega
    · show (setFreeBalance s aid who (s.free aid who + v)).holdings aid = _
      omega

theorem withdraw_burns (hhe : (s.issuanceOf aid).toNat = s.holdings aid)
    (h : MultiCurrency.withdraw s who aid v rs = .ok (s', n)) :
    ((dropNegative s' n).issuanceOf aid).toNat + v.toNat = (s.issuanceOf aid).toNat ∧
      (dropNegative s' n).holdings aid + v.toNat = s.holdings aid := by
  rw [withdraw_eq_ok] at h
  split_ifs at h with hz
  · obtain ⟨rfl, rfl⟩ := h
    subst hz
    have hl : Leaves s' (dropNegative s' .zero) aid := dropNegative_zero_leaves
    exact ⟨congrArg BitVec.toNat hl.issuance, hl.holdings⟩
  · obtain ⟨nb, hf, -, rfl, rfl⟩ := h
    have hle := freeOf_le_holdings s aid who
    have hset := setFreeBalance_holdings s aid who nb
    have hiss : ((dropNegative (setFreeBalance s aid who nb) ⟨v, aid⟩).issuanceOf aid).toNat =
        (s.issuanceOf aid).toNat - v.toNat := dropNegative_issuanceOf v
    refine ⟨by omega, ?_⟩
    show (setFreeBalance s aid who nb).holdings aid + v.toNat = _
    omega

/-! ### The next id -/

theorem depositCreating_leaves_rest :
    (MultiCurrency.depositCreating s who aid v).1.reservedBalance = s.reservedBalance ∧
      (MultiCurrency.depositCreating s who aid v).1.nextAssetId = s.nextAssetId := by
  unfold MultiCurrency.depositCreating MultiCurrency.makeFreeBalanceBe
  split
  · exact ⟨rfl, rfl⟩
  · dsimp only
    split
    · rename_i heq
      rw [← (Prod.mk.inj heq).1]
      exact ⟨rfl, rfl⟩
    · rename_i n heq
      show (dropNegative _ n).reservedBalance = _ ∧ (dropNegative _ n).nextAssetId = _
      rw [← (Prod.mk.inj heq).1]
      exact ⟨rfl, rfl⟩

theorem withdraw_nextAssetId (h : MultiCurrency.withdraw s who aid v rs = .ok (s', n)) :
    s'.nextAssetId = s.nextAssetId := by
  rw [withdraw_eq_ok] at h
  split at h
  · rw [h.1]
  · obtain ⟨nb, -, -, rfl, -⟩ := h
    rfl

end GenericAsset
