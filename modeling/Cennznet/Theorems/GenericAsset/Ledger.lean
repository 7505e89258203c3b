import Cennznet.GenericAsset
import Mathlib.Logic.Function.Basic

/-! # The ledger as amounts -/

namespace GenericAsset

open StorageMap Word

variable {A : Type}

def held (aid : AssetId) (k : AssetId × A) (v : Balance) : Nat := if k.1 = aid then v.toNat else 0

def State.holdings (s : State A) (aid : AssetId) : Nat :=
  s.freeBalance.sumBy (held aid) + s.reservedBalance.sumBy (held aid)

section
variable {s : State A} {aid : AssetId}

theorem dropNegative_holdings (n : NegativeImbalance) : (dropNegative s n).holdings aid = s.holdings aid := rfl

theorem dropNegative_issuanceOf (n : Balance) :
    ((dropNegative s ⟨n, aid⟩).issuanceOf aid).toNat = (s.issuanceOf aid).toNat - n.toNat := by
  unfold dropNegative State.issuanceOf
  dsimp only
  rw [getD_insert, if_pos rfl, toNat_saturatingSub]

theorem dropPositive_holdings (p : PositiveImbalance) : (dropPositive s p).holdings aid = s.holdings aid := rfl

theorem dropPositive_issuanceOf (n : Balance) : ((dropPositive s ⟨n, aid⟩).issuanceOf aid).toNat =
      min ((s.issuanceOf aid).toNat + n.toNat) (2 ^ 128 - 1) := by
  unfold dropPositive State.issuanceOf
  dsimp only
  rw [getD_insert, if_pos rfl, toNat_saturatingAdd]

theorem dropNegative_issuanceOf_ne {n : NegativeImbalance} (h : aid ≠ n.assetId) :
    (dropNegative s n).issuanceOf aid = s.issuanceOf aid :=
  getD_insert.trans (if_neg h)

theorem dropNegative_zero_issuanceOf (a : AssetId) : (dropNegative s ⟨0, a⟩).issuanceOf aid = s.issuanceOf aid := by
  by_cases h : aid = a
  · subst h
    rw [← BitVec.toNat_inj, dropNegative_issuanceOf]
    rfl
  · exact dropNegative_issuanceOf_ne h

theorem dropPositive_issuanceOf_ne {p : PositiveImbalance} (h : aid ≠ p.assetId) :
    (dropPositive s p).issuanceOf aid = s.issuanceOf aid :=
  getD_insert.trans (if_neg h)

end

variable [DecidableEq A]

def State.freeOf (s : State A) (aid : AssetId) (who : A) : Nat := (s.free aid who).toNat

def State.reservedOf (s : State A) (aid : AssetId) (who : A) : Nat :=
  (s.reserved aid who).toNat

def emptied (b : A → Nat) (who beneficiary : A) : Nat := Function.update b who 0 beneficiary

def sweep (b : A → Nat) (who beneficiary : A) : A → Nat :=
  Function.update (Function.update b who 0) beneficiary (emptied b who beneficiary + b who)

def debit (b : A → Nat) (existentialDeposit : Nat) (who beneficiary : A) (val : Nat) : A → Nat :=
  let debited := Function.update b who (b who - val)
  if b who - val < existentialDeposit then sweep debited who beneficiary else debited

section
variable {s : State A} {cfg : Config A} {aid a : AssetId} {who x : A} {val : Balance}

theorem emptied_le (s : State A) (aid : AssetId) (who x : A) : emptied (s.freeOf aid) who x ≤ 2 ^ 128 - 1 := by
  unfold emptied
  by_cases h : x = who
  · subst h
    simp
  · rw [Function.update_of_ne h]
    exact Nat.le_sub_one_of_lt (s.free aid x).isLt

/-! ### Setting a free balance -/

@[simp] theorem setFreeBalance_totalIssuance : (setFreeBalance s aid who val).totalIssuance = s.totalIssuance := rfl

theorem setFreeBalance_free :
    (setFreeBalance s aid who val).free a x = if (a, x) = (aid, who) then val else s.free a x :=
  getD_insert

theorem setFreeBalance_freeOf :
    (setFreeBalance s aid who val).freeOf aid = Function.update (s.freeOf aid) who val.toNat := by
  funext x
  unfold State.freeOf
  rw [setFreeBalance_free]
  by_cases h : x = who <;> simp [h]

theorem setFreeBalance_freeOf_ne (h : a ≠ aid) : (setFreeBalance s aid who val).freeOf a = s.freeOf a := by
  funext x
  unfold State.freeOf
  rw [setFreeBalance_free, if_neg]
  exact fun e => h (Prod.ext_iff.mp e).1

theorem setFreeBalance_holdings (s : State A) (aid : AssetId) (who : A) (val : Balance) :
    (setFreeBalance s aid who val).holdings aid + s.freeOf aid who = s.holdings aid + val.toNat := by
  have h : (s.freeBalance.insert (aid, who) val).sumBy (held aid) + s.freeOf aid who =
      s.freeBalance.sumBy (held aid) + val.toNat := sumBy_under_insert rfl
  unfold State.holdings setFreeBalance
  dsimp only
  omega

theorem setFreeBalance_holdings_ne (h : a ≠ aid) : (setFreeBalance s aid who val).holdings a = s.holdings a := by
  have hsum : (s.freeBalance.insert (aid, who) val).sumBy (held a) = s.freeBalance.sumBy (held a) :=
    sumBy_under_insert_ne h
  unfold State.holdings setFreeBalance
  rw [hsum]

theorem freeOf_le_holdings (s : State A) (aid : AssetId) (who : A) : s.freeOf aid who ≤ s.holdings aid := by
  have h := setFreeBalance_holdings s aid who 0
  simp only [BitVec.ofNat_eq_ofNat, BitVec.toNat_ofNat, Nat.zero_mod] at h
  omega

/-! ### Setting a reserved balance -/

@[simp] theorem setReservedBalance_totalIssuance :
    (setReservedBalance s aid who val).totalIssuance = s.totalIssuance := by
  unfold setReservedBalance
  split <;> rfl

@[simp] theorem setReservedBalance_freeBalance : (setReservedBalance s aid who val).freeBalance = s.freeBalance := by
  unfold setReservedBalance
  split <;> rfl

theorem setReservedBalance_reserved :
    (setReservedBalance s aid who val).reserved a x = if (a, x) = (aid, who) then val else s.reserved a x := by
  unfold setReservedBalance
  split
  · rename_i h
    subst h
    exact getD_remove
  · exact getD_insert

theorem setReservedBalance_holdings (s : State A) (aid : AssetId) (who : A) (val : Balance) :
    (setReservedBalance s aid who val).holdings aid + s.reservedOf aid who = s.holdings aid + val.toNat := by
  unfold setReservedBalance
  split_ifs with h
  · subst h
    have hsum : (s.reservedBalance.remove (aid, who)).sumBy (held aid) + s.reservedOf aid who =
        s.reservedBalance.sumBy (held aid) := sumBy_under_remove rfl
    simp only [State.holdings, BitVec.ofNat_eq_ofNat, BitVec.toNat_ofNat, Nat.zero_mod]
    omega
  · have hsum : (s.reservedBalance.insert (aid, who) val).sumBy (held aid) + s.reservedOf aid who =
        s.reservedBalance.sumBy (held aid) + val.toNat := sumBy_under_insert rfl
    simp only [State.holdings]
    omega

theorem setReservedBalance_holdings_ne (h : a ≠ aid) :
    (setReservedBalance s aid who val).holdings a = s.holdings a := by
  unfold State.holdings setReservedBalance
  split
  · have hsum : (s.reservedBalance.remove (aid, who)).sumBy (held a) = s.reservedBalance.sumBy (held a) :=
      sumBy_under_remove_ne h
    rw [hsum]
  · have hsum : (s.reservedBalance.insert (aid, who) val).sumBy (held a) = s.reservedBalance.sumBy (held a) :=
      sumBy_under_insert_ne h
    rw [hsum]

/-! ### Reclaiming a free balance -/

def takeFreeBalance (s : State A) (aid : AssetId) (who : A) : State A :=
  { s with freeBalance := s.freeBalance.remove (aid, who) }

theorem takeFreeBalance_free : (takeFreeBalance s aid who).free a x = if (a, x) = (aid, who) then 0 else s.free a x :=
  getD_remove

theorem takeFreeBalance_freeOf : (takeFreeBalance s aid who).freeOf aid = Function.update (s.freeOf aid) who 0 := by
  funext x
  unfold State.freeOf
  rw [takeFreeBalance_free]
  by_cases h : x = who <;> simp [h]

theorem takeFreeBalance_freeOf_ne (h : a ≠ aid) : (takeFreeBalance s aid who).freeOf a = s.freeOf a := by
  funext x
  unfold State.freeOf
  rw [takeFreeBalance_free, if_neg]
  exact fun e => h (Prod.ext_iff.mp e).1

theorem takeFreeBalance_holdings (s : State A) (aid : AssetId) (who : A) :
    (takeFreeBalance s aid who).holdings aid + s.freeOf aid who = s.holdings aid := by
  have h : (s.freeBalance.remove (aid, who)).sumBy (held aid) + s.freeOf aid who =
      s.freeBalance.sumBy (held aid) := sumBy_under_remove rfl
  unfold State.holdings takeFreeBalance
  dsimp only
  omega

theorem takeFreeBalance_holdings_ne (h : a ≠ aid) : (takeFreeBalance s aid who).holdings a = s.holdings a := by
  have hsum : (s.freeBalance.remove (aid, who)).sumBy (held a) = s.freeBalance.sumBy (held a) := sumBy_under_remove_ne h
  unfold State.holdings takeFreeBalance
  rw [hsum]

theorem emptied_add_le_holdings (s : State A) (aid : AssetId) (who x : A) :
    emptied (s.freeOf aid) who x + s.freeOf aid who ≤ s.holdings aid := by
  have hta := takeFreeBalance_holdings s aid who
  have hle := freeOf_le_holdings (takeFreeBalance s aid who) aid x
  rw [takeFreeBalance_freeOf] at hle
  unfold emptied
  omega

theorem reclaimFreeBalance_eq : reclaimFreeBalance cfg s aid who =
      if s.freeOf aid who = 0 then takeFreeBalance s aid who
      else setFreeBalance (takeFreeBalance s aid who) aid cfg.dustAccount
        (saturatingAdd ((takeFreeBalance s aid who).free aid cfg.dustAccount) (s.free aid who)) := by
  by_cases h : 0 < s.freeOf aid who
  · rw [if_neg (Nat.pos_iff_ne_zero.mp h)]
    exact if_pos h
  · rw [if_pos (Nat.eq_zero_of_not_pos h)]
    exact if_neg h

theorem reclaimFreeBalance_reservedBalance :
    (reclaimFreeBalance cfg s aid who).reservedBalance = s.reservedBalance := by
  rw [reclaimFreeBalance_eq]
  split <;> rfl

theorem reclaimFreeBalance_totalIssuance : (reclaimFreeBalance cfg s aid who).totalIssuance = s.totalIssuance := by
  rw [reclaimFreeBalance_eq]
  split <;> rfl

theorem reclaimFreeBalance_freeOf : (reclaimFreeBalance cfg s aid who).freeOf aid =
      Function.update (Function.update (s.freeOf aid) who 0) cfg.dustAccount
        (min (emptied (s.freeOf aid) who cfg.dustAccount + s.freeOf aid who) (2 ^ 128 - 1)) := by
  rw [reclaimFreeBalance_eq]
  split_ifs with h
  · rw [h, Nat.add_zero, Nat.min_eq_left (emptied_le s aid who cfg.dustAccount), takeFreeBalance_freeOf]
    exact (Function.update_eq_self _ _).symm
  · rw [setFreeBalance_freeOf, takeFreeBalance_freeOf, toNat_saturatingAdd]
    unfold emptied
    rw [← takeFreeBalance_freeOf]
    rfl

theorem reclaimFreeBalance_freeOf_ne (h : a ≠ aid) : (reclaimFreeBalance cfg s aid who).freeOf a = s.freeOf a := by
  rw [reclaimFreeBalance_eq]
  split
  · exact takeFreeBalance_freeOf_ne h
  · rw [setFreeBalance_freeOf_ne h, takeFreeBalance_freeOf_ne h]

theorem reclaimFreeBalance_holdings (cfg : Config A) (s : State A) (aid : AssetId) (who : A) :
    (reclaimFreeBalance cfg s aid who).holdings aid + (emptied (s.freeOf aid) who cfg.dustAccount + s.freeOf aid who) =
      s.holdings aid + min (emptied (s.freeOf aid) who cfg.dustAccount + s.freeOf aid who) (2 ^ 128 - 1) := by
  have hta := takeFreeBalance_holdings s aid who
  have hle := emptied_le s aid who cfg.dustAccount
  rw [reclaimFreeBalance_eq]
  split_ifs with h
  · omega
  · have hset := setFreeBalance_holdings (takeFreeBalance s aid who) aid cfg.dustAccount
      (saturatingAdd ((takeFreeBalance s aid who).free aid cfg.dustAccount) (s.free aid who))
    have hben : (takeFreeBalance s aid who).freeOf aid cfg.dustAccount =
        emptied (s.freeOf aid) who cfg.dustAccount := congrFun takeFreeBalance_freeOf _
    rw [toNat_saturatingAdd] at hset
    unfold State.freeOf at hset hben hta ⊢
    rw [hben] at hset
    omega

theorem reclaimFreeBalance_holdings_ne (h : a ≠ aid) :
    (reclaimFreeBalance cfg s aid who).holdings a = s.holdings a := by
  rw [reclaimFreeBalance_eq]
  split
  · exact takeFreeBalance_holdings_ne h
  · rw [setFreeBalance_holdings_ne h, takeFreeBalance_holdings_ne h]

end

end GenericAsset
