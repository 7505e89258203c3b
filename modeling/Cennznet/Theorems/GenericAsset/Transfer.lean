import Cennznet.Theorems.GenericAsset.Ledger

/-! # Transfers -/

namespace GenericAsset

open Word

variable {A : Type} [DecidableEq A]

def moved (b : A → Nat) (source dest : A) (v : Nat) : A → Nat :=
  if source = dest then b else Function.update (Function.update b dest (b dest + v)) source (b source - v)

section
variable {b : A → Nat} {source dest x : A} {v : Nat}

theorem moved_self : moved b source source v = b := if_pos rfl

theorem moved_zero : moved b source dest 0 = b := by
  unfold moved
  split
  · rfl
  · rw [Nat.add_zero, Nat.sub_zero, Function.update_eq_self, Function.update_eq_self]

theorem moved_source (h : source ≠ dest) : moved b source dest v source = b source - v := by
  simp [moved, h]

theorem moved_dest (h : source ≠ dest) : moved b source dest v dest = b dest + v := by
  simp [moved, h, h.symm]

theorem moved_other (hs : x ≠ source) (hd : x ≠ dest) : moved b source dest v x = b x := by
  unfold moved
  split
  · rfl
  · simp [hs, hd]

theorem le_moved_source : b source - v ≤ moved b source dest v source := by
  by_cases h : source = dest
  · subst h
    rw [moved_self]
    exact Nat.sub_le _ _
  · rw [moved_source h]

end

structure Transferred (s s' : State A) (aid : AssetId) (source dest : A) (v : Nat) : Prop where
  funded : v ≤ s.freeOf aid source
  amounts : (s.existentialDeposit aid).toNat ≤ 1 → s'.freeOf aid = moved (s.freeOf aid) source dest v
  others : ∀ a, a ≠ aid → s'.freeOf a = s.freeOf a
  assetMeta : s'.assetMeta = s.assetMeta

section
variable {cfg : Config A} {s s' : State A} {aid : AssetId} {source dest : A} {v : Balance}

theorem reclaimFreeBalance_assetMeta : (reclaimFreeBalance cfg s aid source).assetMeta = s.assetMeta := by
  rw [reclaimFreeBalance_eq]
  split <;> rfl

theorem reclaimFreeBalance_of_empty (h : s.freeOf aid source = 0) :
    (reclaimFreeBalance cfg s aid source).freeOf aid = s.freeOf aid := by
  rw [reclaimFreeBalance_eq, if_pos h, takeFreeBalance_freeOf, ← h, Function.update_eq_self]

def settleTransfer (cfg : Config A) (s : State A) (aid : AssetId) (source dest : A)
    (newFrom newTo : Balance) : State A :=
  let s := setFreeBalance (setFreeBalance s aid dest newTo) aid source newFrom
  if newFrom.toNat < (s.existentialDeposit aid).toNat then reclaimFreeBalance cfg s aid source else s

/-- A transfer succeeds exactly if the source has the amount, the destination has room and no lock stands against it. -/
theorem makeTransfer_eq_ok : makeTransfer cfg s aid source dest v = .ok s' ↔
      ∃ newFrom newTo : Balance, newFrom.toNat + v.toNat = s.freeOf aid source ∧
        s.freeOf aid dest + v.toNat = newTo.toNat ∧
        ensureCanWithdraw s aid source v .transfer newFrom = .ok () ∧
        s' = if source = dest then s else settleTransfer cfg s aid source dest newFrom newTo := by
  constructor
  · intro h
    unfold makeTransfer at h
    split at h
    · cases h
    rename_i newFrom hfr
    split at h
    · cases h
    rename_i newTo hto
    split at h
    · cases h
    rename_i hlo
    refine ⟨newFrom, newTo, checkedSub_eq_some.mp hfr, checkedAdd_eq_some.mp hto, hlo, ?_⟩
    by_cases hse : source = dest
    · rw [if_pos hse] at h ⊢
      cases h
      rfl
    · rw [if_neg hse] at h ⊢
      unfold settleTransfer
      dsimp only at h ⊢
      split at h <;> cases h
      · rename_i hdu
        exact (if_pos hdu).symm
      · rename_i hdu
        exact (if_neg hdu).symm
  · rintro ⟨newFrom, newTo, hfr, hto, hlo, rfl⟩
    have hfr' : checkedSub (s.free aid source) v = some newFrom := checkedSub_eq_some.mpr hfr
    have hto' : checkedAdd (s.free aid dest) v = some newTo := checkedAdd_eq_some.mpr hto
    unfold makeTransfer settleTransfer
    simp only [hfr', hto', hlo, apply_ite Except.ok]

theorem makeTransfer_inv (h : makeTransfer cfg s aid source dest v = .ok s') :
    Transferred s s' aid source dest v.toNat := by
  obtain ⟨newFrom, newTo, hfr, hto, -, rfl⟩ := makeTransfer_eq_ok.mp h
  have hfu : v.toNat ≤ s.freeOf aid source := Nat.le.intro ((Nat.add_comm _ _).trans hfr)
  have hr : newFrom.toNat = s.freeOf aid source - v.toNat := Nat.eq_sub_of_add_eq hfr
  by_cases hse : source = dest
  · subst hse
    rw [if_pos rfl]
    exact ⟨hfu, fun _ => moved_self.symm, fun _ _ => rfl, rfl⟩
  · have hset : (setFreeBalance (setFreeBalance s aid dest newTo) aid source newFrom).freeOf aid =
        moved (s.freeOf aid) source dest v.toNat := by
      unfold moved
      rw [if_neg hse, setFreeBalance_freeOf, setFreeBalance_freeOf, hr, ← hto]
    have hoth (a : AssetId) (ha : a ≠ aid) :
        (setFreeBalance (setFreeBalance s aid dest newTo) aid source newFrom).freeOf a = s.freeOf a := by
      rw [setFreeBalance_freeOf_ne ha, setFreeBalance_freeOf_ne ha]
    rw [if_neg hse]
    unfold settleTransfer
    dsimp only
    split_ifs with hdu
    · refine ⟨hfu, fun hed => ?_, fun a ha => ?_, reclaimFreeBalance_assetMeta⟩
      · -- the remainder is below a deposit of one, so there is nothing to reclaim
        have hey : newFrom.toNat = 0 := Nat.lt_one_iff.mp (Nat.lt_of_lt_of_le hdu hed)
        rw [reclaimFreeBalance_of_empty, hset]
        rw [hset, moved_source hse, ← hr, hey]
      · rw [reclaimFreeBalance_freeOf_ne ha, hoth a ha]
    · exact ⟨hfu, fun _ => hset, hoth, rfl⟩

theorem transfer_inv (h : MultiCurrency.transfer cfg s source dest aid v = .ok s') :
    Transferred s s' aid source dest v.toNat := by
  unfold MultiCurrency.transfer at h
  split_ifs at h with h0
  · cases h
    subst h0
    exact ⟨Nat.zero_le _, fun _ => moved_zero.symm, fun _ _ => rfl, rfl⟩
  · exact makeTransfer_inv h

theorem transfer_unchanged (h : MultiCurrency.transfer cfg s source dest aid v = .ok s') :
    s'.locks = s.locks ∧ s'.nextAssetId = s.nextAssetId := by
  unfold MultiCurrency.transfer at h
  split at h
  · cases h
    exact ⟨rfl, rfl⟩
  obtain ⟨newFrom, newTo, -, -, -, rfl⟩ := makeTransfer_eq_ok.mp h
  unfold settleTransfer
  dsimp only
  split
  · exact ⟨rfl, rfl⟩
  split
  · rw [reclaimFreeBalance_eq]
    split <;> exact ⟨rfl, rfl⟩
  · exact ⟨rfl, rfl⟩

end

end GenericAsset
