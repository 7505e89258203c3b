import Cennznet.Theorems.EvmCurrency.Settlement
import Cennznet.Theorems.GenericAsset.Locks

/-! # The funds that the EVM sees

`can_withdraw` compares wei with the units of the ledger. -/

namespace EvmCurrencyScaler

open Word
open EthStateOracle (scaleWeiTo4dp cpayUnitValue)
open GenericAsset (Balance State WithdrawReasons)

variable {A : Type} [DecidableEq A] (cfg : Config A) (s : State A) (who : A)
  (value : Balance)

theorem toNat_balance : (balance cfg s who).toNat = min (10 ^ 14 * s.freeOf cfg.spendingAssetId who) (2 ^ 128 - 1) := by
  have hsc := toNat_saturatingMul_setWidth (a := s.free cfg.spendingAssetId who) (b := cpayUnitValue)
    (v := 256) (by decide)
  have hun : cpayUnitValue.toNat = 10 ^ 14 := rfl
  rw [hun, Nat.mul_comm] at hsc
  exact toNat_saturatedInto.trans (congrArg (min · (2 ^ 128 - 1)) hsc)

theorem le_balance_iff : value.toNat ≤ (balance cfg s who).toNat ↔
    value.toNat ≤ 10 ^ 14 * s.freeOf cfg.spendingAssetId who := by
  have hlt := value.isLt
  rw [toNat_balance]
  omega

theorem canWithdraw_eq_success : canWithdraw cfg s who value = .success ↔
    value.toNat ≤ s.freeOf cfg.spendingAssetId who := by
  unfold canWithdraw GenericAsset.AssetCurrency.canWithdraw
  split
  · rename_i rest hr
    have hsum : rest.toNat + value.toNat = s.freeOf cfg.spendingAssetId who := checkedSub_eq_some.mp hr
    exact iff_of_true rfl (by omega)
  · rename_i hn
    exact iff_of_false (fun h => by cases h) (Nat.not_le.mpr (checkedSub_eq_none.mp hn))

theorem withdraw_ok_iff (rs : WithdrawReasons) (hlo : s.locks.getD (cfg.spendingAssetId, who) [] = []) :
    (∃ taken, withdraw cfg s who value rs = .ok taken) ↔ value.toNat ≤ 10 ^ 14 * s.freeOf cfg.spendingAssetId who := by
  have hal (n nb : Balance) : GenericAsset.ensureCanWithdraw s cfg.spendingAssetId who n rs nb = .ok () := by
    simp only [GenericAsset.ensureCanWithdraw, hlo, List.all_nil, if_true, ite_self]
  rw [← Rounding.up_le_iff (by decide), ← toNat_scaleWeiTo4dp]
  unfold withdraw GenericAsset.AssetCurrency.withdraw
  cases hr : checkedSub (s.free cfg.spendingAssetId who) (scaleWeiTo4dp value) with
  | none =>
    refine iff_of_false ?_ (Nat.not_le.mpr (checkedSub_eq_none.mp hr))
    rintro ⟨taken, h⟩
    cases h
  | some rest =>
    have hsum : rest.toNat + (scaleWeiTo4dp value).toNat = s.freeOf cfg.spendingAssetId who := checkedSub_eq_some.mp hr
    simp only [hal]
    refine iff_of_true ?_ (by omega)
    split
    · exact ⟨_, rfl⟩
    · exact ⟨_, rfl⟩

/-- The balance in wei, `can_withdraw` and `withdraw` agree on an amount exactly if it is at most as many wei as the
account has units, or more than it has. -/
theorem views_agree_iff (reasons : WithdrawReasons) (hlocks : s.locks.getD (cfg.spendingAssetId, who) [] = []) :
    ((value.toNat ≤ (balance cfg s who).toNat ↔ canWithdraw cfg s who value = .success) ∧
      (canWithdraw cfg s who value = .success ↔ ∃ taken, withdraw cfg s who value reasons = .ok taken)) ↔
    value.toNat ≤ s.freeOf cfg.spendingAssetId who ∨ 10 ^ 14 * s.freeOf cfg.spendingAssetId who < value.toNat := by
  rw [le_balance_iff, canWithdraw_eq_success, withdraw_ok_iff cfg s who value reasons hlocks]
  omega

theorem views_agree_on_ten_wei :
    (10 ≤ (balance sampleConfig sampleState 1).toNat ↔ canWithdraw sampleConfig sampleState 1 10 = .success) ∧
    (canWithdraw sampleConfig sampleState 1 10 = .success ↔
      ∃ taken, withdraw sampleConfig sampleState 1 10 1 = .ok taken) :=
  (views_agree_iff sampleConfig sampleState 1 10 1 (by decide)).mpr (by decide)

theorem canWithdraw_one_unit_noFunds : 100000000000000 ≤ (balance sampleConfig sampleState 1).toNat ∧
    (∃ taken, withdraw sampleConfig sampleState 1 100000000000000 1 = .ok taken) ∧
    canWithdraw sampleConfig sampleState 1 100000000000000 = .noFunds :=
  ⟨by decide, ⟨_, rfl⟩, by decide⟩

end EvmCurrencyScaler
