import Cennznet.EvmCurrency
import Cennznet.Lib.Rounding
import Cennznet.Theorems.GenericAsset.Credit

/-! # Settlement of an EVM fee

Fee, refund and tip are each rounded up to whole units. -/

namespace EvmCurrencyScaler

open EthStateOracle (scaleWeiTo4dp cpayUnitValue)
open GenericAsset (Balance NegativeImbalance PositiveImbalance State WithdrawReasons)
open Rounding (shortfall)

theorem toNat_scaleWeiTo4dp (v : Balance) : (scaleWeiTo4dp v).toNat = Rounding.up v.toNat (10 ^ 14) := by
  have hun : cpayUnitValue.toNat = 10 ^ 14 := rfl
  have hr : v % cpayUnitValue = 0 ↔ v.toNat % 10 ^ 14 = 0 := by
    rw [← hun, ← BitVec.toNat_umod]
    exact Word.toNat_eq_zero.symm
  have hqu : (v / cpayUnitValue).toNat = v.toNat / 10 ^ 14 := BitVec.toNat_udiv
  have hlt := v.isLt
  simp only [scaleWeiTo4dp, Rounding.up, hr]
  split
  · exact hqu
  · rw [BitVec.toNat_add_of_lt, hqu]
    · rfl
    · rw [hqu]
      have hone : (1 : BitVec 128).toNat = 1 := rfl
      omega

variable {A : Type} [DecidableEq A] {cfg : Config A} {s s₁ s₂ s₃ : State A}
  {who author : A} {fee refund tip v : Balance} {reasons : WithdrawReasons}
  {taken : NegativeImbalance} {credited refunded tipped : PositiveImbalance}

theorem withdraw_amount (h : withdraw cfg s who v reasons = .ok (s₁, taken)) : taken.amount = scaleWeiTo4dp v := by
  simp only [withdraw, GenericAsset.AssetCurrency.withdraw] at h
  split at h
  · cases h
  · split at h
    · cases h
    · split at h
      · cases h
        rfl
      · cases h
        rfl

def Room (cfg : Config A) (s : State A) (who : A) (v : Balance) : Prop :=
  s.freeOf cfg.spendingAssetId who + (scaleWeiTo4dp v).toNat < 2 ^ 128

instance : Decidable (Room cfg s who v) := inferInstanceAs (Decidable (_ < _))

theorem depositIntoExisting_amount (hr : Room cfg s who v)
    (h : depositIntoExisting cfg s who v = .ok (s₁, credited)) : credited.amount = scaleWeiTo4dp v := by
  have hadd := BitVec.toNat_add_of_lt hr
  have hle : (s.free cfg.spendingAssetId who).toNat ≤ (s.free cfg.spendingAssetId who + scaleWeiTo4dp v).toNat := by
    omega
  simp only [depositIntoExisting, GenericAsset.AssetCurrency.depositIntoExisting] at h
  split at h
  · simp only [GenericAsset.AssetCurrency.depositCreating, GenericAsset.AssetCurrency.makeFreeBalanceBe,
      GenericAsset.MultiCurrency.makeFreeBalanceBe, if_pos hle, Except.ok.injEq, Prod.mk.injEq] at h
    obtain ⟨-, rfl⟩ := h
    rw [BitVec.add_comm]
    exact BitVec.add_sub_cancel _ _
  · cases h

/-- The withdrawal covers the payments, and the payer is charged for all that is not refunded, exactly if what rounding
adds to the payments is covered by what they leave of the fee and what rounding adds to it, and is no more for the
refund than for the fee. -/
theorem settlement_covered_iff (hsum : refund.toNat + tip.toNat ≤ fee.toNat)
    (hfee : withdraw cfg s who fee reasons = .ok (s₁, taken))
    (hrefund : depositIntoExisting cfg s₁ who refund = .ok (s₂, refunded)) (hrefundRoom : Room cfg s₁ who refund)
    (htip : depositIntoExisting cfg s₂ author tip = .ok (s₃, tipped)) (htipRoom : Room cfg s₂ author tip) :
    (refunded.amount.toNat + tipped.amount.toNat ≤ taken.amount.toNat ∧
      (fee.toNat : Int) - refund.toNat ≤ 10 ^ 14 * ((taken.amount.toNat : Int) - refunded.amount.toNat)) ↔
    shortfall refund.toNat (10 ^ 14) + shortfall tip.toNat (10 ^ 14) ≤
        fee.toNat - (refund.toNat + tip.toNat) + shortfall fee.toNat (10 ^ 14) ∧
      shortfall refund.toNat (10 ^ 14) ≤ shortfall fee.toNat (10 ^ 14) := by
  rw [withdraw_amount hfee, depositIntoExisting_amount hrefundRoom hrefund, depositIntoExisting_amount htipRoom htip,
    toNat_scaleWeiTo4dp, toNat_scaleWeiTo4dp, toNat_scaleWeiTo4dp, Rounding.up_add_up_le_iff (by decide) hsum]
  refine and_congr_right fun _ => ?_
  have hup (n : Nat) : 10 ^ 14 * Rounding.up n (10 ^ 14) = n + shortfall n (10 ^ 14) := Rounding.mul_up (by decide)
  have hfu := hup fee.toNat
  have hru := hup refund.toNat
  omega

def sampleState : State Nat := { State.genesis 2 with freeBalance := (StorageMap.insert ∅ (1, 1) 10).insert (1, 2) 5 }

def sampleConfig : Config Nat := { assets := { dustAccount := 0 }, spendingAssetId := 1 }

theorem settlement_covered_of_whole_units : ∃ s₁ taken s₂ refunded s₃ tipped,
    withdraw sampleConfig sampleState 1 300000000000000 1 = .ok (s₁, taken) ∧
    depositIntoExisting sampleConfig s₁ 1 100000000000000 = .ok (s₂, refunded) ∧
    depositIntoExisting sampleConfig s₂ 2 100000000000000 = .ok (s₃, tipped) ∧
    refunded.amount.toNat + tipped.amount.toNat ≤ taken.amount.toNat := by
  obtain ⟨s₁, taken, hfee, s₂, refunded, hre, hrr, s₃, tipped, htip, htr⟩ :
      ∃ s₁ taken, withdraw sampleConfig sampleState 1 300000000000000 1 = .ok (s₁, taken) ∧
      ∃ s₂ refunded, depositIntoExisting sampleConfig s₁ 1 100000000000000 = .ok (s₂, refunded) ∧
        Room sampleConfig s₁ 1 100000000000000 ∧
      ∃ s₃ tipped, depositIntoExisting sampleConfig s₂ 2 100000000000000 = .ok (s₃, tipped) ∧
        Room sampleConfig s₂ 2 100000000000000 :=
    ⟨_, _, rfl, _, _, rfl, by decide, _, _, rfl, by decide⟩
  have hco := (settlement_covered_iff (by decide) hfee hre hrr htip htr).mpr (by decide)
  exact ⟨s₁, taken, s₂, refunded, s₃, tipped, hfee, hre, htip, hco.1⟩

/-- Of a fee of one unit 1 wei is refunded and 1 wei is the tip: two units are paid for one, and the payer is charged
nothing. -/
theorem settlement_of_two_wei : ∃ s₁ taken s₂ refunded s₃ tipped,
    withdraw sampleConfig sampleState 1 100000000000000 1 = .ok (s₁, taken) ∧
    depositIntoExisting sampleConfig s₁ 1 1 = .ok (s₂, refunded) ∧
    depositIntoExisting sampleConfig s₂ 2 1 = .ok (s₃, tipped) ∧
    taken.amount.toNat = 1 ∧ refunded.amount.toNat = 1 ∧ tipped.amount.toNat = 1 :=
  ⟨_, _, _, _, _, _, rfl, rfl, rfl, rfl, rfl, rfl⟩

end EvmCurrencyScaler
