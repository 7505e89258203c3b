import Cennznet.Cennzx
import Cennznet.Lib.ConstantProduct

/-! # Prices

Quotes of `ConstantProduct`, or failures. -/

namespace Cennzx

open GenericAsset (AssetId Balance)
open ConstantProduct Result

/-! ### Fee rates -/

namespace FeeRate

variable {scale : LowPrecisionUnsigned} {r m o : FeeRate scale}

theorem tryFrom_eq_some {h : HighPrecisionUnsigned} : tryFrom h = some o ↔ h.toNat = o.inner.toNat := by
  cases o with
  | mk o => simp [tryFrom, Word.tryFrom_eq_some]

theorem checkedAdd_one_eq_some : r.checkedAdd .one = some o ↔ scale.toNat + r.inner.toNat = o.inner.toNat := by
  cases o with
  | mk o => simp [checkedAdd, one, Word.checkedAdd_eq_some, Nat.add_comm]

theorem mulDiv_eq_some {a b : LowPrecisionUnsigned} {d q : HighPrecisionUnsigned} :
    Word.checkedDiv (Word.saturatingMul (a.setWidth 256) (b.setWidth 256)) d = some q ↔
      d.toNat ≠ 0 ∧ a.toNat * b.toNat / d.toNat = q.toNat := by
  rw [Word.checkedDiv_eq_some, Word.toNat_saturatingMul_setWidth (Nat.le_refl 256)]

theorem exists_high_eq {P : Prop} {n : Nat} :
    (∃ q : HighPrecisionUnsigned, (P ∧ n = q.toNat) ∧ q.toNat = o.inner.toNat) ↔ P ∧ n = o.inner.toNat := by
  constructor
  · rintro ⟨q, ⟨h0, hq⟩, ho⟩
    exact ⟨h0, hq.trans ho⟩
  · rintro ⟨h0, ho⟩
    refine ⟨o.inner.setWidth 256, ⟨h0, ?_⟩, ?_⟩ <;> rw [BitVec.toNat_setWidth_of_le (by decide)]
    exact ho

theorem checkedMul_eq_some : r.checkedMul m = some o ↔
    scale.toNat ≠ 0 ∧ r.inner.toNat * m.inner.toNat / scale.toNat = o.inner.toNat := by
  have hsc : (scale.setWidth 256).toNat = scale.toNat := BitVec.toNat_setWidth_of_le (by decide)
  simp only [checkedMul, Option.bind_eq_some_iff, mulDiv_eq_some, hsc, tryFrom_eq_some, exists_high_eq]

theorem checkedDiv_eq_some : r.checkedDiv m = some o ↔
    m.inner.toNat ≠ 0 ∧ r.inner.toNat * scale.toNat / m.inner.toNat = o.inner.toNat := by
  have hm : (m.inner.setWidth 256).toNat = m.inner.toNat := BitVec.toNat_setWidth_of_le (by decide)
  simp only [checkedDiv, Option.bind_eq_some_iff, mulDiv_eq_some, hm, tryFrom_eq_some, exists_high_eq]

end FeeRate

theorem perMillion_pos : 0 < perMillion.toNat := by decide

section
variable {feeRate : FeeRate perMillion} {amt sr br p : Balance}

theorem calculateBuyPrice_eq_ok :
    calculateBuyPrice feeRate amt sr br = .ok p ↔ 0 < sr.toNat ∧ amt.toNat < br.toNat ∧
        amountIn sr.toNat br.toNat amt.toNat < 2 ^ 128 ∧
        perMillion.toNat + feeRate.inner.toNat < 2 ^ 128 ∧
        addFee perMillion.toNat feeRate.inner.toNat (amountIn sr.toNat br.toNat amt.toNat) = p.toNat := by
  have hden (hlt : amt.toNat < br.toNat) : (br.setWidth 256 - amt.setWidth 256).toNat = br.toNat - amt.toNat := by
    rw [Word.toNat_sub_of_le] <;> simp only [BitVec.toNat_setWidth_of_le (show 128 ≤ 256 by decide)]
    exact Nat.le_of_lt hlt
  simp only [calculateBuyPrice, bind_eq_ok, ensure_eq_ok, okOr_eq_ok, pure_eq_ok, FeeRate.mulDiv_eq_some,
    Word.tryFrom_eq_some, Word.checkedAdd_eq_some, FeeRate.checkedAdd_one_eq_some, FeeRate.checkedMul_eq_some]
  constructor
  · rintro ⟨-, ⟨hs, -⟩, -, hlt, priceHp, ⟨-, hpr⟩, priceLp, hlp, plusOne, hpl, rate, hfee, output, ⟨-, hout⟩, rfl⟩
    rw [hden hlt] at hpr
    have hqu : amountIn sr.toNat br.toNat amt.toNat = plusOne.toNat := by
      rw [← hpl, ← hlp, ← hpr]
      rfl
    refine ⟨?_, hlt, ?_, ?_, ?_⟩
    · exact Word.toNat_pos.mpr hs
    · rw [hqu]
      exact plusOne.isLt
    · rw [hfee]
      exact rate.inner.isLt
    · unfold addFee
      rw [hqu, hfee, hout]
  · rintro ⟨hs, hlt, hqu, hfee, hpr⟩
    obtain ⟨plusOne, hpl⟩ := Word.exists_toNat_eq hqu
    obtain ⟨rate, hra⟩ := Word.exists_toNat_eq hfee
    obtain ⟨priceLp, hlp⟩ := Word.exists_toNat_eq (Nat.lt_of_succ_lt hqu)
    refine ⟨(), ⟨?_, ?_⟩, (), hlt, priceLp.setWidth 256, ⟨?_, ?_⟩, priceLp, ?_, plusOne, ?_, ⟨rate⟩, ?_, ⟨p⟩,
      ⟨perMillion_pos.ne', ?_⟩, rfl⟩
    · exact Word.toNat_pos.mp hs
    · exact Word.toNat_pos.mp (Nat.zero_lt_of_lt hlt)
    · rw [hden hlt]
      exact Nat.sub_ne_zero_of_lt hlt
    · rw [hden hlt, BitVec.toNat_setWidth_of_le (by decide), hlp]
      rfl
    · exact BitVec.toNat_setWidth_of_le (by decide)
    · rw [hlp, hpl]
      rfl
    · exact hra.symm
    · rw [hra, hpl]
      exact hpr

theorem calculateSellPrice_eq_ok :
    calculateSellPrice feeRate amt sr br = .ok p ↔
      0 < sr.toNat ∧ 0 < br.toNat ∧ perMillion.toNat + feeRate.inner.toNat < 2 ^ 128 ∧
        amountOut sr.toNat br.toNat (dropFee perMillion.toNat feeRate.inner.toNat amt.toNat) = p.toNat := by
  simp only [calculateSellPrice, bind_eq_ok, ensure_eq_ok, okOr_eq_ok, pure_eq_ok, FeeRate.mulDiv_eq_some,
    Word.tryFrom_eq_some, FeeRate.checkedAdd_one_eq_some, FeeRate.checkedDiv_eq_some]
  have hden (x : LowPrecisionUnsigned) : (x.setWidth 256 + sr.setWidth 256).toNat = sr.toNat + x.toNat := by
    have hx := x.isLt
    have hs := sr.isLt
    rw [BitVec.toNat_add, BitVec.toNat_setWidth_of_le (by decide), BitVec.toNat_setWidth_of_le (by decide),
      Nat.mod_eq_of_lt, Nat.add_comm]
    exact Nat.lt_of_lt_of_le (Nat.add_lt_add hx hs) (by decide)
  constructor
  · rintro ⟨-, ⟨hs, hbuy⟩, rate, hfee, scaled, ⟨-, hsc⟩, priceHp, ⟨-, hpr⟩, _, hlp, -, -, rfl⟩
    refine ⟨?_, ?_, ?_, ?_⟩
    · exact Word.toNat_pos.mpr hs
    · exact Word.toNat_pos.mpr hbuy
    · rw [hfee]
      exact rate.inner.isLt
    · unfold amountOut dropFee
      rw [hfee, hsc, ← hden, hpr, hlp]
  · rintro ⟨hs, hbuy, hfee, hpr⟩
    obtain ⟨rate, hra⟩ := Word.exists_toNat_eq hfee
    obtain ⟨scaled, hsc⟩ := Word.exists_toNat_eq
      (Nat.lt_of_le_of_lt (dropFee_le perMillion_pos) amt.isLt : dropFee perMillion.toNat feeRate.inner.toNat _ < _)
    refine ⟨(), ⟨?_, ?_⟩, ⟨rate⟩, ?_, ⟨scaled⟩, ⟨?_, ?_⟩, p.setWidth 256, ⟨?_, ?_⟩, p, ?_, (), ?_, rfl⟩
    · exact Word.toNat_pos.mp hs
    · exact Word.toNat_pos.mp hbuy
    · exact hra.symm
    · rw [hra]
      exact (Nat.add_pos_left perMillion_pos _).ne'
    · rw [hra, hsc]
      rfl
    · rw [hden]
      exact (Nat.add_pos_left hs _).ne'
    · rw [hden, BitVec.toNat_setWidth_of_le (by decide), ← hpr, hsc]
      rfl
    · exact BitVec.toNat_setWidth_of_le (by decide)
    · rw [← hpr]
      exact amountOut_lt hs hbuy

theorem perMillion_toNat : perMillion.toNat = 10 ^ 6 := rfl

theorem calculateBuyPrice_pays (h : calculateBuyPrice feeRate amt sr br = .ok p) :
    amt.toNat ≤ br.toNat ∧ Pays sr.toNat br.toNat p.toNat amt.toNat := by
  obtain ⟨-, hlt, -, -, hpr⟩ := calculateBuyPrice_eq_ok.mp h
  exact ⟨Nat.le_of_lt hlt, hpr ▸ (pays_amountIn hlt).mono (le_addFee perMillion_pos)⟩

theorem calculateSellPrice_pays (h : calculateSellPrice feeRate amt sr br = .ok p) :
    p.toNat ≤ br.toNat ∧ Pays sr.toNat br.toNat amt.toNat p.toNat := by
  obtain ⟨hs, hbuy, -, hpr⟩ := calculateSellPrice_eq_ok.mp h
  rw [← hpr]
  exact ⟨Nat.le_of_lt (amountOut_lt hs hbuy), (pays_amountOut hs hbuy).mono (dropFee_le perMillion_pos)⟩

theorem exists_calculateSellPrice (amt : Balance) (hs : 0 < sr.toNat) (hbuy : 0 < br.toNat)
    (hfee : perMillion.toNat + feeRate.inner.toNat < 2 ^ 128) :
    ∃ p, calculateSellPrice feeRate amt sr br = .ok p := by
  have hfit : amountOut sr.toNat br.toNat (dropFee perMillion.toNat feeRate.inner.toNat amt.toNat) <
      2 ^ 128 := Nat.lt_trans (amountOut_lt hs hbuy) br.isLt
  obtain ⟨p, hpr⟩ := Word.exists_toNat_eq hfit
  exact ⟨p, calculateSellPrice_eq_ok.mpr ⟨hs, hbuy, hfee, hpr.symm⟩⟩

theorem calculateSellPrice_ne_insufficient :
    calculateSellPrice feeRate amt sr br ≠ .error .insufficientExchangePoolReserve := by
  intro h
  have hre := h
  simp only [calculateSellPrice, bind_eq_error, ensure_eq_error, okOr_eq_error, ensure_eq_ok, okOr_eq_ok,
    reduceCtorEq, and_false, false_or, FeeRate.checkedAdd_one_eq_some] at hre
  obtain ⟨-, ⟨hs, hbuy⟩, rate, hra, -⟩ := hre
  have hfee : perMillion.toNat + feeRate.inner.toNat < 2 ^ 128 := by
    rw [hra]
    exact rate.inner.isLt
  obtain ⟨p, hok⟩ := exists_calculateSellPrice amt (Word.toNat_pos.mpr hs) (Word.toNat_pos.mpr hbuy) hfee
  rw [hok] at h
  cases h

/-- Spot prices are exact, fail only where a number does not fit, and keep the product of the reserves; the products do
not saturate, and a sell price is covered by the reserve. -/
theorem spot_prices_exact (feeRate : FeeRate perMillion) (amount sellReserve buyReserve : Balance) :
    (∀ price, calculateBuyPrice feeRate amount sellReserve buyReserve = .ok price ↔
      0 < sellReserve.toNat ∧ amount.toNat < buyReserve.toNat ∧
        sellReserve.toNat * amount.toNat / (buyReserve.toNat - amount.toNat) + 1 < 2 ^ 128 ∧
        10 ^ 6 + feeRate.inner.toNat < 2 ^ 128 ∧
        (10 ^ 6 + feeRate.inner.toNat) *
          (sellReserve.toNat * amount.toNat / (buyReserve.toNat - amount.toNat) + 1) / 10 ^ 6 = price.toNat) ∧
    (∀ price, calculateBuyPrice feeRate amount sellReserve buyReserve = .ok price →
      sellReserve.toNat * buyReserve.toNat ≤ (sellReserve.toNat + price.toNat) * (buyReserve.toNat - amount.toNat)) ∧
    (0 < sellReserve.toNat → 0 < buyReserve.toNat → 10 ^ 6 + feeRate.inner.toNat < 2 ^ 128 →
      ∃ price, calculateSellPrice feeRate amount sellReserve buyReserve = .ok price ∧
        price.toNat = buyReserve.toNat * (10 ^ 6 * amount.toNat / (10 ^ 6 + feeRate.inner.toNat)) /
          (sellReserve.toNat + 10 ^ 6 * amount.toNat / (10 ^ 6 + feeRate.inner.toNat)) ∧
        sellReserve.toNat * buyReserve.toNat ≤ (sellReserve.toNat + amount.toNat) * (buyReserve.toNat - price.toNat)) ∧
    (∀ a b : LowPrecisionUnsigned,
      (Word.saturatingMul (a.setWidth 256) (b.setWidth 256) : HighPrecisionUnsigned).toNat = a.toNat * b.toNat) ∧
    calculateSellPrice feeRate amount sellReserve buyReserve ≠ .error .insufficientExchangePoolReserve := by
  refine ⟨fun price => calculateBuyPrice_eq_ok, fun price h => ?_, fun hs hbuy hfee => ?_,
    fun a b => Word.toNat_saturatingMul_setWidth (Nat.le_refl 256), calculateSellPrice_ne_insufficient⟩
  · obtain ⟨hle, hpa⟩ := calculateBuyPrice_pays h
    exact (pays_iff_product hle).mp hpa
  obtain ⟨price, hok⟩ := exists_calculateSellPrice amount hs hbuy hfee
  obtain ⟨-, -, -, hpr⟩ := calculateSellPrice_eq_ok.mp hok
  obtain ⟨hle, hpa⟩ := calculateSellPrice_pays hok
  refine ⟨price, hok, ?_, (pays_iff_product hle).mp hpa⟩
  rw [← hpr, amountOut, dropFee, Nat.mul_comm amount.toNat, perMillion_toNat]

end

section
variable {A : Type} [DecidableEq A] {cfg : Config A} {s : State A}
  {a assetToSell assetToBuy : AssetId} {amt p : Balance}

def State.coreReserve (cfg : Config A) (s : State A) (a : AssetId) : Nat :=
  (getExchangeReserves cfg s a).1.toNat

def State.assetReserve (cfg : Config A) (s : State A) (a : AssetId) : Nat :=
  (getExchangeReserves cfg s a).2.toNat

theorem getAssetToCoreBuyPrice_inv (h : getAssetToCoreBuyPrice cfg s a amt = .ok p) :
    calculateBuyPrice s.defaultFeeRate amt (getExchangeReserves cfg s a).2 (getExchangeReserves cfg s a).1 = .ok p := by
  simp only [getAssetToCoreBuyPrice, bind_eq_ok] at h
  exact h.choose_spec.2

theorem getCoreToAssetBuyPrice_inv (h : getCoreToAssetBuyPrice cfg s a amt = .ok p) :
    calculateBuyPrice s.defaultFeeRate amt (getExchangeReserves cfg s a).1 (getExchangeReserves cfg s a).2 = .ok p := by
  simp only [getCoreToAssetBuyPrice, bind_eq_ok] at h
  exact h.choose_spec.2

theorem getAssetToCoreSellPrice_inv (h : getAssetToCoreSellPrice cfg s a amt = .ok p) :
    calculateSellPrice s.defaultFeeRate amt (getExchangeReserves cfg s a).2 (getExchangeReserves cfg s a).1 =
      .ok p := by
  simp only [getAssetToCoreSellPrice, bind_eq_ok] at h
  exact h.choose_spec.2

theorem getCoreToAssetSellPrice_inv (h : getCoreToAssetSellPrice cfg s a amt = .ok p) :
    calculateSellPrice s.defaultFeeRate amt (getExchangeReserves cfg s a).1 (getExchangeReserves cfg s a).2 =
      .ok p := by
  simp only [getCoreToAssetSellPrice, bind_eq_ok] at h
  exact h.choose_spec.2

theorem getBuyPrice_inv (hs : assetToSell ≠ s.coreAssetId) (hbuy : assetToBuy ≠ s.coreAssetId)
    (h : getBuyPrice cfg s assetToBuy amt assetToSell = .ok p) :
    ∃ core, getCoreToAssetBuyPrice cfg s assetToBuy amt = .ok core ∧
      getAssetToCoreBuyPrice cfg s assetToSell core = .ok p := by
  simp only [getBuyPrice, bind_eq_ok, ensure_eq_ok, if_neg hs, if_neg hbuy] at h
  obtain ⟨-, -, core, hc, hpr⟩ := h
  exact ⟨core, hc, hpr⟩

theorem getSellPrice_inv (hs : assetToSell ≠ s.coreAssetId) (hbuy : assetToBuy ≠ s.coreAssetId)
    (h : getSellPrice cfg s assetToSell amt assetToBuy = .ok p) :
    ∃ core, getAssetToCoreSellPrice cfg s assetToSell amt = .ok core ∧
      getCoreToAssetSellPrice cfg s assetToBuy core = .ok p := by
  simp only [getSellPrice, bind_eq_ok, ensure_eq_ok, if_neg hs, if_neg hbuy] at h
  obtain ⟨-, -, core, hc, hpr⟩ := h
  exact ⟨core, hc, hpr⟩

end

end Cennzx
