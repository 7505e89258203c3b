import Cennznet.Lib.Run
import Cennznet.Lib.Shares
import Cennznet.Theorems.Cennzx.TwoHop

/-! # The arithmetic of liquidity

Products of two balances wrap around where they do not fit. -/

namespace Cennzx

open GenericAsset (AssetId Balance)
open Result Shares Word

variable {A : Type} [DecidableEq A]

def State.shares (s : State A) (aid : AssetId) : Nat :=
  (s.totalLiquidity.getD (s.coreAssetId, aid) 0).toNat

def State.Fresh (cfg : Config A) (s : State A) (aid : AssetId) : Prop :=
  s.shares aid = 0 ∨ s.coreReserve cfg aid = 0

instance (cfg : Config A) (s : State A) (aid : AssetId) : Decidable (s.Fresh cfg aid) :=
  inferInstanceAs (Decidable (_ ∨ _))

/-! ### Exact amounts -/

def DepositExact (cfg : Config A) (s : State A) (aid : AssetId) (maxA coreAmount : Balance)
    (terms : Balance × Balance) : Prop :=
  (s.Fresh cfg aid ∧ terms = (maxA, coreAmount)) ∨ (¬s.Fresh cfg aid ∧
      terms.1.toNat = counterpart (s.coreReserve cfg aid) (s.assetReserve cfg aid) coreAmount.toNat ∧
      terms.2.toNat = issued (s.coreReserve cfg aid) (s.shares aid) coreAmount.toNat)

/-- The products of a deposit and the trade asset it asks for fit a balance. -/
def DepositFits (cfg : Config A) (s : State A) (aid : AssetId) (coreAmount : Balance) : Prop :=
  s.Fresh cfg aid ∨ (coreAmount.toNat * s.assetReserve cfg aid < 2 ^ 128 ∧
      counterpart (s.coreReserve cfg aid) (s.assetReserve cfg aid) coreAmount.toNat < 2 ^ 128 ∧
      coreAmount.toNat * s.shares aid < 2 ^ 128)

instance (cfg : Config A) (s : State A) (aid : AssetId) (coreAmount : Balance) :
    Decidable (DepositFits cfg s aid coreAmount) :=
  inferInstanceAs (Decidable (_ ∨ _))

def ValueExact (assetReserve coreReserve liq total : Balance) (v : LiquidityValue) : Prop :=
  (total.toNat = 0 ∧ v = ⟨0, 0, 0⟩) ∨ (total.toNat ≠ 0 ∧ v.liquidity.toNat = min liq.toNat total.toNat ∧
      v.core.toNat = redeemed coreReserve.toNat total.toNat (min liq.toNat total.toNat) ∧
      v.asset.toNat = redeemed assetReserve.toNat total.toNat (min liq.toNat total.toNat))

def ValueFits (assetReserve coreReserve liq total : Balance) : Prop :=
  total.toNat = 0 ∨ (min liq.toNat total.toNat * coreReserve.toNat < 2 ^ 128 ∧
      min liq.toNat total.toNat * assetReserve.toNat < 2 ^ 128)

instance (assetReserve coreReserve liq total : Balance) : Decidable (ValueFits assetReserve coreReserve liq total) :=
  inferInstanceAs (Decidable (_ ∨ _))

def PriceExact (cfg : Config A) (s : State A) (aid : AssetId) (liq : Balance) (p : LiquidityPrice) : Prop :=
  (s.Fresh cfg aid ∧ p = ⟨liq, 1⟩) ∨ (¬s.Fresh cfg aid ∧
      p.core.toNat = redeemed (s.coreReserve cfg aid) (s.shares aid) liq.toNat ∧
      p.asset.toNat = counterpart (s.coreReserve cfg aid) (s.assetReserve cfg aid)
        (redeemed (s.coreReserve cfg aid) (s.shares aid) liq.toNat))

def PriceFits (cfg : Config A) (s : State A) (aid : AssetId) (liq : Balance) : Prop :=
  s.Fresh cfg aid ∨ (liq.toNat * s.coreReserve cfg aid < 2 ^ 128 ∧
      redeemed (s.coreReserve cfg aid) (s.shares aid) liq.toNat * s.assetReserve cfg aid < 2 ^ 128 ∧
      counterpart (s.coreReserve cfg aid) (s.assetReserve cfg aid)
        (redeemed (s.coreReserve cfg aid) (s.shares aid) liq.toNat) < 2 ^ 128)

section
variable {cfg : Config A} {s : State A} {aid : AssetId}
  {maxA coreAmount liq assetReserve coreReserve total : Balance}

theorem fresh_iff : s.Fresh cfg aid ↔ s.totalLiquidity.getD (s.coreAssetId, aid) 0 = 0 ∨
    (getExchangeReserves cfg s aid).1 = 0 :=
  or_congr toNat_eq_zero toNat_eq_zero

theorem depositTerms_exact_iff (maxA : Balance) :
    DepositExact cfg s aid maxA coreAmount (depositTerms cfg s aid maxA coreAmount) ↔
      DepositFits cfg s aid coreAmount := by
  unfold DepositExact DepositFits depositTerms
  dsimp only
  by_cases hfr : s.Fresh cfg aid
  · rw [if_pos (fresh_iff.mp hfr)]
    exact iff_of_true (Or.inl ⟨hfr, rfl⟩) (Or.inl hfr)
  · rw [if_neg (fun h => hfr (fresh_iff.mpr h))]
    have hc : 0 < (getExchangeReserves cfg s aid).1.toNat := Nat.pos_of_ne_zero fun h => hfr (Or.inr h)
    have hp := toNat_mul_div_succ_eq_iff (a := coreAmount) (b := (getExchangeReserves cfg s aid).2) hc
    have hmi := toNat_mul_div_eq_iff (a := coreAmount) (b := s.totalLiquidity.getD (s.coreAssetId, aid) 0) hc
    simp only [hfr, false_and, false_or, not_false_eq_true, true_and]
    exact (and_congr hp hmi).trans and_assoc

theorem calculateLiquidityValue_exact_iff : ValueExact assetReserve coreReserve liq total
        (calculateLiquidityValue assetReserve coreReserve liq total) ↔
      ValueFits assetReserve coreReserve liq total := by
  unfold ValueExact ValueFits calculateLiquidityValue
  by_cases htot : total = 0
  · rw [if_pos htot]
    exact iff_of_true (Or.inl ⟨toNat_eq_zero.mpr htot, rfl⟩) (Or.inl (toNat_eq_zero.mpr htot))
  · rw [if_neg htot]
    have hne : total.toNat ≠ 0 := fun h => htot (toNat_eq_zero.mp h)
    simp only [hne, false_and, false_or, not_false_eq_true, true_and, ne_eq, ← toNat_lesser]
    exact and_congr (toNat_mul_div_eq_iff (Nat.pos_of_ne_zero hne)) (toNat_mul_div_eq_iff (Nat.pos_of_ne_zero hne))

theorem liquidityPrice_exact_iff :
    PriceExact cfg s aid liq (liquidityPrice cfg s aid liq) ↔ PriceFits cfg s aid liq := by
  unfold PriceExact PriceFits liquidityPrice
  dsimp only
  by_cases hfr : s.Fresh cfg aid
  · rw [if_pos (fresh_iff.mp hfr)]
    exact iff_of_true (Or.inl ⟨hfr, rfl⟩) (Or.inl hfr)
  · rw [if_neg (fun h => hfr (fresh_iff.mpr h))]
    have htot := Nat.pos_of_ne_zero fun h => hfr (Or.inl h)
    have hc : 0 < (getExchangeReserves cfg s aid).1.toNat := Nat.pos_of_ne_zero fun h => hfr (Or.inr h)
    have hpr := toNat_mul_div_eq_iff (a := liq) (b := (getExchangeReserves cfg s aid).1) htot
    simp only [hfr, false_and, false_or, not_false_eq_true, true_and]
    -- the asset amount is computed from the core amount, so it is looked at where the latter is exact
    refine Iff.trans (and_congr_right fun hex => ?_) (and_congr_left fun _ => hpr)
    have hp := toNat_mul_div_succ_eq_iff
      (a := liq * (getExchangeReserves cfg s aid).1 / s.totalLiquidity.getD (s.coreAssetId, aid) 0)
      (b := (getExchangeReserves cfg s aid).2) hc
    rw [hex] at hp
    exact hp

end

/-! ### Deposits and withdrawals -/

def Deposited (cfg : Config A) (s : State A) (who : A) (aid : AssetId)
    (coreAmount assetAmount minted : Balance) (s' : State A) : Prop :=
  ∃ s₁ s₂, s.transfer cfg who (s.exchangeAddress cfg aid) s.coreAssetId coreAmount = .ok s₁ ∧
    s₁.transfer cfg who (s.exchangeAddress cfg aid) aid assetAmount = .ok s₂ ∧
    s' = mintLiquidity s₂ (s₂.coreAssetId, aid) who minted

def Withdrew (cfg : Config A) (s : State A) (who : A) (aid : AssetId)
    (coreAmount assetAmount liq : Balance) (s' : State A) : Prop :=
  ∃ s₁ s₂, s.transfer cfg (s.exchangeAddress cfg aid) who s.coreAssetId coreAmount = .ok s₁ ∧
    s₁.transfer cfg (s.exchangeAddress cfg aid) who aid assetAmount = .ok s₂ ∧
    s' = burnLiquidity s₂ (s.coreAssetId, aid) who liq

section
variable {cfg : Config A} {s s' : State A} {who : A} {aid : AssetId}
  {minLiquidity maxA coreAmount liq minAsset minCore : Balance}

theorem addLiquidity_eq_ok : addLiquidity cfg s who aid minLiquidity maxA coreAmount = .ok s' ↔
      (maxA ≠ 0 ∧ coreAmount ≠ 0) ∧ coreAmount.toNat ≤ (s.assets.free s.coreAssetId who).toNat ∧
        maxA.toNat ≤ (s.assets.free aid who).toNat ∧
        minLiquidity.toNat ≤ (depositTerms cfg s aid maxA coreAmount).2.toNat ∧
        (depositTerms cfg s aid maxA coreAmount).1.toNat ≤ maxA.toNat ∧
        Deposited cfg s who aid coreAmount (depositTerms cfg s aid maxA coreAmount).1
          (depositTerms cfg s aid maxA coreAmount).2 s' := by
  unfold Deposited
  simp only [addLiquidity, bind_eq_ok, ensure_eq_ok, pure_eq_ok, exists_and_left, exists_const, eq_comm (a := s')]

theorem removeLiquidity_eq_ok : removeLiquidity cfg s who aid liq minAsset minCore = .ok s' ↔
      liq.toNat ≤ (s.liquidityBalance.getD ((s.coreAssetId, aid), who) 0).toNat ∧
        0 < s.shares aid ∧ minCore.toNat ≤ (liquidityValue cfg s aid liq).core.toNat ∧
        minAsset.toNat ≤ (liquidityValue cfg s aid liq).asset.toNat ∧
        Withdrew cfg s who aid (liquidityValue cfg s aid liq).core (liquidityValue cfg s aid liq).asset liq s' := by
  unfold Withdrew State.shares
  simp only [removeLiquidity, bind_eq_ok, ensure_eq_ok, pure_eq_ok, exists_and_left, exists_const, eq_comm (a := s')]

end

/-- Each of the four entry points uses the exact amounts of the pool exactly where its products fit. -/
theorem liquidity_amounts_exact_iff (cfg : Config A) (s : State A) (assetId : AssetId) :
    (∀ who minLiquidity maxAssetAmount coreAmount s',
      addLiquidity cfg s who assetId minLiquidity maxAssetAmount coreAmount = .ok s' →
        Deposited cfg s who assetId coreAmount (depositTerms cfg s assetId maxAssetAmount coreAmount).1
          (depositTerms cfg s assetId maxAssetAmount coreAmount).2 s' ∧
        (DepositExact cfg s assetId maxAssetAmount coreAmount (depositTerms cfg s assetId maxAssetAmount coreAmount) ↔
          DepositFits cfg s assetId coreAmount)) ∧
    (∀ who liquidity minAsset minCore s', removeLiquidity cfg s who assetId liquidity minAsset minCore = .ok s' →
        Withdrew cfg s who assetId (liquidityValue cfg s assetId liquidity).core
          (liquidityValue cfg s assetId liquidity).asset liquidity s' ∧
        (ValueExact (getExchangeReserves cfg s assetId).2 (getExchangeReserves cfg s assetId).1 liquidity
            (s.totalLiquidity.getD (s.coreAssetId, assetId) 0) (liquidityValue cfg s assetId liquidity) ↔
          ValueFits (getExchangeReserves cfg s assetId).2 (getExchangeReserves cfg s assetId).1 liquidity
            (s.totalLiquidity.getD (s.coreAssetId, assetId) 0))) ∧
    (∀ liquidity,
      PriceExact cfg s assetId liquidity (liquidityPrice cfg s assetId liquidity) ↔ PriceFits cfg s assetId liquidity) ∧
    (∀ assetReserve coreReserve liquidity total, ValueExact assetReserve coreReserve liquidity total
          (calculateLiquidityValue assetReserve coreReserve liquidity total) ↔
        ValueFits assetReserve coreReserve liquidity total) := by
  refine ⟨?_, ?_, fun _ => liquidityPrice_exact_iff, fun _ _ _ _ => calculateLiquidityValue_exact_iff⟩
  · intro who minLiquidity maxAssetAmount coreAmount s' h
    obtain ⟨-, -, -, -, -, hde⟩ := addLiquidity_eq_ok.mp h
    exact ⟨hde, depositTerms_exact_iff maxAssetAmount⟩
  · intro who liquidity minAsset minCore s' h
    obtain ⟨-, -, -, -, hwi⟩ := removeLiquidity_eq_ok.mp h
    exact ⟨hwi, calculateLiquidityValue_exact_iff⟩

def openedPool (assetAmount : Balance) : State Nat :=
  let assets := GenericAsset.setFreeBalance (.genesis 17000) 0 7 (BitVec.ofNat 128 (2 ^ 100))
  let assets := GenericAsset.setFreeBalance assets 1 7 (BitVec.ofNat 128 (2 ^ 100))
  Steps.execute (step plainConfig) (.genesis assets 0 ⟨3000⟩) [.addLiquidity 7 1 1 assetAmount 1]

/-- A deposit that should be more than `2 ^ 128` of the asset wraps around, and takes one unit. -/
theorem deposit_product_wraps :
    let s := openedPool (BitVec.ofNat 128 (2 ^ 64))
    let coreAmount : Balance := BitVec.ofNat 128 (2 ^ 64)
    (∃ s', addLiquidity plainConfig s 7 1 1 1 coreAmount = .ok s' ∧
      s'.assetReserve plainConfig 1 = s.assetReserve plainConfig 1 + 1) ∧
    counterpart (s.coreReserve plainConfig 1) (s.assetReserve plainConfig 1) coreAmount.toNat = 2 ^ 128 + 1 ∧
    ¬DepositExact plainConfig s 1 1 coreAmount (depositTerms plainConfig s 1 1 coreAmount) := by
  refine ⟨⟨_, rfl, by decide +kernel⟩, by decide, ?_⟩
  unfold DepositExact
  decide

theorem small_deposit_exact : ∃ s', addLiquidity plainConfig (openedPool 5) 7 1 1 100 3 = .ok s' ∧
      Deposited plainConfig (openedPool 5) 7 1 3 16 3 s' ∧
      DepositExact plainConfig (openedPool 5) 1 100 3 (16, 3) := by
  obtain ⟨s', h⟩ : ∃ s', addLiquidity plainConfig (openedPool 5) 7 1 1 100 3 = .ok s' := ⟨_, rfl⟩
  obtain ⟨hde, hex⟩ := (liquidity_amounts_exact_iff plainConfig (openedPool 5) 1).1 7 1 100 3 s' h
  exact ⟨s', h, hde, hex.mpr (by decide)⟩

end Cennzx
