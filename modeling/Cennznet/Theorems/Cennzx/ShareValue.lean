import Cennznet.Theorems.Cennzx.Liquidity

/-! # The value of a share

A step is taken apart into transfers (`Moved`), each rounded in favour of the pool. -/

namespace Cennzx

open GenericAsset (AssetId Balance moved moved_source moved_dest moved_other le_moved_source)
open ConstantProduct Result Shares

variable {A : Type} [DecidableEq A]

def State.UnitDeposits (s : State A) : Prop := ∀ aid, s.assets.existentialDeposit aid = 1

structure Moved (s s' : State A) (ccy : AssetId) (src dest : A) (value : Nat) : Prop where
  funded : value ≤ s.assets.freeOf ccy src
  amounts : s'.assets.freeOf ccy = moved (s.assets.freeOf ccy) src dest value
  others : ∀ b, b ≠ ccy → s'.assets.freeOf b = s.assets.freeOf b
  frame : s' = { s with assets := s'.assets }
  deposits : s'.UnitDeposits

section
variable {cfg : Config A} {s s' : State A} {ccy b : AssetId} {src dest who : A}
  {value : Balance} {n : Nat}

theorem transfer_moved (hs : s.UnitDeposits) (h : s.transfer cfg src dest ccy value = .ok s') :
    Moved s s' ccy src dest value.toNat := by
  obtain ⟨assets, transferred, rfl⟩ := transfer_inv h
  refine ⟨transferred.funded, transferred.amounts ?_, transferred.others, rfl, fun aid => ?_⟩
  · rw [hs]
    exact Nat.le_refl 1
  · unfold GenericAsset.State.existentialDeposit
    dsimp only
    rw [transferred.assetMeta]
    exact hs aid

theorem Moved.coreAssetId (m : Moved s s' ccy src dest n) : s'.coreAssetId = s.coreAssetId := by
  rw [m.frame]

theorem transfers_moved {s₁ s₂ : State A} {ccy' : AssetId} {src' dest' : A} {value' : Balance} (hs : s.UnitDeposits)
    (h₁ : s.transfer cfg src dest ccy value = .ok s₁) (h₂ : s₁.transfer cfg src' dest' ccy' value' = .ok s₂) :
    Moved s s₁ ccy src dest value.toNat ∧ Moved s₁ s₂ ccy' src' dest' value'.toNat ∧
      s₂.coreAssetId = s.coreAssetId := by
  have m₁ := transfer_moved hs h₁
  have m₂ := transfer_moved m₁.deposits h₂
  exact ⟨m₁, m₂, m₂.coreAssetId.trans m₁.coreAssetId⟩

theorem Moved.shares (m : Moved s s' ccy src dest n) (aid : AssetId) : s'.shares aid = s.shares aid := by
  rw [m.frame]
  rfl

theorem Moved.liquidityBalance (m : Moved s s' ccy src dest n) : s'.liquidityBalance = s.liquidityBalance := by
  rw [m.frame]

theorem Moved.account (m : Moved s s' ccy src dest n) (hso : who ≠ src) (hde : who ≠ dest) :
    s'.assets.freeOf b who = s.assets.freeOf b who := by
  by_cases hb : b = ccy
  · rw [hb, m.amounts, moved_other hso hde]
  · rw [m.others b hb]

theorem Moved.le_account (m : Moved s s' ccy src dest n) (hso : who ≠ src) :
    s.assets.freeOf b who ≤ s'.assets.freeOf b who := by
  by_cases hde : who = dest
  · by_cases hb : b = ccy
    · rw [hb, m.amounts, hde, moved_dest (hde ▸ hso).symm]
      exact Nat.le_add_right _ _
    · rw [m.others b hb]
  · rw [m.account hso hde]

end

structure OwnPool (cfg : Config A) (coreAssetId aid : AssetId) : Prop where
  ne_core : aid ≠ coreAssetId
  apart : ∀ b, b ≠ aid → cfg.exchangeAddressFor coreAssetId b ≠ cfg.exchangeAddressFor coreAssetId aid

/-- A share is worth no less after the step, and the last share takes all with it. -/
structure KeepsValue (cfg : Config A) (aid : AssetId) (s s' : State A) : Prop where
  value : 0 < s.shares aid → 0 < s'.shares aid →
    ValueKept (s.coreReserve cfg aid) (s.assetReserve cfg aid) (s.shares aid)
      (s'.coreReserve cfg aid) (s'.assetReserve cfg aid) (s'.shares aid)
  emptied : 0 < s.shares aid → s'.shares aid = 0 → s'.coreReserve cfg aid = 0 ∧ s'.assetReserve cfg aid = 0

section
variable {cfg : Config A} {s s' : State A} {aid : AssetId} {who : A}

theorem KeepsValue.of_product (hsh : s'.shares aid = s.shares aid)
    (hpr : s.coreReserve cfg aid * s.assetReserve cfg aid ≤
      s'.coreReserve cfg aid * s'.assetReserve cfg aid) : KeepsValue cfg aid s s' := by
  refine ⟨fun _ _ => ?_, fun hpos hz => ?_⟩
  · rw [hsh]
    exact Nat.mul_le_mul_right _ hpr
  · rw [hsh] at hz
    exact absurd hz hpos.ne'

theorem mintLiquidity_shares {b : AssetId} {minted : Balance} :
    (mintLiquidity s (s.coreAssetId, b) who minted).shares aid =
      if aid = b then min (s.shares aid + minted.toNat) (2 ^ 128 - 1) else s.shares aid := by
  unfold State.shares mintLiquidity
  dsimp only
  rw [StorageMap.getD_insert]
  by_cases h : aid = b
  · subst h
    rw [if_pos rfl, if_pos rfl, Word.toNat_saturatingAdd]
  · rw [if_neg h, if_neg]
    exact fun e => h (Prod.ext_iff.mp e).2

theorem burnLiquidity_shares {b : AssetId} {burned : Balance}
    (hle : burned.toNat ≤ (s.liquidityBalance.getD ((s.coreAssetId, b), who) 0).toNat) :
    (burnLiquidity s (s.coreAssetId, b) who burned).shares aid =
      if aid = b then s.shares aid - burned.toNat else s.shares aid := by
  unfold State.shares burnLiquidity
  dsimp only
  rw [StorageMap.getD_insert, if_pos hle]
  by_cases h : aid = b
  · subst h
    rw [if_pos rfl, if_pos rfl, Word.toNat_saturatingSub]
  · rw [if_neg h, if_neg]
    exact fun e => h (Prod.ext_iff.mp e).2

theorem coreReserve_eq (hc : s'.coreAssetId = s.coreAssetId) :
    s'.coreReserve cfg aid = s'.assets.freeOf s.coreAssetId (s.exchangeAddress cfg aid) := by
  unfold State.exchangeAddress
  rw [← hc]
  rfl

theorem assetReserve_eq (hc : s'.coreAssetId = s.coreAssetId) :
    s'.assetReserve cfg aid = s'.assets.freeOf aid (s.exchangeAddress cfg aid) := by
  unfold State.exchangeAddress
  rw [← hc]
  rfl

theorem KeepsValue.of_untouched (hc : s'.coreAssetId = s.coreAssetId) (hsh : s'.shares aid = s.shares aid)
    (hac : ∀ b, s.assets.freeOf b (s.exchangeAddress cfg aid) ≤
      s'.assets.freeOf b (s.exchangeAddress cfg aid)) : KeepsValue cfg aid s s' := by
  refine .of_product hsh ?_
  rw [coreReserve_eq hc, assetReserve_eq hc]
  exact Nat.mul_le_mul (hac s.coreAssetId) (hac aid)

section
variable {key : ExchangeKey} {n : Balance}

@[simp] theorem mintLiquidity_coreReserve :
    (mintLiquidity s key who n).coreReserve cfg aid = s.coreReserve cfg aid := rfl

@[simp] theorem mintLiquidity_assetReserve :
    (mintLiquidity s key who n).assetReserve cfg aid = s.assetReserve cfg aid := rfl

@[simp] theorem burnLiquidity_coreReserve :
    (burnLiquidity s key who n).coreReserve cfg aid = s.coreReserve cfg aid := rfl

@[simp] theorem burnLiquidity_assetReserve :
    (burnLiquidity s key who n).assetReserve cfg aid = s.assetReserve cfg aid := rfl

end

variable {b : AssetId} {minLiquidity maxA camt liq minAsset minCore : Balance}

theorem addLiquidity_reserves (hne : b ≠ s.coreAssetId) (hs : s.UnitDeposits) (hwho : who ≠ s.exchangeAddress cfg b)
    (h : addLiquidity cfg s who b minLiquidity maxA camt = .ok s') :
    s'.coreReserve cfg b = s.coreReserve cfg b + camt.toNat ∧
      s'.assetReserve cfg b = s.assetReserve cfg b + (depositTerms cfg s b maxA camt).1.toNat ∧
      s'.shares b = min (s.shares b + (depositTerms cfg s b maxA camt).2.toNat) (2 ^ 128 - 1) := by
  obtain ⟨-, -, -, -, -, s₁, s₂, h₁, h₂, rfl⟩ := addLiquidity_eq_ok.mp h
  obtain ⟨m₁, m₂, hc⟩ := transfers_moved hs h₁ h₂
  refine ⟨?_, ?_, ?_⟩
  · rw [mintLiquidity_coreReserve, coreReserve_eq hc, m₂.others _ hne.symm, m₁.amounts, moved_dest hwho]
    rfl
  · rw [mintLiquidity_assetReserve, assetReserve_eq hc, m₂.amounts, moved_dest hwho, m₁.others _ hne]
    rfl
  · rw [mintLiquidity_shares, if_pos rfl, m₂.shares, m₁.shares]

theorem removeLiquidity_reserves (hne : b ≠ s.coreAssetId) (hs : s.UnitDeposits) (hwho : who ≠ s.exchangeAddress cfg b)
    (hf : ValueFits (getExchangeReserves cfg s b).2 (getExchangeReserves cfg s b).1 liq
      (s.totalLiquidity.getD (s.coreAssetId, b) 0))
    (h : removeLiquidity cfg s who b liq minAsset minCore = .ok s') :
    s'.coreReserve cfg b = s.coreReserve cfg b -
        redeemed (s.coreReserve cfg b) (s.shares b) (min liq.toNat (s.shares b)) ∧
      s'.assetReserve cfg b = s.assetReserve cfg b -
        redeemed (s.assetReserve cfg b) (s.shares b) (min liq.toNat (s.shares b)) ∧
      s'.shares b = s.shares b - min liq.toNat (s.shares b) := by
  obtain ⟨hle, htot, -, -, s₁, s₂, h₁, h₂, rfl⟩ := removeLiquidity_eq_ok.mp h
  obtain ⟨hz, -⟩ | ⟨-, -, hcv, hav⟩ := calculateLiquidityValue_exact_iff.mpr hf
  · exact absurd hz htot.ne'
  obtain ⟨m₁, m₂, hc⟩ := transfers_moved hs h₁ h₂
  refine ⟨?_, ?_, ?_⟩
  · rw [burnLiquidity_coreReserve, coreReserve_eq hc, m₂.others _ hne.symm, m₁.amounts, moved_source hwho.symm]
    exact congrArg (s.coreReserve cfg b - ·) hcv
  · rw [burnLiquidity_assetReserve, assetReserve_eq hc, m₂.amounts, moved_source hwho.symm, m₁.others _ hne]
    exact congrArg (s.assetReserve cfg b - ·) hav
  · rw [← hc, burnLiquidity_shares, if_pos rfl, m₂.shares, m₁.shares]
    · omega
    · rw [m₂.liquidityBalance, m₁.liquidityBalance, hc]
      exact hle

theorem Moved.keepsValue {s₁ s₂ : State A} {x y : AssetId} {p q : A} {v w : Nat}
    (hp : s.exchangeAddress cfg aid ≠ p) (hq : s.exchangeAddress cfg aid ≠ q)
    (m₁ : Moved s s₁ x p q v) (m₂ : Moved s₁ s₂ y p q w) (hc : s'.coreAssetId = s.coreAssetId)
    (hss : s'.assets = s₂.assets) (hsh : s'.shares aid = s₂.shares aid) :
    KeepsValue cfg aid s s' := by
  refine .of_untouched hc ?_ fun a => ?_
  · rw [hsh, m₂.shares, m₁.shares]
  · rw [hss, m₂.account hp hq, m₁.account hp hq]

theorem addLiquidity_keepsValue (pool : OwnPool cfg s.coreAssetId aid) (hs : s.UnitDeposits)
    (hwho : who ≠ s.exchangeAddress cfg aid) (hf : DepositFits cfg s b camt)
    (h : addLiquidity cfg s who b minLiquidity maxA camt = .ok s') : KeepsValue cfg aid s s' := by
  by_cases hb : b = aid
  · subst hb
    obtain ⟨hcr, har, hnew⟩ := addLiquidity_reserves pool.ne_core hs hwho h
    constructor
    · intro hpos _
      rw [hcr, har, hnew]
      rcases (depositTerms_exact_iff maxA).mpr hf with ⟨hfr, -⟩ | ⟨hnot, hp, hmi⟩
      · -- a pool with shares whose core is gone has a product of zero
        have hz : s.coreReserve cfg b = 0 := hfr.resolve_left hpos.ne'
        unfold ValueKept
        rw [hz, Nat.zero_mul, Nat.zero_mul]
        exact Nat.zero_le _
      · rw [hp, hmi]
        exact valueKept_add (Nat.pos_of_ne_zero fun h0 => hnot (Or.inr h0)) (Nat.min_le_left _ _)
    · intro hpos hz
      rw [hnew] at hz
      omega
  · have hapa : s.exchangeAddress cfg aid ≠ s.exchangeAddress cfg b := (pool.apart b hb).symm
    obtain ⟨-, -, -, -, -, s₁, s₂, h₁, h₂, rfl⟩ := addLiquidity_eq_ok.mp h
    obtain ⟨m₁, m₂, hc⟩ := transfers_moved hs h₁ h₂
    refine m₁.keepsValue hwho.symm hapa m₂ hc rfl ?_
    rw [mintLiquidity_shares, if_neg (Ne.symm hb)]

theorem removeLiquidity_keepsValue (pool : OwnPool cfg s.coreAssetId aid) (hs : s.UnitDeposits)
    (hwho : who ≠ s.exchangeAddress cfg aid)
    (hf : ValueFits (getExchangeReserves cfg s b).2 (getExchangeReserves cfg s b).1 liq
      (s.totalLiquidity.getD (s.coreAssetId, b) 0))
    (h : removeLiquidity cfg s who b liq minAsset minCore = .ok s') : KeepsValue cfg aid s s' := by
  by_cases hb : b = aid
  · subst hb
    obtain ⟨hcr, har, hnew⟩ := removeLiquidity_reserves pool.ne_core hs hwho hf h
    constructor
    · intro _ _
      rw [hcr, har, hnew]
      exact ValueKept.of_reserves left_of_reserve left_of_reserve
    · intro hpos hz
      rw [hnew] at hz
      have hall : min liq.toNat (s.shares b) = s.shares b := by omega
      rw [hcr, har, hall, redeemed_all hpos, redeemed_all hpos, Nat.sub_self, Nat.sub_self]
      exact ⟨rfl, rfl⟩
  · have hapa : s.exchangeAddress cfg aid ≠ s.exchangeAddress cfg b := (pool.apart b hb).symm
    obtain ⟨hle, -, -, -, s₁, s₂, h₁, h₂, rfl⟩ := removeLiquidity_eq_ok.mp h
    obtain ⟨m₁, m₂, hc⟩ := transfers_moved hs h₁ h₂
    refine m₁.keepsValue hapa hwho.symm m₂ hc rfl ?_
    rw [← hc, burnLiquidity_shares, if_neg (Ne.symm hb)]
    rw [m₂.liquidityBalance, m₁.liquidityBalance, hc]
    exact hle

/-! ### Trades through one pool -/

def State.poolAsset (s : State A) (assetToSell assetToBuy : AssetId) : AssetId :=
  if assetToBuy = s.coreAssetId then assetToSell else assetToBuy

def State.reserve (cfg : Config A) (s : State A) (pool aid : AssetId) : Nat :=
  s.assets.freeOf aid (s.exchangeAddress cfg pool)

variable {sell buy : AssetId} {sold bought n pr : Balance} {trader rcp : A}

/-- A trade within the pool of the other asset takes no more than is there, for at least its price without fee. -/
def State.PoolPays (cfg : Config A) (s : State A) (sell buy : AssetId) (sold bought : Balance) : Prop :=
  bought.toNat ≤ s.reserve cfg (s.poolAsset sell buy) buy ∧
    Pays (s.reserve cfg (s.poolAsset sell buy) sell) (s.reserve cfg (s.poolAsset sell buy) buy) sold.toNat bought.toNat

theorem poolPays_for_core (hbuy : buy = s.coreAssetId) (h : bought.toNat ≤ s.coreReserve cfg sell ∧
    Pays (s.assetReserve cfg sell) (s.coreReserve cfg sell) sold.toNat bought.toNat) :
    s.PoolPays cfg sell buy sold bought := by
  unfold State.PoolPays State.poolAsset
  rw [if_pos hbuy, hbuy]
  exact h

theorem poolPays_with_core (hbuy : buy ≠ s.coreAssetId) (hs : sell = s.coreAssetId)
    (h : bought.toNat ≤ s.assetReserve cfg buy ∧
      Pays (s.coreReserve cfg buy) (s.assetReserve cfg buy) sold.toNat bought.toNat) :
    s.PoolPays cfg sell buy sold bought := by
  unfold State.PoolPays State.poolAsset
  rw [if_neg hbuy, hs]
  exact h

theorem getBuyPrice_pays (hsi : sell = s.coreAssetId ∨ buy = s.coreAssetId)
    (h : getBuyPrice cfg s buy n sell = .ok pr) : sell ≠ buy ∧ s.PoolPays cfg sell buy pr n := by
  simp only [getBuyPrice, bind_eq_ok, ensure_eq_ok] at h
  obtain ⟨-, hne, h⟩ := h
  refine ⟨Ne.symm hne, ?_⟩
  by_cases hbuy : buy = s.coreAssetId
  · have hs : sell ≠ s.coreAssetId := fun e => hne (hbuy.trans e.symm)
    simp only [if_pos hbuy, if_neg hs, bind_eq_ok, pure_eq_ok] at h
    obtain ⟨_, rfl, hpr⟩ := h
    exact poolPays_for_core hbuy (calculateBuyPrice_pays (getAssetToCoreBuyPrice_inv hpr))
  · have hs := hsi.resolve_right hbuy
    simp only [if_neg hbuy, if_pos hs, bind_eq_ok, pure_eq_ok] at h
    obtain ⟨_, hpr, rfl⟩ := h
    exact poolPays_with_core hbuy hs (calculateBuyPrice_pays (getCoreToAssetBuyPrice_inv hpr))

theorem getSellPrice_pays (hsi : sell = s.coreAssetId ∨ buy = s.coreAssetId)
    (h : getSellPrice cfg s sell n buy = .ok pr) : sell ≠ buy ∧ s.PoolPays cfg sell buy n pr := by
  simp only [getSellPrice, bind_eq_ok, ensure_eq_ok] at h
  obtain ⟨-, hne, h⟩ := h
  refine ⟨hne, ?_⟩
  by_cases hbuy : buy = s.coreAssetId
  · have hs : sell ≠ s.coreAssetId := fun e => hne (e.trans hbuy.symm)
    simp only [if_pos hbuy, if_neg hs, bind_eq_ok, pure_eq_ok] at h
    obtain ⟨_, hpr, rfl⟩ := h
    exact poolPays_for_core hbuy (calculateSellPrice_pays (getAssetToCoreSellPrice_inv hpr))
  · have hs := hsi.resolve_right hbuy
    simp only [if_neg hbuy, if_pos hs, bind_eq_ok, pure_eq_ok] at h
    obtain ⟨_, rfl, hpr⟩ := h
    exact poolPays_with_core hbuy hs (calculateSellPrice_pays (getCoreToAssetSellPrice_inv hpr))

theorem executeTrade_keepsValue (pool : OwnPool cfg s.coreAssetId aid) (hs : s.UnitDeposits)
    (htr : trader ≠ s.exchangeAddress cfg aid) (hsi : sell = s.coreAssetId ∨ buy = s.coreAssetId)
    (hne : sell ≠ buy) (hpa : s.PoolPays cfg sell buy sold bought)
    (h : executeTrade cfg s trader rcp sell buy sold bought = .ok s') : KeepsValue cfg aid s s' := by
  simp only [executeTrade, if_pos hsi, bind_eq_ok] at h
  obtain ⟨s₁, h₁, h₂⟩ := h
  obtain ⟨hle, hpa⟩ := hpa
  have m₁ : Moved s s₁ sell trader (s.exchangeAddress cfg (s.poolAsset sell buy)) sold.toNat := transfer_moved hs h₁
  have m₂ : Moved s₁ s' buy (s.exchangeAddress cfg (s.poolAsset sell buy)) rcp bought.toNat :=
    transfer_moved m₁.deposits h₂
  have hc : s'.coreAssetId = s.coreAssetId := m₂.coreAssetId.trans m₁.coreAssetId
  have hsh : s'.shares aid = s.shares aid := (m₂.shares aid).trans (m₁.shares aid)
  by_cases hb : s.poolAsset sell buy = aid
  · rw [hb] at m₁ m₂ hle hpa
    have hso : s'.assets.freeOf sell (s.exchangeAddress cfg aid) = s.reserve cfg aid sell + sold.toNat := by
      rw [m₂.others sell hne, m₁.amounts, moved_dest htr]
      rfl
    have hbo : s.reserve cfg aid buy - bought.toNat ≤ s'.assets.freeOf buy (s.exchangeAddress cfg aid) := by
      unfold State.reserve
      rw [m₂.amounts, m₁.others buy hne.symm]
      exact le_moved_source
    have hpr := ((pays_iff_product hle).mp hpa).trans (Nat.mul_le_mul_left _ hbo)
    rw [← hso] at hpr
    refine .of_product hsh ?_
    rw [coreReserve_eq hc, assetReserve_eq hc]
    -- one of the two assets of the trade is the core asset, the other the asset of the pool
    unfold State.poolAsset at hb
    split_ifs at hb with hbuy
    · rw [Nat.mul_comm, Nat.mul_comm (s'.assets.freeOf _ _), ← hb, ← hbuy]
      rw [← hb] at hpr
      exact (hbuy ▸ hpr)
    · have hse := hsi.resolve_right hbuy
      rw [← hb, ← hse]
      rw [← hb] at hpr
      exact (hse ▸ hpr)
  · have hapa := (pool.apart _ hb).symm
    refine .of_untouched hc hsh fun a => ?_
    exact (m₁.le_account htr.symm).trans (m₂.le_account hapa)

end

def Call.origin : Call A → Option A
  | .buyAsset trader .. => some trader
  | .sellAsset trader .. => some trader
  | .addLiquidity fromAccount .. => some fromAccount
  | .removeLiquidity fromAccount .. => some fromAccount
  | .setFeeRate _ => none

/-- The products that a call computes fit a balance. -/
def Call.ProductsFit (cfg : Config A) (s : State A) : Call A → Prop
  | .addLiquidity _ aid _ _ camt => DepositFits cfg s aid camt
  | .removeLiquidity _ aid liq _ _ =>
    ValueFits (getExchangeReserves cfg s aid).2 (getExchangeReserves cfg s aid).1 liq
      (s.totalLiquidity.getD (s.coreAssetId, aid) 0)
  | _ => True

def Call.SingleHop (s : State A) : Call A → Prop
  | .buyAsset _ _ assetToSell assetToBuy _ _ => assetToSell = s.coreAssetId ∨ assetToBuy = s.coreAssetId
  | .sellAsset _ _ assetToSell assetToBuy _ _ => assetToSell = s.coreAssetId ∨ assetToBuy = s.coreAssetId
  | _ => True

instance (cfg : Config A) (s : State A) : (call : Call A) → Decidable (call.ProductsFit cfg s)
  | .buyAsset .. => isTrue trivial
  | .sellAsset .. => isTrue trivial
  | .addLiquidity _ aid _ _ camt => inferInstanceAs (Decidable (DepositFits cfg s aid camt))
  | .removeLiquidity .. => inferInstanceAs (Decidable (ValueFits ..))
  | .setFeeRate _ => isTrue trivial

instance (s : State A) : (call : Call A) → Decidable (call.SingleHop s)
  | .buyAsset .. => inferInstanceAs (Decidable (_ ∨ _))
  | .sellAsset .. => inferInstanceAs (Decidable (_ ∨ _))
  | .addLiquidity .. => isTrue trivial
  | .removeLiquidity .. => isTrue trivial
  | .setFeeRate _ => isTrue trivial

section
variable {cfg : Config A} {s s' : State A} {aid : AssetId} {call : Call A}

inductive Transfers (cfg : Config A) (s : State A) : State A → Prop
  | refl : Transfers cfg s s
  | transfer {t u : State A} {src dest : A} {ccy : AssetId} {value : Balance} :
    Transfers cfg s t → t.transfer cfg src dest ccy value = .ok u → Transfers cfg s u

def Books (cfg : Config A) (s : State A) (call : Call A) (t s' : State A) : Prop :=
  match call with
  | .addLiquidity fromAccount aid _ maxA camt =>
    s' = mintLiquidity t (t.coreAssetId, aid) fromAccount (depositTerms cfg s aid maxA camt).2
  | .removeLiquidity fromAccount aid liq _ _ =>
    liq.toNat ≤ (s.liquidityBalance.getD ((s.coreAssetId, aid), fromAccount) 0).toNat ∧
      s' = burnLiquidity t (s.coreAssetId, aid) fromAccount liq
  | .setFeeRate newFeeRate => s' = { t with defaultFeeRate := newFeeRate }
  | _ => s' = t

theorem Transfers.frame {t : State A} (h : Transfers cfg s t) : t = { s with assets := t.assets } := by
  induction h with
  | refl => rfl
  | transfer _ ht ih =>
    obtain ⟨assets, -, rfl⟩ := transfer_inv ht
    rw [ih]

theorem Transfers.assets {I : GenericAsset.State A → Prop} (keep : ∀ g g' src dest ccy value,
      GenericAsset.MultiCurrency.transfer cfg.assets g src dest ccy value = .ok g' → I g → I g')
    {t : State A} (h : Transfers cfg s t) (init : I s.assets) : I t.assets := by
  induction h with
  | refl => exact init
  | transfer _ ht ih =>
    simp only [State.transfer, bind_eq_ok, mapError_eq_ok, pure_eq_ok] at ht
    obtain ⟨assets, hss, rfl⟩ := ht
    exact keep _ _ _ _ _ _ hss ih

theorem executeTrade_transfers {trader rcp : A} {sell buy : AssetId} {sold bought : Balance}
    (h : executeTrade cfg s trader rcp sell buy sold bought = .ok s') : Transfers cfg s s' := by
  unfold executeTrade at h
  split at h <;> simp only [bind_eq_ok] at h
  · obtain ⟨s₁, h₁, h₂⟩ := h
    exact .transfer (.transfer .refl h₁) h₂
  · obtain ⟨_, -, s₁, h₁, s₂, h₂, h₃⟩ := h
    exact .transfer (.transfer (.transfer .refl h₁) h₂) h₃

theorem dispatch_inv (h : dispatch cfg s call = .ok s') : ∃ t, Transfers cfg s t ∧ Books cfg s call t s' := by
  cases call with
  | buyAsset trader rcp sell buy n maximum =>
    simp only [dispatch, executeBuy, map_eq_ok, bind_eq_ok, ensure_eq_ok, pure_eq_ok] at h
    obtain ⟨_, ⟨_, -, -, -, -, -, _, ht, rfl⟩, rfl⟩ := h
    exact ⟨_, executeTrade_transfers ht, rfl⟩
  | sellAsset trader rcp sell buy n mn =>
    simp only [dispatch, executeSell, map_eq_ok, bind_eq_ok, ensure_eq_ok, pure_eq_ok] at h
    obtain ⟨_, ⟨-, -, _, -, -, -, _, ht, rfl⟩, rfl⟩ := h
    exact ⟨_, executeTrade_transfers ht, rfl⟩
  | addLiquidity who aid minLiquidity maxA camt =>
    obtain ⟨-, -, -, -, -, s₁, s₂, h₁, h₂, rfl⟩ := addLiquidity_eq_ok.mp h
    exact ⟨s₂, .transfer (.transfer .refl h₁) h₂, rfl⟩
  | removeLiquidity who aid liq minAsset minCore =>
    obtain ⟨hle, -, -, -, s₁, s₂, h₁, h₂, rfl⟩ := removeLiquidity_eq_ok.mp h
    exact ⟨s₂, .transfer (.transfer .refl h₁) h₂, hle, rfl⟩
  | setFeeRate rate =>
    cases h
    exact ⟨s, .refl, rfl⟩

theorem Books.assets {t : State A} (h : Books cfg s call t s') :
    s'.assets = t.assets ∧ s'.coreAssetId = t.coreAssetId := by
  unfold Books at h
  split at h
  · subst h
    exact ⟨rfl, rfl⟩
  · obtain ⟨-, rfl⟩ := h
    exact ⟨rfl, rfl⟩
  all_goals
    subst h
    exact ⟨rfl, rfl⟩

theorem dispatch_assets {I : GenericAsset.State A → Prop} (keep : ∀ g g' src dest ccy value,
      GenericAsset.MultiCurrency.transfer cfg.assets g src dest ccy value = .ok g' → I g → I g')
    (h : dispatch cfg s call = .ok s') (init : I s.assets) : I s'.assets ∧ s'.coreAssetId = s.coreAssetId := by
  obtain ⟨t, htr, hbo⟩ := dispatch_inv h
  rw [hbo.assets.1, hbo.assets.2]
  refine ⟨htr.assets keep init, ?_⟩
  rw [htr.frame]

theorem dispatch_unitDeposits (h : dispatch cfg s call = .ok s') (hs : s.UnitDeposits) :
    s'.UnitDeposits ∧ s'.coreAssetId = s.coreAssetId := by
  refine dispatch_assets (I := fun g => ∀ a, g.existentialDeposit a = 1) (fun g g' _ _ _ _ ht hg a => ?_) h hs
  unfold GenericAsset.State.existentialDeposit
  rw [(GenericAsset.transfer_inv ht).assetMeta]
  exact hg a

/-- What the share value of the pool of `assetId` needs of a call. -/
structure Call.Admitted (cfg : Config A) (aid : AssetId) (s : State A) (call : Call A) :
    Prop where
  products : call.ProductsFit cfg s
  single : call.SingleHop s
  /-- The account of the pool is a hash, for which nobody signs. -/
  signer : call.origin ≠ some (s.exchangeAddress cfg aid)

instance : Decidable (call.Admitted cfg aid s) :=
  decidable_of_iff (call.ProductsFit cfg s ∧ call.SingleHop s ∧ call.origin ≠ some (s.exchangeAddress cfg aid))
    ⟨fun ⟨products, single, signer⟩ => ⟨products, single, signer⟩, fun ⟨products, single, signer⟩ =>
      ⟨products, single, signer⟩⟩

theorem dispatch_keepsValue (pool : OwnPool cfg s.coreAssetId aid) (hs : s.UnitDeposits)
    (admitted : call.Admitted cfg aid s) (h : dispatch cfg s call = .ok s') : KeepsValue cfg aid s s' := by
  have hsi := admitted.signer
  cases call with
  | buyAsset trader rcp sell buy n maximum =>
    have htr : trader ≠ s.exchangeAddress cfg aid := fun e => hsi (congrArg some e)
    simp only [dispatch, executeBuy, map_eq_ok, bind_eq_ok, ensure_eq_ok, pure_eq_ok] at h
    obtain ⟨_, ⟨_, hpr, -, -, -, -, _, ht, rfl⟩, rfl⟩ := h
    obtain ⟨hne, hpa⟩ := getBuyPrice_pays admitted.single hpr
    exact executeTrade_keepsValue pool hs htr admitted.single hne hpa ht
  | sellAsset trader rcp sell buy n mn =>
    have htr : trader ≠ s.exchangeAddress cfg aid := fun e => hsi (congrArg some e)
    simp only [dispatch, executeSell, map_eq_ok, bind_eq_ok, ensure_eq_ok, pure_eq_ok] at h
    obtain ⟨_, ⟨-, -, _, hpr, -, -, _, ht, rfl⟩, rfl⟩ := h
    obtain ⟨hne, hpa⟩ := getSellPrice_pays admitted.single hpr
    exact executeTrade_keepsValue pool hs htr admitted.single hne hpa ht
  | addLiquidity who b minLiquidity maxA camt =>
    exact addLiquidity_keepsValue pool hs (fun e => hsi (congrArg some e)) admitted.products h
  | removeLiquidity who b liq minAsset minCore =>
    exact removeLiquidity_keepsValue pool hs (fun e => hsi (congrArg some e)) admitted.products h
  | setFeeRate rate =>
    cases h
    exact .of_untouched rfl rfl fun _ => Nat.le_refl _

theorem step_cases {P : State A → Prop} (hok : ∀ s', dispatch cfg s call = .ok s' → P s') (herr : P s) :
    P (step cfg s call) := by
  unfold step
  split
  · rename_i h
    exact hok _ h
  · exact herr

end

/-- In every run of single-hop trades and liquidity calls no step lowers the value of a share, and one that burns the
last share empties the pool. -/
theorem run_keepsValue (cfg : Config A) (s : State A) (assetId : AssetId) (pool : OwnPool cfg s.coreAssetId assetId)
    (hdeposits : s.UnitDeposits) (calls : List (Call A))
    (run : Steps.Each (step cfg) (Call.Admitted cfg assetId) s calls) :
    Steps.Each (step cfg) (fun s call => KeepsValue cfg assetId s (step cfg s call)) s calls := by
  refine run.imp (I := fun t => t.UnitDeposits ∧ t.coreAssetId = s.coreAssetId) ?_ ?_ ⟨hdeposits, rfl⟩
  · rintro t call - ⟨ht, hc⟩
    refine step_cases (P := fun t' => t'.UnitDeposits ∧ t'.coreAssetId = s.coreAssetId) (fun t' h => ?_) ⟨ht, hc⟩
    obtain ⟨ht', hco'⟩ := dispatch_unitDeposits h ht
    exact ⟨ht', hco'.trans hc⟩
  · rintro t call ⟨ht, hc⟩ admitted
    refine step_cases (P := KeepsValue cfg assetId t) (fun t' h => ?_) (.of_untouched rfl rfl fun _ => Nat.le_refl _)
    exact dispatch_keepsValue (hc ▸ pool) ht admitted h

def twoTraders : State Nat :=
  let assets := GenericAsset.setFreeBalance (.genesis 17000) 0 7 1000000
  let assets := GenericAsset.setFreeBalance assets 1 7 1000000
  let assets := GenericAsset.setFreeBalance assets 0 8 1000000
  let assets := GenericAsset.setFreeBalance assets 1 8 1000000
  .genesis assets 0 ⟨3000⟩

theorem plainConfig_ownPool : OwnPool plainConfig 0 1 where
  ne_core := by decide
  apart := fun b hb h => hb (BitVec.eq_of_toNat_eq (Nat.add_left_cancel h))

theorem twoTraders_run_keepsValue :
    Steps.Each (step plainConfig) (fun s call => KeepsValue plainConfig 1 s (step plainConfig s call)) twoTraders
      [.addLiquidity 7 1 1 1000 500, .sellAsset 8 none 0 1 100 1, .addLiquidity 8 1 1 1000 33,
        .buyAsset 8 (some 7) 1 0 50 1000, .removeLiquidity 7 1 500 0 0, .removeLiquidity 8 1 27 0 0] :=
  run_keepsValue plainConfig twoTraders 1 plainConfig_ownPool (fun _ => rfl) _ (by decide +kernel)

end Cennzx
