import Cennznet.Theorems.Cennzx.Price
import Cennznet.Theorems.GenericAsset.Transfer

/-! # Trades through two pools

The core on the way can be less than the second pool needs for a purchase. -/

namespace Cennzx

open GenericAsset (AssetId Balance Transferred moved moved_source moved_dest moved_self moved_other)
open ConstantProduct Result

variable {A : Type} [DecidableEq A]

def State.product (cfg : Config A) (s : State A) (assetId : AssetId) : Nat :=
  s.coreReserve cfg assetId * s.assetReserve cfg assetId

def KeepsProducts (cfg : Config A) (s s' : State A) (a b : AssetId) : Prop :=
  s.product cfg a ≤ s'.product cfg a ∧ s.product cfg b ≤ s'.product cfg b

structure TwoPools (cfg : Config A) (s : State A) (a b : AssetId) : Prop where
  distinct : a ≠ b
  sold_ne_core : a ≠ s.coreAssetId
  bought_ne_core : b ≠ s.coreAssetId
  accounts : s.exchangeAddress cfg a ≠ s.exchangeAddress cfg b
  deposits : ∀ assetId, s.assets.existentialDeposit assetId = 1

section
variable {cfg : Config A} {s s' : State A} {trader recipient : A} {a b : AssetId}
  {sold bought : Balance}

theorem transfer_inv {transactor dest : A} {ccy : AssetId} {v : Balance}
    (h : s.transfer cfg transactor dest ccy v = .ok s') :
    ∃ assets, Transferred s.assets assets ccy transactor dest v.toNat ∧ s' = { s with assets := assets } := by
  simp only [State.transfer, bind_eq_ok, mapError_eq_ok, pure_eq_ok] at h
  obtain ⟨assets, hss, rfl⟩ := h
  exact ⟨assets, GenericAsset.transfer_inv hss, rfl⟩

section
variable {assets assets' : GenericAsset.State A} {src dest : A} {c : AssetId} {v : Nat}

theorem transferred_deposits (h : Transferred assets assets' c src dest v)
    (hde : ∀ aid, assets.existentialDeposit aid = 1) :
    ∀ aid, assets'.existentialDeposit aid = 1 := by
  intro aid
  rw [GenericAsset.State.existentialDeposit, h.assetMeta]
  exact hde aid

theorem transferred_moved (h : Transferred assets assets' c src dest v)
    (hde : ∀ aid, assets.existentialDeposit aid = 1) :
    assets'.freeOf c = moved (assets.freeOf c) src dest v :=
  h.amounts (by rw [hde]; exact Nat.le_refl 1)

end

structure Routed (cfg : Config A) (s : State A) (assets : GenericAsset.State A)
    (trader recipient : A) (a b : AssetId) (sold core bought : Nat) : Prop where
  payment : assets.freeOf a = moved (s.assets.freeOf a) trader (s.exchangeAddress cfg a) sold
  route : assets.freeOf s.coreAssetId =
    moved (s.assets.freeOf s.coreAssetId) (s.exchangeAddress cfg a) (s.exchangeAddress cfg b) core
  delivery : assets.freeOf b = moved (s.assets.freeOf b) (s.exchangeAddress cfg b) recipient bought
  others : ∀ c, c ≠ a → c ≠ b → c ≠ s.coreAssetId → assets.freeOf c = s.assets.freeOf c
  paid : sold ≤ s.assets.freeOf a trader
  passed : core ≤ s.assets.freeOf s.coreAssetId (s.exchangeAddress cfg a)
  delivered : bought ≤ s.assets.freeOf b (s.exchangeAddress cfg b)

theorem executeTrade_routed (hde : ∀ aid, s.assets.existentialDeposit aid = 1) (hne : a ≠ b)
    (ha : a ≠ s.coreAssetId) (hb : b ≠ s.coreAssetId)
    (h : executeTrade cfg s trader recipient a b sold bought = .ok s') :
    ∃ core assets, getAssetToCoreSellPrice cfg s a sold = .ok core ∧ s' = { s with assets := assets } ∧
      Routed cfg s assets trader recipient a b sold.toNat core.toNat bought.toNat := by
  simp only [executeTrade, if_neg (not_or.mpr ⟨ha, hb⟩), bind_eq_ok] at h
  obtain ⟨core, hpr, s₁, h₁, s₂, h₂, h₃⟩ := h
  obtain ⟨assets₁, paid, rfl⟩ := transfer_inv h₁
  obtain ⟨assets₂, passed, rfl⟩ := transfer_inv h₂
  obtain ⟨assets₃, delivered, rfl⟩ := transfer_inv h₃
  -- each of the three transfers moves an asset that the others leave
  have hde₁ := transferred_deposits paid hde
  have hc : assets₁.freeOf s.coreAssetId = s.assets.freeOf s.coreAssetId := paid.others _ ha.symm
  have hbo : assets₂.freeOf b = s.assets.freeOf b := by rw [passed.others b hb, paid.others b hne.symm]
  refine ⟨core, assets₃, hpr, rfl, ?_, ?_, ?_, fun c hca hcb hcc => ?_, paid.funded, hc ▸ passed.funded,
    hbo ▸ delivered.funded⟩
  · rw [delivered.others a hne, passed.others a ha]
    exact transferred_moved paid hde
  · rw [delivered.others _ hb.symm, ← hc]
    exact transferred_moved passed hde₁
  · rw [← hbo]
    exact transferred_moved delivered (transferred_deposits passed hde₁)
  · rw [delivered.others c hcb, passed.others c hcc, paid.others c hca]

structure Traded (cfg : Config A) (s s' : State A) (recipient : A) (a b : AssetId)
    (sold core bought : Nat) : Prop where
  assetA : s'.assetReserve cfg a = s.assetReserve cfg a + sold
  coreA : s'.coreReserve cfg a = s.coreReserve cfg a - core
  coreB : s'.coreReserve cfg b = s.coreReserve cfg b + core
  assetB : s'.assetReserve cfg b =
    if recipient = s.exchangeAddress cfg b then s.assetReserve cfg b else s.assetReserve cfg b - bought
  funded : bought ≤ s.assetReserve cfg b

theorem executeTrade_inv (pools : TwoPools cfg s a b) (htr : trader ≠ s.exchangeAddress cfg a)
    (h : executeTrade cfg s trader recipient a b sold bought = .ok s') :
    ∃ core, getAssetToCoreSellPrice cfg s a sold = .ok core ∧
      Traded cfg s s' recipient a b sold.toNat core.toNat bought.toNat := by
  obtain ⟨core, assets, hpr, rfl, hro⟩ :=
    executeTrade_routed pools.deposits pools.distinct pools.sold_ne_core pools.bought_ne_core h
  refine ⟨core, hpr, ?_, ?_, ?_, ?_, hro.delivered⟩
  · exact (congrFun hro.payment _).trans (moved_dest htr)
  · exact (congrFun hro.route _).trans (moved_source pools.accounts)
  · exact (congrFun hro.route _).trans (moved_dest pools.accounts)
  · refine (congrFun hro.delivery _).trans ?_
    split_ifs with hse
    · rw [hse]
      exact congrFun moved_self _
    · exact moved_source (Ne.symm hse)

/-- The pool of the asset sold always gains: the core that leaves it is the yield of the payment. -/
theorem Traded.keeps_sold {core : Balance} (traded : Traded cfg s s' recipient a b sold.toNat core.toNat bought.toNat)
    (hpr : getAssetToCoreSellPrice cfg s a sold = .ok core) : s.product cfg a ≤ s'.product cfg a := by
  obtain ⟨hle, hpa⟩ := calculateSellPrice_pays (getAssetToCoreSellPrice_inv hpr)
  unfold State.product
  rw [traded.assetA, traded.coreA, Nat.mul_comm, Nat.mul_comm (_ - _)]
  exact (pays_iff_product hle).mp hpa

/-- The pool of the asset bought loses nothing exactly when the core pays for the purchase, or the purchase goes back to
it. -/
theorem Traded.keeps_bought_iff {sold core bought : Nat} (traded : Traded cfg s s' recipient a b sold core bought) :
    s.product cfg b ≤ s'.product cfg b ↔ recipient = s.exchangeAddress cfg b ∨
      Pays (s.coreReserve cfg b) (s.assetReserve cfg b) core bought := by
  unfold State.product
  rw [traded.coreB, traded.assetB]
  split_ifs with hse
  · exact ⟨fun _ => Or.inl hse, fun _ => Nat.mul_le_mul_right _ (Nat.le_add_right _ _)⟩
  · rw [← pays_iff_product traded.funded]
    exact ⟨Or.inr, fun h => h.resolve_left hse⟩

/-! ### Sales and purchases -/

theorem executeSell_keepsProducts {n mn : Balance} (pools : TwoPools cfg s a b) (htr : trader ≠ s.exchangeAddress cfg a)
    (h : executeSell cfg s trader recipient a b n mn = .ok (s', bought)) : KeepsProducts cfg s s' a b := by
  simp only [executeSell, bind_eq_ok, ensure_eq_ok, pure_eq_ok, Prod.mk.injEq] at h
  obtain ⟨-, -, _, hpr, -, -, _, hte, rfl, rfl⟩ := h
  obtain ⟨core, hc, hpa⟩ := getSellPrice_inv pools.sold_ne_core pools.bought_ne_core hpr
  obtain ⟨core', hco', traded⟩ := executeTrade_inv pools htr hte
  obtain rfl : core = core' := Except.ok.inj (hc.symm.trans hco')
  obtain ⟨-, hpy⟩ := calculateSellPrice_pays (getCoreToAssetSellPrice_inv hpa)
  exact ⟨traded.keeps_sold hc, traded.keeps_bought_iff.mpr (Or.inr hpy)⟩

/-- The core that the pool of `a` yields for the quoted payment also pays the pool of `b`. -/
def State.RoutedPays (cfg : Config A) (s : State A) (a b : AssetId) (amt : Balance) : Prop :=
  ConstantProduct.RoutedPays perMillion.toNat s.defaultFeeRate.inner.toNat (s.assetReserve cfg a) (s.coreReserve cfg a)
    (s.coreReserve cfg b) (s.assetReserve cfg b) amt.toNat

theorem executeBuy_keepsProducts_iff {amt maximum : Balance} (pools : TwoPools cfg s a b)
    (htr : trader ≠ s.exchangeAddress cfg a)
    (h : executeBuy cfg s trader recipient a b amt maximum = .ok (s', sold)) :
    KeepsProducts cfg s s' a b ↔ recipient = s.exchangeAddress cfg b ∨ s.RoutedPays cfg a b amt := by
  simp only [executeBuy, bind_eq_ok, ensure_eq_ok, pure_eq_ok, Prod.mk.injEq] at h
  obtain ⟨_, hpr, -, -, -, -, _, hte, rfl, rfl⟩ := h
  obtain ⟨quote, hqt, hpay⟩ := getBuyPrice_inv pools.sold_ne_core pools.bought_ne_core hpr
  obtain ⟨core, hc, traded⟩ := executeTrade_inv pools htr hte
  obtain ⟨-, hbo, -, -, hqu⟩ := calculateBuyPrice_eq_ok.mp (getCoreToAssetBuyPrice_inv hqt)
  obtain ⟨hs, hro, -, -, hp⟩ := calculateBuyPrice_eq_ok.mp (getAssetToCoreBuyPrice_inv hpay)
  obtain ⟨-, -, -, hyi⟩ := calculateSellPrice_eq_ok.mp (getAssetToCoreSellPrice_inv hc)
  have hpa : Pays (s.coreReserve cfg b) (s.assetReserve cfg b) core.toNat amt.toNat ↔ s.RoutedPays cfg a b amt := by
    rw [← hyi, ← hp, ← hqu]
    rw [← hqu] at hro
    exact routed_yield_pays_iff perMillion_pos hs hbo hro
  unfold KeepsProducts
  rw [traded.keeps_bought_iff, hpa]
  exact ⟨fun h => h.2, fun h => ⟨traded.keeps_sold hc, h⟩⟩

/-- A sale through two pools lowers no product. A purchase keeps both exactly when the core on the way survives the
rounding. -/
theorem two_hop_keepsProducts_iff (pools : TwoPools cfg s a b) (htrader : trader ≠ s.exchangeAddress cfg a) :
    (∀ amount minimum s' bought, executeSell cfg s trader recipient a b amount minimum = .ok (s', bought) →
      KeepsProducts cfg s s' a b) ∧
    (∀ amount maximum s' sold, executeBuy cfg s trader recipient a b amount maximum = .ok (s', sold) →
      (KeepsProducts cfg s s' a b ↔ recipient = s.exchangeAddress cfg b ∨ s.RoutedPays cfg a b amount)) :=
  ⟨fun _ _ _ _ h => executeSell_keepsProducts pools htrader h,
    fun _ _ _ _ h => executeBuy_keepsProducts_iff pools htrader h⟩

end

/-! ### Two pools of assets 1 and 2

Account 7 holds the asset it sells; the core asset is asset 0 and the fee three per mille. -/

def plainConfig : Config Nat where
  assets := ⟨0⟩
  exchangeAddressFor := fun _ assetId => 1000 + assetId.toNat
  feeCurrency := 0

def twoPools (coreA assetA coreB assetB : Balance) : State Nat :=
  let assets := GenericAsset.setFreeBalance (.genesis 17000) 1 7 1000
  let assets := GenericAsset.setFreeBalance assets 0 1001 coreA
  let assets := GenericAsset.setFreeBalance assets 1 1001 assetA
  let assets := GenericAsset.setFreeBalance assets 0 1002 coreB
  let assets := GenericAsset.setFreeBalance assets 2 1002 assetB
  .genesis assets 0 ⟨3000⟩

theorem twoPools_pools (coreA assetA coreB assetB : Balance) :
    TwoPools plainConfig (twoPools coreA assetA coreB assetB) 1 2 where
  distinct := by decide
  sold_ne_core := show (1 : AssetId) ≠ 0 by decide
  bought_ne_core := show (2 : AssetId) ≠ 0 by decide
  accounts := show 1001 ≠ 1002 by decide
  deposits := fun _ => rfl

theorem deep_pools_keepProducts :
    (∃ s' sold, executeBuy plainConfig (twoPools 10000 10000 10000 10000) 7 7 1 2 510 1000 = .ok (s', sold) ∧
      KeepsProducts plainConfig (twoPools 10000 10000 10000 10000) s' 1 2) ∧
    (∃ s' bought, executeSell plainConfig (twoPools 10000 10000 10000 10000) 7 7 1 2 100 1 = .ok (s', bought) ∧
      KeepsProducts plainConfig (twoPools 10000 10000 10000 10000) s' 1 2) := by
  obtain ⟨hs, hbuy⟩ := two_hop_keepsProducts_iff (twoPools_pools 10000 10000 10000 10000) (show 7 ≠ 1001 by decide)
  obtain ⟨s₁, sold, h₁⟩ : ∃ s' sold,
    executeBuy plainConfig (twoPools 10000 10000 10000 10000) 7 7 1 2 510 1000 = .ok (s', sold) := ⟨_, _, rfl⟩
  obtain ⟨s₂, bought, h₂⟩ : ∃ s' bought,
    executeSell plainConfig (twoPools 10000 10000 10000 10000) 7 7 1 2 100 1 = .ok (s', bought) := ⟨_, _, rfl⟩
  -- 569 of asset 1 are within the exact price of the 539 core asked for, and yield the 538 that pool 2 needs
  have hpa : (twoPools 10000 10000 10000 10000).RoutedPays plainConfig 1 2 510 := Or.inr ⟨569, 538, by decide⟩
  exact ⟨⟨s₁, sold, h₁, (hbuy 510 1000 s₁ sold h₁).mpr (Or.inr hpa)⟩, s₂, bought, h₂, hs 100 1 s₂ bought h₂⟩

/-- A pool with one unit of the asset sold yields no core for it: the other pool gives away what it sells. -/
theorem thin_pool_gives_away : ∃ s', executeBuy plainConfig (twoPools 1000 1 1000 1000) 7 7 1 2 1 1 = .ok (s', 1) ∧
      s'.coreReserve plainConfig 2 = 1000 ∧ s'.assetReserve plainConfig 2 = 999 ∧
      ¬KeepsProducts plainConfig (twoPools 1000 1 1000 1000) s' 1 2 := by
  refine ⟨_, rfl, by decide, by decide, ?_⟩
  unfold KeepsProducts
  decide

end Cennzx
