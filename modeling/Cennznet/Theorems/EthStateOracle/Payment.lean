import Cennznet.EvmRunner
import Cennznet.Theorems.EthStateOracle.Callbacks
import Cennznet.Theorems.EvmCurrency.Settlement

/-! # The payment for a callback

Where a payment fails the ones before it stay made. -/

namespace Cennzx

open GenericAsset (AssetId Balance MultiCurrency.transfer)
open Result Word

variable {A : Type} [DecidableEq A]

theorem freeOf_lt_of_transfer {cfg : GenericAsset.Config A} {assets assets' : GenericAsset.State A} {src dest : A}
    {n : Balance} {a : AssetId} (h : MultiCurrency.transfer cfg assets src dest a n = .ok assets') (hamo : n ≠ 0)
    (hne : src ≠ dest) : assets.freeOf a dest < assets'.freeOf a dest := by
  rw [MultiCurrency.transfer, if_neg hamo] at h
  obtain ⟨newFrom, newTo, -, hto, -, rfl⟩ := GenericAsset.makeTransfer_eq_ok.mp h
  have hpos := toNat_pos.mpr hamo
  have hfit := newTo.isLt
  rw [if_neg hne, GenericAsset.settleTransfer_freeOf_dest hne]
  split <;> omega

variable {cfg : Config A} {s s' : State A} {trader recipient : A} {a b : AssetId} {sold bought : Balance}

theorem calculateBuyPrice_pos {rate : FeeRate perMillion} {amt sr br p : Balance}
    (h : calculateBuyPrice rate amt sr br = .ok p) : 0 < p.toNat := by
  obtain ⟨-, -, -, -, hpr⟩ := calculateBuyPrice_eq_ok.mp h
  rw [← hpr]
  exact (Nat.succ_pos _).trans_le (ConstantProduct.le_addFee perMillion_pos)

theorem getBuyPrice_pos {amt p : Balance} (h : getBuyPrice cfg s b amt a = .ok p) : b ≠ a ∧ 0 < p.toNat := by
  simp only [getBuyPrice, bind_eq_ok, ensure_eq_ok] at h
  obtain ⟨-, hne, h⟩ := h
  refine ⟨hne, ?_⟩
  by_cases ha : a = s.coreAssetId
  · rw [if_neg fun hb => hne (hb.trans ha.symm)] at h
    obtain ⟨core, hcore, h⟩ := bind_eq_ok.mp h
    rw [if_pos ha] at h
    cases h
    exact calculateBuyPrice_pos (getCoreToAssetBuyPrice_inv hcore)
  · simp only [if_neg ha] at h
    split at h <;> obtain ⟨core, -, h⟩ := bind_eq_ok.mp h <;>
      exact calculateBuyPrice_pos (getAssetToCoreBuyPrice_inv h)

theorem executeTrade_pays (hne : a ≠ b) (hso : sold ≠ 0) (hno : ∀ aid, trader ≠ s.exchangeAddress cfg aid)
    (h : executeTrade cfg s trader recipient a b sold bought = .ok s') :
    ∃ pool, s.assets.freeOf a pool < s'.assets.freeOf a pool := by
  unfold executeTrade at h
  split at h <;> simp only [State.transfer, bind_eq_ok, mapError_eq_ok, pure_eq_ok] at h
  · obtain ⟨_, ⟨assets, hpa, rfl⟩, _, hde, rfl⟩ := h
    refine ⟨_, (freeOf_lt_of_transfer hpa hso (hno _)).trans_eq ?_⟩
    rw [(GenericAsset.transfer_inv hde).others a hne]
  · rename_i hco
    obtain ⟨_, -, _, ⟨assets, hpa, rfl⟩, _, ⟨passed, hro, rfl⟩, _, hde, rfl⟩ := h
    refine ⟨_, (freeOf_lt_of_transfer hpa hso (hno _)).trans_eq ?_⟩
    rw [(GenericAsset.transfer_inv hde).others a hne, (GenericAsset.transfer_inv hro).others a fun h => hco (Or.inl h)]

/-- An exchange that is made pays a pool. -/
theorem buyFeeAsset_pays {amt limit price : Balance} (hno : ∀ aid, trader ≠ s.exchangeAddress cfg aid)
    (h : buyFeeAsset cfg s trader amt a limit = .ok (s', price)) :
    a ≠ cfg.feeCurrency ∧ ∃ pool, s.assets.freeOf a pool < s'.assets.freeOf a pool := by
  simp only [buyFeeAsset, executeBuy, bind_eq_ok, pure_eq_ok, Prod.mk.injEq] at h
  obtain ⟨_, hpr, -, -, -, -, t, htd, rfl, rfl⟩ := h
  obtain ⟨hne, hpos⟩ := getBuyPrice_pos hpr
  exact ⟨hne.symm, executeTrade_pays hne.symm (toNat_pos.mp hpos) hno htd⟩

end Cennzx

namespace EthStateOracle

open FeePreferencesRunner (calculateTotalGas)
open GenericAsset (AssetId Balance MultiCurrency.transfer)
open Result Word

variable {A : Type} [DecidableEq A] {cfg : Config A} {env : Env A}
  {s s' : State A} {id : RequestId} {request : CallRequest} {response : CallResponse A}

/-! ### Callbacks that are not paid for -/

def SameBalances (assets assets' : GenericAsset.State A) : Prop :=
  assets'.freeOf = assets.freeOf ∧ assets'.reservedOf = assets.reservedOf

/-- The callback fails whatever the executor would do. -/
def StopsBefore (cfg : Config A) (env : Env A) (s : State A) (id : RequestId)
    (request : CallRequest) (response : CallResponse A) (s' : State A) : Prop :=
  ∃ e, ∀ execute, tryCallback cfg { env with execute := execute } s id request response = .ok (s', some e, none)

def exchanged (cfg : Config A) (env : Env A) (s : State A) (request : CallRequest) :
    Except Error (GenericAsset.State A) :=
  exchangeFee cfg env s.assets (cfg.intoAccountId request.caller) request (callbackFee env request)

def bountyPaid (cfg : Config A) (request : CallRequest) (response : CallResponse A)
    (assets : GenericAsset.State A) : Except GenericAsset.Error (GenericAsset.State A) :=
  MultiCurrency.transfer cfg.assets assets (cfg.intoAccountId request.caller) response.relayer cfg.feeCurrency
    request.bounty

/-- Nothing is attempted, the exchange fails, or the request asks for none and no bounty passes to another account. -/
def NothingSpent (cfg : Config A) (env : Env A) (s : State A) (request : CallRequest)
    (response : CallResponse A) : Prop :=
  response.returnData = .exceedsLengthLimit ∨ (exchanged cfg env s request).isOk = false ∨
    request.feePreferences = none ∧ (request.bounty = 0 ∨ cfg.intoAccountId request.caller = response.relayer ∨
      (bountyPaid cfg request response s.assets).isOk = false)

theorem stopsBefore_cases (h : StopsBefore cfg env s id request response s') :
    response.returnData = .exceedsLengthLimit ∧ s' = s ∨ (∃ e, exchanged cfg env s request = .error e ∧ s' = s) ∨
      ∃ assets, exchanged cfg env s request = .ok assets ∧
        ((∃ e, bountyPaid cfg request response assets = .error e ∧ s'.assets = assets) ∨
          bountyPaid cfg request response assets = .ok s'.assets) := by
  obtain ⟨e, h⟩ := h
  -- an executor that succeeds is one that is not run
  have hst := h fun assets _ => { assets := assets }
  unfold tryCallback at hst
  split at hst
  · rename_i hexc
    cases hst
    exact Or.inl ⟨hexc, rfl⟩
  dsimp only at hst
  split at hst
  · rename_i hex
    cases hst
    exact Or.inr (Or.inl ⟨_, hex, rfl⟩)
  rename_i assets hex
  refine Or.inr (Or.inr ⟨assets, hex, ?_⟩)
  split at hst
  · rename_i e' hbo
    cases hst
    exact Or.inl ⟨e', hbo, rfl⟩
  rename_i assets' hbo
  split at hst
  · cases hst
    exact Or.inr hbo
  · cases hst

theorem stopsBefore_of_unpaid_gas {data : BitVec 256} {assets assets' : GenericAsset.State A}
    (hda : response.returnData = .ok data) (hex : exchanged cfg env s request = .ok assets)
    (hbo : bountyPaid cfg request response assets = .ok assets')
    (hgas : ∃ e, MultiCurrency.transfer cfg.assets assets' (cfg.intoAccountId request.caller)
      (cfg.intoAccountId cfg.stateOraclePrecompileAddress) cfg.feeCurrency (callbackFee env request) = .error e) :
    StopsBefore cfg env s id request response { s with assets := assets' } := by
  obtain ⟨e, hgas⟩ := hgas
  refine ⟨.insufficientFundsGas, fun execute => ?_⟩
  unfold exchanged exchangeFee at hex
  unfold bountyPaid at hbo
  unfold callbackFee at hgas hex
  simp only [tryCallback, exchangeFee, callbackFee, hda, hex, hbo, hgas]

theorem transfer_of_nothing {assets assets' : GenericAsset.State A} {src dest : A} {n : Balance}
    {a : AssetId} (h : MultiCurrency.transfer cfg.assets assets src dest a n = .ok assets')
    (hno : n = 0 ∨ src = dest) : assets' = assets := by
  unfold MultiCurrency.transfer at h
  split_ifs at h with hamo
  · cases h
    rfl
  · obtain ⟨newFrom, newTo, -, -, -, rfl⟩ := GenericAsset.makeTransfer_eq_ok.mp h
    exact if_pos (hno.resolve_left hamo)

theorem exchange_pays {p : FeePreferences} {assets : GenericAsset.State A} (hp : request.feePreferences = some p)
    (hno : ∀ aid, cfg.intoAccountId request.caller ≠ cfg.exchangeAddressFor env.exchange.coreAssetId aid)
    (hex : exchanged cfg env s request = .ok assets) :
    p.assetId ≠ cfg.feeCurrency ∧ ∃ pool, s.assets.freeOf p.assetId pool < assets.freeOf p.assetId pool := by
  simp only [exchanged, exchangeFee, hp, bind_eq_ok, mapError_eq_ok, pure_eq_ok] at hex
  obtain ⟨⟨t, price⟩, hbuy, rfl⟩ := hex
  exact Cennzx.buyFeeAsset_pays hno hbuy

theorem exchanged_of_none {assets : GenericAsset.State A} (hn : request.feePreferences = none)
    (hex : exchanged cfg env s request = .ok assets) : s.assets = assets := by
  rw [exchanged, exchangeFee, hn] at hex
  exact Except.ok.inj hex

section
variable (h : StopsBefore cfg env s id request response s')
include h

theorem sameBalances_of_nothingSpent (hno : NothingSpent cfg env s request response) :
    SameBalances s.assets s'.assets := by
  rcases stopsBefore_cases h with ⟨-, rfl⟩ | ⟨e, -, rfl⟩ | ⟨assets, hex, hbo⟩
  · exact ⟨rfl, rfl⟩
  · exact ⟨rfl, rfl⟩
  rcases hno with hexc | hfa | ⟨hn, hno⟩
  · obtain ⟨e, h⟩ := h
    have hst := h fun assets _ => { assets := assets }
    rw [tryCallback, hexc] at hst
    cases hst
    exact ⟨rfl, rfl⟩
  · rw [hex] at hfa
    cases hfa
  obtain rfl := exchanged_of_none hn hex
  suffices hss : s'.assets = s.assets by rw [hss]; exact ⟨rfl, rfl⟩
  rcases hbo with ⟨e, -, hl⟩ | hp
  · exact hl
  rcases hno with hz | hself | hfa
  · exact transfer_of_nothing hp (Or.inl hz)
  · exact transfer_of_nothing hp (Or.inr hself)
  · rw [hp] at hfa
    cases hfa

theorem nothingSpent_of_sameBalances (hs : SameBalances s.assets s'.assets)
    (hpool : ∀ aid, cfg.intoAccountId request.caller ≠ cfg.exchangeAddressFor env.exchange.coreAssetId aid) :
    NothingSpent cfg env s request response := by
  rcases stopsBefore_cases h with ⟨hexc, -⟩ | ⟨e, hex, -⟩ | ⟨assets, hex, hbo⟩
  · exact Or.inl hexc
  · exact Or.inr (Or.inl (by rw [hex]; rfl))
  cases hn : request.feePreferences with
  | some p =>
    -- the pool keeps what it was paid: the bounty is in another asset
    obtain ⟨hne, pool, hlt⟩ := exchange_pays hn hpool hex
    have hkept : s'.assets.freeOf p.assetId = assets.freeOf p.assetId := by
      rcases hbo with ⟨e, -, hl⟩ | hp
      · rw [hl]
      · exact (GenericAsset.transfer_inv hp).others _ hne
    rw [← hkept, hs.1] at hlt
    exact absurd hlt (Nat.lt_irrefl _)
  | none =>
    obtain rfl := exchanged_of_none hn hex
    refine Or.inr (Or.inr ⟨hn, ?_⟩)
    rcases hbo with ⟨e, hfa, -⟩ | hp
    · exact Or.inr (Or.inr (by rw [hfa]; rfl))
    -- a bounty that is paid to another is in the balance of the relayer
    by_contra hspe
    obtain ⟨hamo, hne, -⟩ := not_or.mp hspe |>.imp_right not_or.mp
    have hga := Cennzx.freeOf_lt_of_transfer hp hamo hne
    rw [hs.1] at hga
    exact Nat.lt_irrefl _ hga

end

def paidResponse : CallResponse Nat := { returnData := .ok 7, ethBlockNumber := 20, ethBlockTimestamp := 100, relayer := 1 }

def pricedRequest (bounty : Balance) : CallRequest where
  destination := 60
  caller := 3
  callbackGasLimit := 1000
  callbackSignature := [1, 2, 3, 4]
  feePreferences := none
  bounty := bounty
  timestamp := 100
  expiryBlock := 5
  inputData := []

def pricedEnv : Env Nat := { sampleEnv with minGasPrice := 10000000000000 }

def bountyTransferred : State Nat :=
  { sampleGenesis with
    assets := Result.getD (bountyPaid sampleConfig (pricedRequest 5) paidResponse sampleGenesis.assets) sampleGenesis.assets }

theorem toNat_setWidth_256 (n : BitVec 64) : (n.setWidth 256).toNat = n.toNat :=
  BitVec.toNat_setWidth_of_le (by decide)

omit [DecidableEq A] in
/-- The payment for the gas covers what the runner charges exactly if nothing is charged, or the priority fee fits in
the unit that the fee without it is rounded up to. -/
theorem callbackFee_covers_iff (env : Env A) (request : CallRequest) : ∃ fee : Balance,
      fee.toNat = (env.minGasPrice.toNat + 1) * request.callbackGasLimit.toNat ∧
      calculateTotalGas (env.minGasPrice.setWidth 256) request.callbackGasLimit (some (env.minGasPrice.setWidth 256))
        (some 1) = .ok fee ∧
      ((scaleWeiTo4dp fee).toNat ≤ (callbackFee env request).toNat ↔ request.callbackGasLimit = 0 ∨
          env.minGasPrice.toNat * request.callbackGasLimit.toNat % 10 ^ 14 + request.callbackGasLimit.toNat ≤ 10 ^ 14) := by
  set p := env.minGasPrice with hpr
  set gas := request.callbackGasLimit with hgas
  have hba : (p.toNat + 1) * gas.toNat < 2 ^ 128 :=
    Nat.lt_of_le_of_lt (Nat.mul_le_mul_right _ p.isLt) (Nat.mul_lt_mul_of_pos_left gas.isLt (by decide))
  have hsp : (p.toNat + 1) * gas.toNat = p.toNat * gas.toNat + gas.toNat := Nat.succ_mul _ _
  obtain ⟨fee, hfee⟩ := exists_toNat_eq hba
  refine ⟨fee, hfee, ?_, ?_⟩
  · obtain ⟨base, hba⟩ := exists_toNat_eq (w := 256) (n := p.toNat * gas.toNat) (by omega)
    obtain ⟨total, htot⟩ := exists_toNat_eq (w := 256) (n := p.toNat * gas.toNat + gas.toNat) (by omega)
    simp only [calculateTotalGas, bind_eq_ok, ensure_eq_ok, okOr_eq_ok, pure_eq_ok, checkedMul_eq_some,
      checkedAdd_eq_some]
    refine ⟨(), Nat.le_refl _, p.setWidth 256, rfl, base, ?_, gas.setWidth 256, ?_, total, ?_, ?_⟩
    · rw [toNat_setWidth_256, toNat_setWidth_256, hba]
    · exact Nat.one_mul _
    · rw [toNat_setWidth_256, hba, htot]
    · apply BitVec.eq_of_toNat_eq
      rw [toNat_saturatedInto, htot, hfee]
      omega
  · have hr : p.toNat * gas.toNat + 1 ≤ 2 ^ 128 - 1 := by
      have hle : p.toNat * gas.toNat ≤ (2 ^ 64 - 1) * (2 ^ 64 - 1) :=
        Nat.mul_le_mul (Nat.le_pred_of_lt p.isLt) (Nat.le_pred_of_lt gas.isLt)
      omega
    have hsum : (p.setWidth 256 * gas.setWidth 256 + 1).toNat = p.toNat * gas.toNat + 1 := by
      rw [BitVec.toNat_add, BitVec.toNat_mul, toNat_setWidth_256, toNat_setWidth_256]
      have hone : (1 : BitVec 256).toNat = 1 := rfl
      omega
    rw [callbackFee, EvmCurrencyScaler.toNat_scaleWeiTo4dp, EvmCurrencyScaler.toNat_scaleWeiTo4dp,
      toNat_saturatedInto, hsum, Nat.min_eq_left hr, Rounding.up_succ (by decide),
      Rounding.up_le_iff (by decide), hfee, hsp, ← toNat_eq_zero]
    have hun := Nat.div_add_mod (p.toNat * gas.toNat) (10 ^ 14)
    have hre := Nat.mod_lt (p.toNat * gas.toNat) (show 0 < 10 ^ 14 by decide)
    omega

theorem callbackFee_short :
    calculateTotalGas 33333333333333 3 (some 33333333333333) (some 1) = .ok 100000000000002 ∧
      scaleWeiTo4dp 100000000000002 = 2 ∧
      callbackFee { sampleEnv with minGasPrice := 33333333333333 } { pricedRequest 0 with callbackGasLimit := 3 } = 1 := by
  decide

end EthStateOracle
