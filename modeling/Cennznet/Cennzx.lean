import Cennznet.GenericAsset
import Cennznet.Lib.Result

/-! # The spot exchange

`crml/cennzx`: one pool for each trade asset, with that asset and the core asset on an account of its own. Balances are
`u128`, so a conversion to `LowPrecisionUnsigned` is the identity; prices are computed with 256 bits. Events and
weights are left out. -/

namespace Cennzx

open GenericAsset (AssetId Balance)
open Result

abbrev LowPrecisionUnsigned := BitVec 128
abbrev HighPrecisionUnsigned := BitVec 256

/-- The core and the trade asset of a pool. -/
abbrev ExchangeKey := AssetId × AssetId

inductive Error where
  | emptyExchangePool
  | insufficientExchangePoolReserve
  | insufficientBalance
  | insufficientLiquidity
  | insufficientTradeAssetBalance
  | insufficientCoreAssetBalance
  | cannotTradeZero
  | cannotAddLiquidityWithZero
  | minimumBuyRequirementNotMet
  | maximumSellRequirementNotMet
  | minimumTradeAssetRequirementNotMet
  | minimumCoreAssetRequirementNotMet
  | minimumLiquidityRequirementNotMet
  | maximumTradeAssetRequirementNotMet
  | assetCannotSwapForItself
  | overflow
  | divideByZero
  | currency (e : GenericAsset.Error)
deriving DecidableEq, Repr

/-! ### Fee rates -/

def perMillion : LowPrecisionUnsigned := 1000000

structure FeeRate (scale : LowPrecisionUnsigned) where
  inner : LowPrecisionUnsigned
deriving DecidableEq, Repr

namespace FeeRate

variable {scale : LowPrecisionUnsigned}

def one : FeeRate scale := ⟨scale⟩

def tryFrom (h : HighPrecisionUnsigned) : Option (FeeRate scale) := (Word.tryFrom 128 h).map FeeRate.mk

def checkedDiv (r d : FeeRate scale) : Option (FeeRate scale) :=
  (Word.checkedDiv (Word.saturatingMul (r.inner.setWidth 256) (scale.setWidth 256)) (d.inner.setWidth 256)).bind tryFrom

def checkedMul (r m : FeeRate scale) : Option (FeeRate scale) :=
  (Word.checkedDiv (Word.saturatingMul (r.inner.setWidth 256) (m.inner.setWidth 256)) (scale.setWidth 256)).bind tryFrom

def checkedAdd (r a : FeeRate scale) : Option (FeeRate scale) := (Word.checkedAdd r.inner a.inner).map FeeRate.mk

end FeeRate

/-! ### State -/

structure Config (AccountId : Type) where
  assets : GenericAsset.Config AccountId
  /-- `ExchangeAddressFor`, a hash of the two assets. -/
  exchangeAddressFor : AssetId → AssetId → AccountId
  feeCurrency : AssetId

structure State (AccountId : Type) where
  assets : GenericAsset.State AccountId
  coreAssetId : AssetId
  defaultFeeRate : FeeRate perMillion
  totalLiquidity : StorageMap ExchangeKey Balance
  liquidityBalance : StorageMap (ExchangeKey × AccountId) Balance

structure LiquidityValue where
  liquidity : Balance
  core : Balance
  asset : Balance
deriving DecidableEq, Repr

structure LiquidityPrice where
  core : Balance
  asset : Balance
deriving DecidableEq, Repr

variable {AccountId : Type}

def State.genesis (assets : GenericAsset.State AccountId) (coreAssetId : AssetId) (feeRate : FeeRate perMillion) :
    State AccountId where
  assets := assets
  coreAssetId := coreAssetId
  defaultFeeRate := feeRate
  totalLiquidity := ∅
  liquidityBalance := ∅

def State.exchangeAddress (cfg : Config AccountId) (s : State AccountId) (assetId : AssetId) : AccountId :=
  cfg.exchangeAddressFor s.coreAssetId assetId

variable [DecidableEq AccountId]

def State.transfer (cfg : Config AccountId) (s : State AccountId) (transactor dest : AccountId) (currency : AssetId)
    (value : Balance) : Except Error (State AccountId) := do
  let assets ← (GenericAsset.MultiCurrency.transfer cfg.assets s.assets transactor dest currency value).mapError .currency
  return { s with assets := assets }

variable (cfg : Config AccountId) (s : State AccountId)

def getExchangeReserves (assetId : AssetId) : Balance × Balance :=
  let exchangeAddress := s.exchangeAddress cfg assetId
  (s.assets.free s.coreAssetId exchangeAddress, s.assets.free assetId exchangeAddress)

/-! ### Liquidity -/

def mintLiquidity (exchangeKey : ExchangeKey) (who : AccountId) (increase : Balance) : State AccountId :=
  let newBalance := Word.saturatingAdd (s.liquidityBalance.getD (exchangeKey, who) 0) increase
  let newTotal := Word.saturatingAdd (s.totalLiquidity.getD exchangeKey 0) increase
  { s with
    liquidityBalance := s.liquidityBalance.insert (exchangeKey, who) newBalance
    totalLiquidity := s.totalLiquidity.insert exchangeKey newTotal }

def burnLiquidity (exchangeKey : ExchangeKey) (who : AccountId) (decrease : Balance) : State AccountId :=
  let balance := s.liquidityBalance.getD (exchangeKey, who) 0
  let decrease := if decrease.toNat ≤ balance.toNat then decrease else balance
  let newTotal := Word.saturatingSub (s.totalLiquidity.getD exchangeKey 0) decrease
  { s with
    liquidityBalance := s.liquidityBalance.insert (exchangeKey, who) (balance - decrease)
    totalLiquidity := s.totalLiquidity.insert exchangeKey newTotal }

def liquidityPrice (assetId : AssetId) (liquidityToBuy : Balance) : LiquidityPrice :=
  let totalLiquidity := s.totalLiquidity.getD (s.coreAssetId, assetId) 0
  let (coreReserve, assetReserve) := getExchangeReserves cfg s assetId
  if totalLiquidity = 0 ∨ coreReserve = 0 then ⟨liquidityToBuy, 1⟩
  else
    let coreAmount := liquidityToBuy * coreReserve / totalLiquidity
    ⟨coreAmount, coreAmount * assetReserve / coreReserve + 1⟩

def calculateLiquidityValue (assetReserve coreReserve liquidityToWithdraw totalLiquidity : Balance) : LiquidityValue :=
  if totalLiquidity = 0 then ⟨0, 0, 0⟩
  else
    let liquidityAmount := if liquidityToWithdraw.toNat ≤ totalLiquidity.toNat then liquidityToWithdraw else totalLiquidity
    ⟨liquidityAmount, liquidityAmount * coreReserve / totalLiquidity, liquidityAmount * assetReserve / totalLiquidity⟩

def liquidityValue (assetId : AssetId) (liquidityToWithdraw : Balance) : LiquidityValue :=
  let totalLiquidity := s.totalLiquidity.getD (s.coreAssetId, assetId) 0
  let (coreReserve, assetReserve) := getExchangeReserves cfg s assetId
  calculateLiquidityValue assetReserve coreReserve liquidityToWithdraw totalLiquidity

/-- The trade asset to add to `coreAmount` and the liquidity minted; the first provider chooses the ratio. -/
def depositTerms (assetId : AssetId) (maxAssetAmount coreAmount : Balance) : Balance × Balance :=
  let totalLiquidity := s.totalLiquidity.getD (s.coreAssetId, assetId) 0
  let (coreAssetReserve, tradeAssetReserve) := getExchangeReserves cfg s assetId
  if totalLiquidity = 0 ∨ coreAssetReserve = 0 then (maxAssetAmount, coreAmount)
  else (coreAmount * tradeAssetReserve / coreAssetReserve + 1, coreAmount * totalLiquidity / coreAssetReserve)

def addLiquidity (fromAccount : AccountId) (assetId : AssetId) (minLiquidity maxAssetAmount coreAmount : Balance) :
    Except Error (State AccountId) := do
  ensure (maxAssetAmount ≠ 0 ∧ coreAmount ≠ 0) .cannotAddLiquidityWithZero
  ensure (coreAmount.toNat ≤ (s.assets.free s.coreAssetId fromAccount).toNat) .insufficientCoreAssetBalance
  ensure (maxAssetAmount.toNat ≤ (s.assets.free assetId fromAccount).toNat) .insufficientTradeAssetBalance
  let (tradeAssetAmount, liquidityMinted) := depositTerms cfg s assetId maxAssetAmount coreAmount
  ensure (minLiquidity.toNat ≤ liquidityMinted.toNat) .minimumLiquidityRequirementNotMet
  ensure (tradeAssetAmount.toNat ≤ maxAssetAmount.toNat) .maximumTradeAssetRequirementNotMet
  let exchangeAddress := s.exchangeAddress cfg assetId
  let s ← s.transfer cfg fromAccount exchangeAddress s.coreAssetId coreAmount
  let s ← s.transfer cfg fromAccount exchangeAddress assetId tradeAssetAmount
  return mintLiquidity s (s.coreAssetId, assetId) fromAccount liquidityMinted

def removeLiquidity (fromAccount : AccountId) (assetId : AssetId)
    (liquidityToWithdraw minAssetWithdraw minCoreWithdraw : Balance) : Except Error (State AccountId) := do
  let exchangeKey := (s.coreAssetId, assetId)
  let accountLiquidity := s.liquidityBalance.getD (exchangeKey, fromAccount) 0
  ensure (liquidityToWithdraw.toNat ≤ accountLiquidity.toNat) .insufficientLiquidity
  let withdrawValue := liquidityValue cfg s assetId liquidityToWithdraw
  ensure (0 < (s.totalLiquidity.getD exchangeKey 0).toNat) .emptyExchangePool
  ensure (minCoreWithdraw.toNat ≤ withdrawValue.core.toNat) .minimumCoreAssetRequirementNotMet
  ensure (minAssetWithdraw.toNat ≤ withdrawValue.asset.toNat) .minimumTradeAssetRequirementNotMet
  let exchangeAddress := s.exchangeAddress cfg assetId
  let s ← s.transfer cfg exchangeAddress fromAccount s.coreAssetId withdrawValue.core
  let s ← s.transfer cfg exchangeAddress fromAccount assetId withdrawValue.asset
  return burnLiquidity s exchangeKey fromAccount liquidityToWithdraw

/-! ### Prices -/

def calculateBuyPrice (feeRate : FeeRate perMillion) (buyAmount sellReserve buyReserve : Balance) :
    Except Error Balance := do
  ensure (sellReserve ≠ 0 ∧ buyReserve ≠ 0) .emptyExchangePool
  ensure (buyAmount.toNat < buyReserve.toNat) .insufficientExchangePoolReserve
  let buyAmountHp : HighPrecisionUnsigned := buyAmount.setWidth 256
  let buyReserveHp : HighPrecisionUnsigned := buyReserve.setWidth 256
  let sellReserveHp : HighPrecisionUnsigned := sellReserve.setWidth 256
  let denominatorHp := buyReserveHp - buyAmountHp
  let priceHp ← okOr (Word.checkedDiv (Word.saturatingMul sellReserveHp buyAmountHp) denominatorHp) .divideByZero
  let priceLp ← okOr (Word.tryFrom 128 priceHp) .overflow
  let pricePlusOne ← okOr (Word.checkedAdd priceLp 1) .overflow
  let feeRatePlusOne ← okOr (feeRate.checkedAdd .one) .overflow
  let output ← okOr (feeRatePlusOne.checkedMul ⟨pricePlusOne⟩) .overflow
  return output.inner

def calculateSellPrice (feeRate : FeeRate perMillion) (sellAmount sellReserve buyReserve : Balance) :
    Except Error Balance := do
  ensure (sellReserve ≠ 0 ∧ buyReserve ≠ 0) .emptyExchangePool
  let divRate ← okOr (feeRate.checkedAdd .one) .overflow
  let sellAmountScaled ← okOr (FeeRate.checkedDiv ⟨sellAmount⟩ divRate) .divideByZero
  let sellReserveHp : HighPrecisionUnsigned := sellReserve.setWidth 256
  let buyReserveHp : HighPrecisionUnsigned := buyReserve.setWidth 256
  let sellAmountScaledHp : HighPrecisionUnsigned := sellAmountScaled.inner.setWidth 256
  let denominatorHp := sellAmountScaledHp + sellReserveHp
  let priceHp ← okOr (Word.checkedDiv (Word.saturatingMul buyReserveHp sellAmountScaledHp) denominatorHp) .divideByZero
  let price ← okOr (Word.tryFrom 128 priceHp) .overflow
  ensure (price.toNat < buyReserve.toNat) .insufficientExchangePoolReserve
  return price

def getAssetToCoreBuyPrice (assetId : AssetId) (buyAmount : Balance) : Except Error Balance := do
  ensure (0 < buyAmount.toNat) .cannotTradeZero
  let (coreReserve, assetReserve) := getExchangeReserves cfg s assetId
  calculateBuyPrice s.defaultFeeRate buyAmount assetReserve coreReserve

def getCoreToAssetBuyPrice (assetId : AssetId) (buyAmount : Balance) : Except Error Balance := do
  ensure (0 < buyAmount.toNat) .cannotTradeZero
  let (coreReserve, assetReserve) := getExchangeReserves cfg s assetId
  calculateBuyPrice s.defaultFeeRate buyAmount coreReserve assetReserve

def getBuyPrice (assetToBuy : AssetId) (amountToBuy : Balance) (assetToPay : AssetId) : Except Error Balance := do
  ensure (assetToBuy ≠ assetToPay) .assetCannotSwapForItself
  let coreAssetAmount ←
    if assetToBuy = s.coreAssetId then pure amountToBuy else getCoreToAssetBuyPrice cfg s assetToBuy amountToBuy
  if assetToPay = s.coreAssetId then pure coreAssetAmount else getAssetToCoreBuyPrice cfg s assetToPay coreAssetAmount

def getAssetToCoreSellPrice (assetId : AssetId) (sellAmount : Balance) : Except Error Balance := do
  ensure (0 < sellAmount.toNat) .cannotTradeZero
  let (coreReserve, assetReserve) := getExchangeReserves cfg s assetId
  calculateSellPrice s.defaultFeeRate sellAmount assetReserve coreReserve

def getCoreToAssetSellPrice (assetId : AssetId) (sellAmount : Balance) : Except Error Balance := do
  ensure (0 < sellAmount.toNat) .cannotTradeZero
  let (coreReserve, assetReserve) := getExchangeReserves cfg s assetId
  calculateSellPrice s.defaultFeeRate sellAmount coreReserve assetReserve

def getSellPrice (assetToSell : AssetId) (amountToSell : Balance) (assetToPayout : AssetId) : Except Error Balance := do
  ensure (assetToSell ≠ assetToPayout) .assetCannotSwapForItself
  let coreAssetAmount ←
    if assetToSell = s.coreAssetId then pure amountToSell else getAssetToCoreSellPrice cfg s assetToSell amountToSell
  if assetToPayout = s.coreAssetId then pure coreAssetAmount
  else getCoreToAssetSellPrice cfg s assetToPayout coreAssetAmount

/-! ### Trades -/

/-- Moves the funds of a trade. The core between two pools is priced anew, as a sale of `amountToSell`. -/
def executeTrade (trader recipient : AccountId) (assetToSell assetToBuy : AssetId)
    (amountToSell amountToBuy : Balance) : Except Error (State AccountId) :=
  -- the source runs every transfer and returns the first error; the transaction then undoes them all
  if assetToSell = s.coreAssetId ∨ assetToBuy = s.coreAssetId then do
    let exchangeAddress := s.exchangeAddress cfg (if assetToBuy = s.coreAssetId then assetToSell else assetToBuy)
    let s ← s.transfer cfg trader exchangeAddress assetToSell amountToSell
    s.transfer cfg exchangeAddress recipient assetToBuy amountToBuy
  else do
    let exchangeAddressA := s.exchangeAddress cfg assetToSell
    let exchangeAddressB := s.exchangeAddress cfg assetToBuy
    let coreAmount ← getAssetToCoreSellPrice cfg s assetToSell amountToSell
    let s ← s.transfer cfg trader exchangeAddressA assetToSell amountToSell
    let s ← s.transfer cfg exchangeAddressA exchangeAddressB s.coreAssetId coreAmount
    s.transfer cfg exchangeAddressB recipient assetToBuy amountToBuy

def executeBuy (trader recipient : AccountId) (assetToSell assetToBuy : AssetId) (amountToBuy maximumSell : Balance) :
    Except Error (State AccountId × Balance) := do
  let amountToSell ← getBuyPrice cfg s assetToBuy amountToBuy assetToSell
  ensure (amountToSell.toNat ≤ maximumSell.toNat) .maximumSellRequirementNotMet
  ensure (amountToSell.toNat ≤ (s.assets.free assetToSell trader).toNat) .insufficientBalance
  let s ← executeTrade cfg s trader recipient assetToSell assetToBuy amountToSell amountToBuy
  return (s, amountToSell)

def executeSell (trader recipient : AccountId) (assetToSell assetToBuy : AssetId) (amountToSell minimumBuy : Balance) :
    Except Error (State AccountId × Balance) := do
  ensure (amountToSell.toNat ≤ (s.assets.free assetToSell trader).toNat) .insufficientBalance
  let amountToBuy ← getSellPrice cfg s assetToSell amountToSell assetToBuy
  ensure (minimumBuy.toNat ≤ amountToBuy.toNat) .minimumBuyRequirementNotMet
  let s ← executeTrade cfg s trader recipient assetToSell assetToBuy amountToSell amountToBuy
  return (s, amountToBuy)

/-! ### Trades step by step

`execute_trade` runs all its transfers, also after one of them has failed, and being transactional it is undone if one
has. -/

/-- A transfer that fails leaves the state as it was. -/
def State.tryTransfer (transactor dest : AccountId) (currency : AssetId) (value : Balance) :
    State AccountId × Except Error Unit :=
  match s.transfer cfg transactor dest currency value with
  | .ok s => (s, .ok ())
  | .error e => (s, .error e)

/-- `Result::and`: its argument has been evaluated in any case. -/
def andThen (r r' : Except Error Unit) : Except Error Unit :=
  match r with
  | .ok () => r'
  | .error e => .error e

/-- `#[transactional]`: an error undoes what was written. -/
def transactional (r : State AccountId × Except Error Unit) : State AccountId × Except Error Unit :=
  match r with
  | (s', .ok ()) => (s', .ok ())
  | (_, .error e) => (s, .error e)

def tradeTransfers (trader recipient : AccountId) (assetToSell assetToBuy : AssetId)
    (amountToSell amountToBuy : Balance) : State AccountId × Except Error Unit :=
  if assetToSell = s.coreAssetId ∨ assetToBuy = s.coreAssetId then
    let exchangeAddress := s.exchangeAddress cfg (if assetToBuy = s.coreAssetId then assetToSell else assetToBuy)
    let (s₁, r₁) := s.tryTransfer cfg trader exchangeAddress assetToSell amountToSell
    let (s₂, r₂) := s₁.tryTransfer cfg exchangeAddress recipient assetToBuy amountToBuy
    (s₂, andThen r₁ r₂)
  else
    let exchangeAddressA := s.exchangeAddress cfg assetToSell
    let exchangeAddressB := s.exchangeAddress cfg assetToBuy
    match getAssetToCoreSellPrice cfg s assetToSell amountToSell with
    | .error e => (s, .error e)
    | .ok coreAmount =>
      let (s₁, r₁) := s.tryTransfer cfg trader exchangeAddressA assetToSell amountToSell
      let (s₂, r₂) := s₁.tryTransfer cfg exchangeAddressA exchangeAddressB s.coreAssetId coreAmount
      let (s₃, r₃) := s₂.tryTransfer cfg exchangeAddressB recipient assetToBuy amountToBuy
      (s₃, andThen (andThen r₁ r₂) r₃)

def runBuy (trader recipient : AccountId) (assetToSell assetToBuy : AssetId) (amountToBuy maximumSell : Balance) :
    State AccountId × Except Error Balance :=
  match getBuyPrice cfg s assetToBuy amountToBuy assetToSell with
  | .error e => (s, .error e)
  | .ok amountToSell =>
    if maximumSell.toNat < amountToSell.toNat then (s, .error .maximumSellRequirementNotMet)
    else if (s.assets.free assetToSell trader).toNat < amountToSell.toNat then (s, .error .insufficientBalance)
    else
      match transactional s (tradeTransfers cfg s trader recipient assetToSell assetToBuy amountToSell amountToBuy) with
      | (s, .ok ()) => (s, .ok amountToSell)
      | (s, .error e) => (s, .error e)

def runSell (trader recipient : AccountId) (assetToSell assetToBuy : AssetId) (amountToSell minimumBuy : Balance) :
    State AccountId × Except Error Balance :=
  if (s.assets.free assetToSell trader).toNat < amountToSell.toNat then (s, .error .insufficientBalance)
  else
    match getSellPrice cfg s assetToSell amountToSell assetToBuy with
    | .error e => (s, .error e)
    | .ok amountToBuy =>
      if amountToBuy.toNat < minimumBuy.toNat then (s, .error .minimumBuyRequirementNotMet)
      else
        match transactional s (tradeTransfers cfg s trader recipient assetToSell assetToBuy amountToSell amountToBuy) with
        | (s, .ok ()) => (s, .ok amountToBuy)
        | (s, .error e) => (s, .error e)

/-- `BuyFeeAsset::buy_fee_asset`, with the asset and limit of the fee exchange. -/
def buyFeeAsset (who : AccountId) (amount : Balance) (exchangeAssetId : AssetId) (maxPayment : Balance) :
    Except Error (State AccountId × Balance) :=
  executeBuy cfg s who who exchangeAssetId cfg.feeCurrency amount maxPayment

/-! ### Calls -/

/-- The calls of the pallet. A signed call names its signer. -/
inductive Call (AccountId : Type) where
  | buyAsset (trader : AccountId) (recipient : Option AccountId) (assetToSell assetToBuy : AssetId)
      (buyAmount maximumSell : Balance)
  | sellAsset (trader : AccountId) (recipient : Option AccountId) (assetToSell assetToBuy : AssetId)
      (sellAmount minimumBuy : Balance)
  | addLiquidity (fromAccount : AccountId) (assetId : AssetId) (minLiquidity maxAssetAmount coreAmount : Balance)
  | removeLiquidity (fromAccount : AccountId) (assetId : AssetId)
      (liquidityToWithdraw minAssetWithdraw minCoreWithdraw : Balance)
  | setFeeRate (newFeeRate : FeeRate perMillion)

def dispatch : Call AccountId → Except Error (State AccountId)
  | .buyAsset trader recipient assetToSell assetToBuy buyAmount maximumSell =>
    Prod.fst <$> executeBuy cfg s trader (recipient.getD trader) assetToSell assetToBuy buyAmount maximumSell
  | .sellAsset trader recipient assetToSell assetToBuy sellAmount minimumBuy =>
    Prod.fst <$> executeSell cfg s trader (recipient.getD trader) assetToSell assetToBuy sellAmount minimumBuy
  | .addLiquidity fromAccount assetId minLiquidity maxAssetAmount coreAmount =>
    addLiquidity cfg s fromAccount assetId minLiquidity maxAssetAmount coreAmount
  | .removeLiquidity fromAccount assetId liquidityToWithdraw minAssetWithdraw minCoreWithdraw =>
    removeLiquidity cfg s fromAccount assetId liquidityToWithdraw minAssetWithdraw minCoreWithdraw
  | .setFeeRate newFeeRate => .ok { s with defaultFeeRate := newFeeRate }

/-- A call that fails changes nothing: those that write more than once are transactional. -/
def step (call : Call AccountId) : State AccountId :=
  match dispatch cfg s call with
  | .ok s => s
  | .error _ => s

end Cennzx
