import Cennznet.EthStateOracle

/-! # The currency of the EVM

`runtime/src/impls.rs`: the EVM counts in wei, with 18 decimals, and the spending asset (CPAY) has four.
`EvmCurrencyScaler` rounds the amounts of the EVM up to whole units, and scales balances up to wei. -/

namespace EvmCurrencyScaler

open EthStateOracle (scaleWeiTo4dp cpayUnitValue)
open GenericAsset (AssetId Balance Error NegativeImbalance PositiveImbalance State WithdrawConsequence WithdrawReasons)

structure Config (AccountId : Type) where
  assets : GenericAsset.Config AccountId
  spendingAssetId : AssetId

variable {AccountId : Type} [DecidableEq AccountId] (cfg : Config AccountId) (s : State AccountId)

def reducibleBalance (who : AccountId) (keepAlive : Bool) : Balance :=
  let raw := GenericAsset.AssetCurrency.reducibleBalance s cfg.spendingAssetId who keepAlive
  Word.saturatedInto 128 (Word.saturatingMul (raw.setWidth 256) (cpayUnitValue.setWidth 256))

def balance (who : AccountId) : Balance := reducibleBalance cfg s who true

/-- The amount is passed on as it is. -/
def canWithdraw (who : AccountId) (amount : Balance) : WithdrawConsequence :=
  GenericAsset.AssetCurrency.canWithdraw s cfg.spendingAssetId who amount

def withdraw (who : AccountId) (value : Balance) (reasons : WithdrawReasons) :
    Except Error (State AccountId × NegativeImbalance) :=
  GenericAsset.AssetCurrency.withdraw cfg.assets s cfg.spendingAssetId who (scaleWeiTo4dp value) reasons

def depositIntoExisting (who : AccountId) (value : Balance) : Except Error (State AccountId × PositiveImbalance) :=
  GenericAsset.AssetCurrency.depositIntoExisting s cfg.spendingAssetId who (scaleWeiTo4dp value)

end EvmCurrencyScaler
