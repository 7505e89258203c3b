import Cennznet.Nft
import Cennznet.EthBridge

/-! # Addresses and precompiles of the EVM

`runtime/src/precompiles.rs`, with the sets of `evm-precompiles/erc20` and `evm-precompiles/erc721` that it routes to,
and the mapping of addresses to accounts of `crml/support`. The sets are told apart by whether and where they route a
call. -/

namespace Precompiles

open EthBridge (EthAddress)
open GenericAsset (AssetId)
open Nft (CollectionId SeriesKey)

abbrev AccountId := BitVec 256

namespace PrefixedAddressMapping

/-- `cvm:` and seven zero bytes. -/
def accountPrefix : BitVec 88 := 0x63766d3a00000000000000

/-- The bytes of a word, most significant first. -/
def bytes (n : Nat) (x : BitVec (8 * n)) : List (BitVec 8) :=
  (List.range n).map fun i => x.extractLsb' (8 * (n - 1 - i)) 8

def intoAccountId (address : EthAddress) : AccountId :=
  let rawAccount := accountPrefix ++ address
  rawAccount ++ (bytes 31 rawAccount).foldl (· ^^^ ·) 0

def fromAccountId (account : AccountId) : EthAddress :=
  if account.extractLsb' 168 88 = accountPrefix then account.extractLsb' 8 160
  else if account = 0 then 0
  else (0x6372743a : BitVec 32) ++ 0#128

end PrefixedAddressMapping

/-! ### Ids -/

def erc20PrecompileAddressPrefix : BitVec 32 := 0xCCCCCCCC

def erc721PrecompileAddressPrefix : BitVec 32 := 0xAAAAAAAA

def routingPrefix (address : EthAddress) : BitVec 32 := address.extractLsb' 128 32

namespace Erc20IdConversion

def evmIdToRuntimeId (address : EthAddress) : Option AssetId :=
  if routingPrefix address = erc20PrecompileAddressPrefix then some (address.extractLsb' 96 32) else none

def runtimeIdToEvmId (assetId : AssetId) : EthAddress := erc20PrecompileAddressPrefix ++ assetId ++ 0#96

end Erc20IdConversion

namespace Erc721IdConversion

def evmIdToRuntimeId (address : EthAddress) : Option SeriesKey :=
  if routingPrefix address = erc721PrecompileAddressPrefix then
    some (address.extractLsb' 96 32, address.extractLsb' 64 32)
  else none

def runtimeIdToEvmId (key : SeriesKey) : EthAddress := erc721PrecompileAddressPrefix ++ key.1 ++ key.2 ++ 0#64

end Erc721IdConversion

/-! ### Sets -/

/-- What the sets read of the chain. -/
structure ChainState where
  assets : GenericAsset.State AccountId
  nft : Nft.State AccountId
  stateOracleIsActive : Bool

/-- The precompile that answers a call. -/
inductive Precompile where
  | ecRecover
  | sha256
  | ripemd160
  | identity
  | modexp
  | blake2F
  | sha3FIPS256
  | ecRecoverPublicKey
  | stateOracle
  | erc20Peg
  | nft
  | cennzx
  | erc20 (assetId : AssetId)
  | erc721 (key : SeriesKey)
  /-- `cannot be called with DELEGATECALL or CALLCODE` -/
  | refused

namespace Erc20PrecompileSet

def execute (c : ChainState) (address : EthAddress) : Option Precompile := do
  let assetId ← Erc20IdConversion.evmIdToRuntimeId address
  if c.assets.issuanceOf assetId ≠ 0 then some (.erc20 assetId) else none

def isPrecompile (c : ChainState) (address : EthAddress) : Bool :=
  match Erc20IdConversion.evmIdToRuntimeId address with
  | some assetId => c.assets.issuanceOf assetId ≠ 0
  | none => false

def balanceOf {AccountId : Type} [DecidableEq AccountId] (stakingAssetId : AssetId) (s : GenericAsset.State AccountId)
    (assetId : AssetId) (owner : AccountId) : GenericAsset.Balance :=
  if assetId = stakingAssetId then (GenericAsset.getAllBalances s owner assetId).available else s.free assetId owner

end Erc20PrecompileSet

namespace Erc721PrecompileSet

/-- The name of a collection is empty as long as there is none. -/
def execute (c : ChainState) (address : EthAddress) : Option Precompile := do
  let key ← Erc721IdConversion.evmIdToRuntimeId address
  if c.nft.collectionName.getD key.1 [] ≠ [] then some (.erc721 key) else none

def isPrecompile (c : ChainState) (address : EthAddress) : Bool :=
  match Erc721IdConversion.evmIdToRuntimeId address with
  | some key => c.nft.seriesMetadataScheme.contains key
  | none => false

end Erc721PrecompileSet

namespace CENNZnetPrecompiles

def feeProxy : EthAddress := 1211

def stateOracle : EthAddress := 27572

def usedAddresses : List EthAddress := [1, 2, 3, 4, 5, 9, 1024, 1026, 37322, feeProxy, 1939, 1721, stateOracle]

def isPrecompile (address : EthAddress) : Bool :=
  usedAddresses.contains address || routingPrefix address = erc20PrecompileAddressPrefix ||
    routingPrefix address = erc721PrecompileAddressPrefix

def execute (c : ChainState) (address context : EthAddress) : Option Precompile :=
  if isPrecompile address ∧ 9 < address ∧ address ≠ context then some .refused
  else if address = 1 then some .ecRecover
  else if address = 2 then some .sha256
  else if address = 3 then some .ripemd160
  else if address = 4 then some .identity
  else if address = 5 then some .modexp
  else if address = 9 then some .blake2F
  else if address = 1024 then some .sha3FIPS256
  else if address = 1026 then some .ecRecoverPublicKey
  else if address = feeProxy then none
  else if address = stateOracle ∧ c.stateOracleIsActive then some .stateOracle
  else if address = 1939 then some .erc20Peg
  else if address = 1721 then some .nft
  else if address = 37322 then some .cennzx
  else if routingPrefix address = erc721PrecompileAddressPrefix then Erc721PrecompileSet.execute c address
  else if routingPrefix address = erc20PrecompileAddressPrefix then Erc20PrecompileSet.execute c address
  else none

end CENNZnetPrecompiles

end Precompiles
