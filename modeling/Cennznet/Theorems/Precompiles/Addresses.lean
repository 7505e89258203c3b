import Cennznet.Precompiles

/-! # Addresses are canonical but for their last bytes

The decoders ignore what follows the ids. -/

namespace Precompiles

open BitVec
open EthBridge (EthAddress)
open GenericAsset (AssetId)
open Nft (SeriesKey)

variable {addr : EthAddress}

theorem erc20_decode_encode (aid : AssetId) :
    Erc20IdConversion.evmIdToRuntimeId (Erc20IdConversion.runtimeIdToEvmId aid) = some aid := by
  have hpr : routingPrefix (Erc20IdConversion.runtimeIdToEvmId aid) = erc20PrecompileAddressPrefix :=
    (extractLsb'_append_eq_of_le (by decide)).trans extractLsb'_append_eq_left
  have hid : (Erc20IdConversion.runtimeIdToEvmId aid).extractLsb' 96 32 = aid :=
    (extractLsb'_append_eq_of_le (by decide)).trans extractLsb'_append_eq_right
  rw [Erc20IdConversion.evmIdToRuntimeId, if_pos hpr, hid]

theorem erc721_decode_encode (key : SeriesKey) :
    Erc721IdConversion.evmIdToRuntimeId (Erc721IdConversion.runtimeIdToEvmId key) = some key := by
  have hr (i : Nat) : (Erc721IdConversion.runtimeIdToEvmId key).extractLsb' (64 + i) 32 =
      (erc721PrecompileAddressPrefix ++ key.1 ++ key.2).extractLsb' i 32 :=
    (extractLsb'_append_eq_of_le (Nat.le_add_right 64 i)).trans (by rw [Nat.add_sub_cancel_left])
  have hpr : routingPrefix (Erc721IdConversion.runtimeIdToEvmId key) = erc721PrecompileAddressPrefix :=
    ((hr 64).trans (extractLsb'_append_eq_of_le (by decide))).trans extractLsb'_append_eq_left
  have hco : (Erc721IdConversion.runtimeIdToEvmId key).extractLsb' 96 32 = key.1 :=
    ((hr 32).trans (extractLsb'_append_eq_of_le (by decide))).trans extractLsb'_append_eq_right
  have hse : (Erc721IdConversion.runtimeIdToEvmId key).extractLsb' 64 32 = key.2 :=
    (hr 0).trans extractLsb'_append_eq_right
  rw [Erc721IdConversion.evmIdToRuntimeId, if_pos hpr, hco, hse]

theorem append_zero_eq_iff {w k : Nat} {x : BitVec w} {a : BitVec (w + k)} (hx : x = a.extractLsb' k w) :
    x ++ 0#k = a ↔ a.extractLsb' 0 k = 0#k := by
  rw [hx]
  nth_rewrite 2 [← extractLsb'_append_extractLsb' (x := a)]
  rw [append_right_inj, eq_comm]

theorem erc20_canonical_iff {a : AssetId} (h : Erc20IdConversion.evmIdToRuntimeId addr = some a) :
    Erc20IdConversion.runtimeIdToEvmId a = addr ↔ addr.extractLsb' 0 96 = 0 := by
  obtain ⟨hpr, heq⟩ := Option.ite_none_right_eq_some.mp h
  cases heq
  have hhi : erc20PrecompileAddressPrefix ++ addr.extractLsb' 96 32 = addr.extractLsb' 96 64 := by
    rw [← hpr]
    exact extractLsb'_append_extractLsb'_eq_extractLsb' (by decide)
  exact append_zero_eq_iff hhi

theorem erc721_canonical_iff {key : SeriesKey} (h : Erc721IdConversion.evmIdToRuntimeId addr = some key) :
    Erc721IdConversion.runtimeIdToEvmId key = addr ↔ addr.extractLsb' 0 64 = 0 := by
  obtain ⟨hpr, heq⟩ := Option.ite_none_right_eq_some.mp h
  cases heq
  have hfi : erc721PrecompileAddressPrefix ++ addr.extractLsb' 96 32 = addr.extractLsb' 96 64 := by
    rw [← hpr]
    exact extractLsb'_append_extractLsb'_eq_extractLsb' (by decide)
  have hhi : erc721PrecompileAddressPrefix ++ addr.extractLsb' 96 32 ++ addr.extractLsb' 64 32 =
      addr.extractLsb' 64 96 := by
    rw [hfi]
    exact extractLsb'_append_extractLsb'_eq_extractLsb' (by decide)
  exact append_zero_eq_iff hhi

theorem intoAccountId_recovered (addr : EthAddress) :
    PrefixedAddressMapping.fromAccountId (PrefixedAddressMapping.intoAccountId addr) = addr := by
  have hpr : (PrefixedAddressMapping.intoAccountId addr).extractLsb' 168 88 = PrefixedAddressMapping.accountPrefix :=
    (extractLsb'_append_eq_of_le (by decide)).trans extractLsb'_append_eq_left
  unfold PrefixedAddressMapping.fromAccountId
  rw [if_pos hpr]
  exact (extractLsb'_append_eq_of_le (by decide)).trans extractLsb'_append_eq_right

/-- The address of an id decodes to it. An address that decodes to an id is the id's exactly if the bytes after the ids
are zero. Accounts determine their addresses. -/
theorem addresses_canonical_iff (address : EthAddress) (assetId : AssetId) (key : SeriesKey) :
    Erc20IdConversion.evmIdToRuntimeId (Erc20IdConversion.runtimeIdToEvmId assetId) = some assetId ∧
    Erc721IdConversion.evmIdToRuntimeId (Erc721IdConversion.runtimeIdToEvmId key) = some key ∧
    (∀ assetId ∈ Erc20IdConversion.evmIdToRuntimeId address,
      (Erc20IdConversion.runtimeIdToEvmId assetId = address ↔ address.extractLsb' 0 96 = 0)) ∧
    (∀ key ∈ Erc721IdConversion.evmIdToRuntimeId address,
      (Erc721IdConversion.runtimeIdToEvmId key = address ↔ address.extractLsb' 0 64 = 0)) ∧
    PrefixedAddressMapping.fromAccountId (PrefixedAddressMapping.intoAccountId address) = address ∧
    Function.Injective PrefixedAddressMapping.intoAccountId :=
  ⟨erc20_decode_encode assetId, erc721_decode_encode key, fun _ h => erc20_canonical_iff h, fun _ h => erc721_canonical_iff h,
    intoAccountId_recovered address, Function.LeftInverse.injective intoAccountId_recovered⟩

theorem two_addresses :
    let asset : EthAddress := Erc20IdConversion.runtimeIdToEvmId 1
    let series : EthAddress := Erc721IdConversion.runtimeIdToEvmId (1, 2)
    Erc20IdConversion.evmIdToRuntimeId asset = Erc20IdConversion.evmIdToRuntimeId (asset + 1) ∧
      Erc721IdConversion.evmIdToRuntimeId series = Erc721IdConversion.evmIdToRuntimeId (series + 1) ∧
      (Erc20IdConversion.evmIdToRuntimeId (asset + 1)).isSome = true ∧
      (Erc721IdConversion.evmIdToRuntimeId (series + 1)).isSome = true := by
  decide

end Precompiles
