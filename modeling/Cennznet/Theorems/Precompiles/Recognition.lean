import Cennznet.Precompiles

/-! # Recognised addresses, and those that answer

`is_precompile` goes by the address alone, `execute` also by the chain. -/

namespace Precompiles

open EthBridge (EthAddress)
open List
open CENNZnetPrecompiles (feeProxy stateOracle usedAddresses)

/-- What `execute` routes without a look at the chain. -/
def fixedAddresses : List EthAddress := [1, 2, 3, 4, 5, 9, 1024, 1026, 37322, 1939, 1721]

/-- `is_precompile` holds exactly if `execute` answers. -/
def Matches (isPrecompile : Bool) (answer : Option Precompile) : Prop := isPrecompile = true ↔ answer.isSome = true

/-- What an address stands for is there. -/
def ChainState.Present (c : ChainState) (addr : EthAddress) : Prop :=
  (addr = stateOracle → c.stateOracleIsActive = true) ∧
    (∀ key ∈ Erc721IdConversion.evmIdToRuntimeId addr, c.nft.collectionName.getD key.1 [] ≠ []) ∧
    ∀ aid ∈ Erc20IdConversion.evmIdToRuntimeId addr, c.assets.issuanceOf aid ≠ 0

variable {c : ChainState} {addr : EthAddress}

theorem mem_usedAddresses : addr ∈ usedAddresses ↔ addr ∈ fixedAddresses ∨ addr = feeProxy ∨ addr = stateOracle := by
  simp only [usedAddresses, fixedAddresses, mem_cons, not_mem_nil, or_false]
  tauto

theorem fixed_matches (h : addr ∈ fixedAddresses) :
    Matches (CENNZnetPrecompiles.isPrecompile addr) (CENNZnetPrecompiles.execute c addr addr) ∧
      addr ≠ stateOracle ∧ Erc20IdConversion.evmIdToRuntimeId addr = none ∧
      Erc721IdConversion.evmIdToRuntimeId addr = none := by
  simp only [fixedAddresses, mem_cons, not_mem_nil, or_false] at h
  rcases h with rfl | rfl | rfl | rfl | rfl | rfl | rfl | rfl | rfl | rfl | rfl <;>
    exact ⟨iff_of_true (by decide) rfl, by decide, rfl, rfl⟩

theorem execute_other (h : addr ∉ fixedAddresses) (hfee : addr ≠ feeProxy) : CENNZnetPrecompiles.execute c addr addr =
      if addr = stateOracle ∧ c.stateOracleIsActive then some .stateOracle
      else if routingPrefix addr = erc721PrecompileAddressPrefix then Erc721PrecompileSet.execute c addr
      else if routingPrefix addr = erc20PrecompileAddressPrefix then Erc20PrecompileSet.execute c addr
      else none := by
  simp only [fixedAddresses, mem_cons, not_mem_nil, or_false, not_or] at h
  simp only [CENNZnetPrecompiles.execute, h, hfee, ne_eq, not_true_eq_false, and_false, if_false]

theorem erc20_answers {a : GenericAsset.AssetId} (h : Erc20IdConversion.evmIdToRuntimeId addr = some a) :
    (Erc20PrecompileSet.execute c addr).isSome = true ↔ c.assets.issuanceOf a ≠ 0 := by
  simp [Erc20PrecompileSet.execute, h]

theorem erc721_answers {key : Nft.SeriesKey} (h : Erc721IdConversion.evmIdToRuntimeId addr = some key) :
    (Erc721PrecompileSet.execute c addr).isSome = true ↔ c.nft.collectionName.getD key.1 [] ≠ [] := by
  simp [Erc721PrecompileSet.execute, h]

theorem other_matches_iff (h : addr ∉ fixedAddresses) (hfee : addr ≠ feeProxy) :
    Matches (CENNZnetPrecompiles.isPrecompile addr) (CENNZnetPrecompiles.execute c addr addr) ↔ c.Present addr := by
  have hus : usedAddresses.contains addr = true ↔ addr = stateOracle := by
    rw [contains_iff_mem, mem_usedAddresses, or_iff_right h, or_iff_right hfee]
  unfold Matches CENNZnetPrecompiles.isPrecompile ChainState.Present
  rw [execute_other h hfee, Bool.or_eq_true, Bool.or_eq_true, hus, decide_eq_true_eq, decide_eq_true_eq]
  by_cases ho : addr = stateOracle
  · cases ho
    rw [if_neg (c := routingPrefix stateOracle = _) (by decide), if_neg (c := routingPrefix stateOracle = _) (by decide)]
    have h721 : Erc721IdConversion.evmIdToRuntimeId stateOracle = none := rfl
    have h20 : Erc20IdConversion.evmIdToRuntimeId stateOracle = none := rfl
    cases c.stateOracleIsActive <;> simp [h721, h20]
  · rw [if_neg fun hon => ho hon.1]
    by_cases h721 : routingPrefix addr = erc721PrecompileAddressPrefix
    · have hne : erc721PrecompileAddressPrefix ≠ erc20PrecompileAddressPrefix := by decide
      rw [if_pos h721, erc721_answers (if_pos h721)]
      simp [ho, h721, hne, Erc20IdConversion.evmIdToRuntimeId, Erc721IdConversion.evmIdToRuntimeId]
    · rw [if_neg h721]
      by_cases h20 : routingPrefix addr = erc20PrecompileAddressPrefix
      · have hne : erc20PrecompileAddressPrefix ≠ erc721PrecompileAddressPrefix := by decide
        rw [if_pos h20, erc20_answers (if_pos h20)]
        simp [ho, h20, hne, Erc20IdConversion.evmIdToRuntimeId, Erc721IdConversion.evmIdToRuntimeId]
      · simp [ho, h721, h20, Erc20IdConversion.evmIdToRuntimeId, Erc721IdConversion.evmIdToRuntimeId]

/-- Recognition matches dispatch in the set of the runtime exactly if what the address stands for is there, in that of
ERC-20 always, and in that of ERC-721 exactly if the series exists where its collection has a name. -/
theorem recognition_iff (c : ChainState) (address : EthAddress) (hfee : address ≠ feeProxy) :
    (Matches (CENNZnetPrecompiles.isPrecompile address) (CENNZnetPrecompiles.execute c address address) ↔
      c.Present address) ∧
    Matches (Erc20PrecompileSet.isPrecompile c address) (Erc20PrecompileSet.execute c address) ∧
    (Matches (Erc721PrecompileSet.isPrecompile c address) (Erc721PrecompileSet.execute c address) ↔
      ∀ key ∈ Erc721IdConversion.evmIdToRuntimeId address,
        (c.nft.seriesMetadataScheme.contains key = true ↔ c.nft.collectionName.getD key.1 [] ≠ [])) := by
  refine ⟨?_, ?_, ?_⟩
  · by_cases h : address ∈ fixedAddresses
    · obtain ⟨hm, hne, h20, h721⟩ := fixed_matches (c := c) h
      unfold ChainState.Present
      rw [h20, h721]
      exact iff_of_true hm ⟨fun heq => absurd heq hne, fun _ hkey => (nomatch hkey), fun _ hid => (nomatch hid)⟩
    · exact other_matches_iff h hfee
  · unfold Matches Erc20PrecompileSet.isPrecompile
    cases h : Erc20IdConversion.evmIdToRuntimeId address with
    | none => simp [Erc20PrecompileSet.execute, h]
    | some a => rw [erc20_answers h, decide_eq_true_eq]
  · unfold Matches Erc721PrecompileSet.isPrecompile
    cases h : Erc721IdConversion.evmIdToRuntimeId address with
    | none => simp [Erc721PrecompileSet.execute, h]
    | some key => simp [erc721_answers h]

def emptyChain : ChainState := ⟨.genesis 0, .genesis (.genesis 0), false⟩

/-- A chain with 100 units of asset 1. -/
def oneAsset : ChainState :=
  ⟨.build ⟨[1], 100, [7], 2, [], []⟩, .genesis (.genesis 0), false⟩

theorem asset_matches :
    let address := Erc20IdConversion.runtimeIdToEvmId 1
    address ≠ feeProxy ∧ CENNZnetPrecompiles.execute oneAsset address address = some (.erc20 1) ∧
      Matches (CENNZnetPrecompiles.isPrecompile address) (CENNZnetPrecompiles.execute oneAsset address address) := by
  have h721 : Erc721IdConversion.evmIdToRuntimeId (Erc20IdConversion.runtimeIdToEvmId 1) = none := rfl
  have h20 : Erc20IdConversion.evmIdToRuntimeId (Erc20IdConversion.runtimeIdToEvmId 1) = some 1 := rfl
  refine ⟨by decide, rfl, (recognition_iff oneAsset _ (by decide)).1.mpr ⟨fun h => absurd h (by decide), ?_, ?_⟩⟩
  · rw [h721]
    exact fun _ h => (nomatch h)
  · rw [h20]
    intro aid h
    cases h
    decide +kernel

/-- Without assets and with the oracle inactive, the addresses of the oracle and of an asset are recognised, and nothing
answers. -/
theorem nothing_answers : (stateOracle ≠ feeProxy ∧ CENNZnetPrecompiles.isPrecompile stateOracle = true ∧
      CENNZnetPrecompiles.execute emptyChain stateOracle stateOracle = none) ∧
    (Erc20IdConversion.runtimeIdToEvmId 1 ≠ feeProxy ∧
      CENNZnetPrecompiles.isPrecompile (Erc20IdConversion.runtimeIdToEvmId 1) = true ∧
      CENNZnetPrecompiles.execute emptyChain (Erc20IdConversion.runtimeIdToEvmId 1) (Erc20IdConversion.runtimeIdToEvmId 1) = none) :=
  ⟨⟨by decide, by decide, rfl⟩, by decide, by decide, rfl⟩

end Precompiles
