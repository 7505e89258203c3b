import Cennznet.EthBridge.Offchain
import Cennznet.StateOraclePrecompile
import Cennznet.Theorems.EthStateOracle.Callbacks
import Cennznet.Theorems.EvmCurrency.Settlement

/-! # Numbers that are passed on

The time since a request is taken with its operands the wrong way round. -/

namespace EthStateOracle

open EthBridge (oldestAcceptableEthBlock)
open Result Word

variable {A : Type} [DecidableEq A] {cfg : Config A} {env : Env A}
  {s s' : State A} {origin : A} {id : RequestId} {request : CallRequest}

/-! ### How far a challenge looks back -/

/-- Whatever the oracle of calls does, it is called with this many blocks to look behind. -/
def PassesLookBehind (cfg : Config A) (env : Env A) (s : State A) (origin : A)
    (id : RequestId) (request : CallRequest) (lookBehind : BitVec 64) : Prop :=
  ∃ response, s.responses.get? id = some response ∧ ∀ call,
    submitResponseChallenge cfg { env with checkedEthCall := call } s origin id = .ok { s with
      responsesChallenged := s.responsesChallenged.insert id origin
      challengeSubscriptions := s.challengeSubscriptions.insert
        (call request.destination request.inputData request.timestamp response.ethBlockNumber lookBehind) id }

/-- A block at most `lookBehind` behind the latest is recent enough for the check, whenever it is made. -/
def Reaches (lookBehind : BitVec 64) : Prop :=
  ∀ (now : EthBridge.Seconds) (check : EthBridge.CheckedEthCallRequest) (latest b : BitVec 64),
    check.maxBlockLookBehind = lookBehind → latest.toNat ≤ b.toNat + lookBehind.toNat →
    (oldestAcceptableEthBlock now check latest).toNat ≤ b.toNat

theorem reaches (lookBehind : BitVec 64) : Reaches lookBehind := by
  rintro now check latest b rfl hne
  simp only [oldestAcceptableEthBlock, toNat_saturatingSub]
  omega

theorem submitResponseChallenge_passes (hrq : s.requests.get? id = some request)
    (h : submitResponseChallenge cfg env s origin id = .ok s') :
    ∃ lookBehind, PassesLookBehind cfg env s origin id request lookBehind ∧
      lookBehind.toNat = max 3 ((request.timestamp - env.now).toNat / 15) := by
  simp only [submitResponseChallenge, hrq, okOr_some, ok_bind, bind_eq_ok, ensure_eq_ok, okOr_eq_ok] at h
  obtain ⟨-, hnew, -, hbo, resp, hre, -⟩ := h
  refine ⟨if (3 : BitVec 64).toNat ≤ ((request.timestamp - env.now) / ethBlockTime).toNat then
    (request.timestamp - env.now) / ethBlockTime else 3, ⟨resp, hre, fun call => ?_⟩, ?_⟩
  · simp only [submitResponseChallenge, hrq, okOr_some, ok_bind, bind_eq_ok, ensure_eq_ok, hre]
    exact ⟨(), hnew, (), hbo, rfl⟩
  · have hqu : ((request.timestamp - env.now) / ethBlockTime).toNat = (request.timestamp - env.now).toNat / 15 :=
      BitVec.toNat_udiv
    have hth : (3 : BitVec 64).toNat = 3 := rfl
    rw [hqu]
    split
    · rw [hqu]
      omega
    · omega

/-- A challenge looks back as far as it should, without underflow, exactly if no time has passed since the request. -/
theorem lookBehind_exact_iff (hrequest : s.requests.get? id = some request)
    (h : submitResponseChallenge cfg env s origin id = .ok s') (hnow : request.timestamp.toNat ≤ env.now.toNat) :
    ∃ lookBehind, PassesLookBehind cfg env s origin id request lookBehind ∧ Reaches lookBehind ∧
      ((checkedSub request.timestamp env.now).isSome = true ∧
          lookBehind.toNat = max 3 ((env.now.toNat - request.timestamp.toNat) / 15) ↔
        env.now = request.timestamp) := by
  obtain ⟨lookBehind, hpa, hva⟩ := submitResponseChallenge_passes hrequest h
  refine ⟨lookBehind, hpa, reaches lookBehind, ?_, fun hs => ?_⟩
  · rintro ⟨hso, -⟩
    obtain ⟨rest, hr⟩ := Option.isSome_iff_exists.mp hso
    rw [checkedSub_eq_some] at hr
    exact BitVec.eq_of_toNat_eq (by omega)
  · rw [hva, hs, BitVec.sub_self, Nat.sub_self]
    exact ⟨Option.isSome_iff_exists.mpr ⟨0, checkedSub_eq_some.mpr (Nat.zero_add _)⟩, rfl⟩

def respondedTo : State Nat :=
  Steps.execute (step sampleConfig) sampleGenesis
    ([.bondRelayer 1, .bondChallenger 2, .newRequest sampleRequest, .submitCallResponse 1 0 (.ok 7) 20 100].map
      fun call => { env := sampleEnv, call := call })

theorem challenge_at_once_looks_back :
    ∃ request lookBehind, respondedTo.requests.get? 0 = some request ∧ request.timestamp = sampleEnv.now ∧
      PassesLookBehind sampleConfig sampleEnv respondedTo 2 0 request lookBehind ∧ lookBehind.toNat = 3 := by
  have hst : (respondedTo.requests.get? 0).map (·.timestamp) = some 100 := by decide +kernel
  obtain ⟨request, hre, hti⟩ := Option.map_eq_some_iff.mp hst
  obtain ⟨s', h⟩ := exists_eq_ok (x := submitResponseChallenge sampleConfig sampleEnv respondedTo 2 0) (by decide +kernel)
  obtain ⟨lookBehind, hpa, -, hex⟩ := lookBehind_exact_iff hre h (by rw [hti]; decide)
  refine ⟨request, lookBehind, hre, hti, hpa, ?_⟩
  rw [(hex.mpr hti.symm).2, hti]
  rfl

theorem challenge_after_minute_looks_back_forever : (submitResponseChallenge sampleConfig { sampleEnv with
        now := 160, checkedEthCall := fun _ _ _ _ lookBehind => if lookBehind = 1229782938247303437 then 1 else 0 }
      respondedTo 2 0).map (fun s => s.challengeSubscriptions.get? 1) = .ok (some 0) := by
  decide +kernel

end EthStateOracle

namespace StateOraclePrecompile

open EthBridge (EthAddress)
open EthStateOracle (CallRequest Env NewRequest RequestId State newRequest scaleWeiTo4dp)
open Result Word

/-! ### The arguments of a contract -/

variable {A : Type} {cfg : Config A} {env : Env A} {s s' : State A}
  {targetGas : Option (BitVec 64)} {caller : EthAddress} {call : RemoteCall} {swap : FeeSwap} {id : RequestId}

/-- The gas limit and the bounty of the request are the arguments, capped. -/
def Saturates (call : RemoteCall) (request : CallRequest) : Prop :=
  request.callbackGasLimit.toNat = min call.callbackGasLimit.toNat (2 ^ 64 - 1) ∧
    request.bounty = scaleWeiTo4dp (BitVec.ofNat 128 (min call.callbackBounty.toNat (2 ^ 128 - 1)))

/-- The gas limit is a `u64`, or its low bits are all ones. -/
def GasLimitFits (call : RemoteCall) : Prop :=
  call.callbackGasLimit.toNat < 2 ^ 64 ∨ call.callbackGasLimit.toNat % 2 ^ 64 = 2 ^ 64 - 1

/-- The slippage is a `u32`, or its low bits come to the whole at least. -/
def SlippageFits (swap : FeeSwap) : Prop := swap.slippage.toNat < 2 ^ 32 ∨ 1000 ≤ swap.slippage.toNat % 2 ^ 32

theorem submit_stores {request : NewRequest} (h : submit cfg env s targetGas request = .ok (s', id)) :
    ∃ stored, s'.requests.get? id = some stored ∧ stored.callbackGasLimit = request.callbackGasLimit ∧
      stored.bounty = request.bounty ∧ stored.feePreferences = request.feePreferences := by
  simp only [submit, newRequest, bind_eq_ok, ensure_eq_ok, mapError_eq_ok, pure_eq_ok, Prod.mk.injEq] at h
  obtain ⟨-, -, -, -, -, -, next, -, rfl, rfl⟩ := h
  exact ⟨_, StorageMap.get?_insert_self, rfl, rfl, rfl⟩

theorem saturates_iff {stored : CallRequest} (hgas : stored.callbackGasLimit = call.callbackGasLimit.setWidth 64)
    (hbo : stored.bounty = scaleWeiTo4dp (saturatedInto 128 call.callbackBounty)) :
    Saturates call stored ↔ GasLimitFits call := by
  have hca : saturatedInto 128 call.callbackBounty =
      BitVec.ofNat 128 (min call.callbackBounty.toNat (2 ^ 128 - 1)) := by
    apply BitVec.eq_of_toNat_eq
    rw [toNat_saturatedInto, BitVec.toNat_ofNat, Nat.mod_eq_of_lt (by omega)]
  unfold Saturates GasLimitFits
  rw [hbo, hgas, hca, BitVec.toNat_setWidth]
  constructor
  · rintro ⟨hli, -⟩
    omega
  · intro hf
    exact ⟨by omega, rfl⟩

theorem toNat_permillOfThousandths (p : BitVec 32) : (permillOfThousandths p).toNat = min p.toNat 1000 * 1000 := by
  rw [permillOfThousandths, BitVec.toNat_ofNat]
  omega

theorem scaleWeiTo4dp_mono {v w : GenericAsset.Balance} (h : v.toNat ≤ w.toNat) :
    (scaleWeiTo4dp v).toNat ≤ (scaleWeiTo4dp w).toNat := by
  rw [EvmCurrencyScaler.toNat_scaleWeiTo4dp, EvmCurrencyScaler.toNat_scaleWeiTo4dp, Rounding.up_le_iff (by decide)]
  exact Nat.le_trans h ((Rounding.up_le_iff (by decide)).mp (Nat.le_refl _))

/-- No larger argument gives the request less: of those that fit, for the gas limit and the slippage. -/
structure Grows (call call' : RemoteCall) (swap swap' : FeeSwap) : Prop where
  gasLimit : GasLimitFits call → GasLimitFits call' → call.callbackGasLimit.toNat ≤ call'.callbackGasLimit.toNat →
    (call.callbackGasLimit.setWidth 64).toNat ≤ (call'.callbackGasLimit.setWidth 64).toNat
  bounty : call.callbackBounty.toNat ≤ call'.callbackBounty.toNat →
    (scaleWeiTo4dp (saturatedInto 128 call.callbackBounty)).toNat ≤
      (scaleWeiTo4dp (saturatedInto 128 call'.callbackBounty)).toNat
  slippage : SlippageFits swap → SlippageFits swap' → swap.slippage.toNat ≤ swap'.slippage.toNat →
    (permillOfThousandths (swap.slippage.setWidth 32)).toNat ≤ (permillOfThousandths (swap'.slippage.setWidth 32)).toNat

theorem grows (call call' : RemoteCall) (swap swap' : FeeSwap) : Grows call call' swap swap' where
  gasLimit := by
    unfold GasLimitFits
    simp only [BitVec.toNat_setWidth]
    omega
  bounty h := by
    apply scaleWeiTo4dp_mono
    rw [toNat_saturatedInto, toNat_saturatedInto]
    omega
  slippage := by
    unfold SlippageFits
    simp only [toNat_permillOfThousandths, BitVec.toNat_setWidth]
    omega

/-- A remote call saturates its arguments exactly if its gas limit fits; one with a fee swap exactly if its slippage
fits as well. -/
theorem remoteCalls_saturate_iff : (remoteCall cfg env s targetGas caller call = .ok (s', id) →
      ∃ request, s'.requests.get? id = some request ∧ (Saturates call request ↔ GasLimitFits call)) ∧
    (remoteCallWithFeeSwap cfg env s targetGas caller call swap = .ok (s', id) →
      ∃ request fees, s'.requests.get? id = some request ∧ request.feePreferences = some fees ∧
        (Saturates call request ∧ fees.slippage.toNat = min swap.slippage.toNat 1000 * 1000 ↔
          GasLimitFits call ∧ SlippageFits swap)) ∧
    ∀ call' swap', Grows call call' swap swap' := by
  refine ⟨?_, ?_, fun call' swap' => grows call call' swap swap'⟩
  · intro h
    obtain ⟨stored, hst, hgas, hbo, -⟩ := submit_stores h
    exact ⟨stored, hst, saturates_iff hgas hbo⟩
  · intro h
    simp only [remoteCallWithFeeSwap, bind_eq_ok] at h
    obtain ⟨a, -, h⟩ := h
    obtain ⟨stored, hst, hgas, hbo, hfe⟩ := submit_stores h
    refine ⟨stored, _, hst, hfe, and_congr (saturates_iff hgas hbo) ?_⟩
    rw [toNat_permillOfThousandths, BitVec.toNat_setWidth, SlippageFits]
    omega

def sampleConfig : Config Nat where
  oracle := EthStateOracle.sampleConfig
  weightToGas weight := weight
  evmIdToRuntimeId addr := if addr = 900 then some 16000 else none

def sampleCall (gasLimit : BitVec 256) : RemoteCall where
  destination := 60
  inputData := []
  callbackSignature := List.replicate 32 1
  callbackGasLimit := gasLimit
  callbackBounty := 3000000000000000

def sampleSwap (gasLimit slippage : BitVec 256) : Except Failure (State Nat × RequestId) :=
  remoteCallWithFeeSwap sampleConfig EthStateOracle.sampleEnv EthStateOracle.respondedTo none 3 (sampleCall gasLimit)
    ⟨900, slippage⟩

theorem fitting_arguments_saturate :
    ∃ s' id request fees, sampleSwap 5000 250 = .ok (s', id) ∧ s'.requests.get? id = some request ∧
      request.feePreferences = some fees ∧ Saturates (sampleCall 5000) request ∧ fees.slippage.toNat = 250000 := by
  obtain ⟨⟨s', id⟩, h⟩ := exists_eq_ok (x := sampleSwap 5000 250) (by decide +kernel)
  obtain ⟨request, fees, hst, hfe, hiff⟩ := remoteCalls_saturate_iff.2.1 h
  obtain ⟨hsa, hsl⟩ := hiff.mpr ⟨Or.inl (by decide), Or.inl (by decide)⟩
  exact ⟨s', id, request, fees, h, hst, hfe, hsa, hsl⟩

theorem large_arguments_wrap : (sampleSwap 18446744073709551616 4294967296).map (fun r =>
      (r.1.requests.get? r.2).map fun request => (request.callbackGasLimit, request.feePreferences)) =
        .ok (some (0, some ⟨16000, 0⟩)) := by
  decide +kernel

end StateOraclePrecompile
