import Cennznet.EthBridge.Offchain
import Cennznet.Theorems.EthBridge.OneVote

/-! # What a notary's worker attends to

The limit is applied before what the key has notarized is left out. -/

namespace EthBridge

open StorageMap List

variable {K A : Type} [DecidableEq K]

def EventWaits (s : State K A) (key : K) (id : EventClaimId) : Prop :=
  s.eventClaims.contains id = true ∧ s.eventData.contains id = true ∧ s.eventNotarizations.contains (id, key) = false

def CallWaits (s : State K A) (key : K) (callId : EthCallId) : Prop :=
  callId ∈ s.ethCallRequests ∧ s.ethCallNotarizations.contains (callId, key) = false

def MakesNew (s : State K A) (key : K) (payloads : List NotarizationPayload) : Prop :=
  ∃ payload ∈ payloads, recorded s key payload = false

section
variable {cl : EthereumRpcClient} {callClient : EthCallClient} {now : Seconds} {s : State K A}
  {key : K} {i : BitVec 16} {payload : NotarizationPayload}

theorem notarizeClaim_eq_some {claim : EventClaimId × EthHash × EventTypeId}
    (h : notarizeClaim cl now s key i claim = some payload) :
    s.eventNotarizations.contains (claim.1, key) = false ∧ s.eventData.contains claim.1 = true ∧
      ∃ res, payload = .event claim.1 i res := by
  unfold notarizeClaim at h
  split at h
  · cases h
  · rename_i hnew
    split at h
    · cases h
    · rename_i data hda
      cases h
      exact ⟨Bool.eq_false_iff.mpr hnew, contains_iff.mpr ⟨data, hda⟩, _, rfl⟩

theorem notarizeClaim_isSome (cl : EthereumRpcClient) (now : Seconds) (i : BitVec 16)
    {claim : EventClaimId × EthHash × EventTypeId} (hnew : s.eventNotarizations.contains (claim.1, key) = false)
    (hda : s.eventData.contains claim.1 = true) :
    ∃ payload, notarizeClaim cl now s key i claim = some payload := by
  obtain ⟨data, hda⟩ := contains_iff.mp hda
  unfold notarizeClaim
  rw [if_neg (Bool.eq_false_iff.mp hnew), hda]
  exact ⟨_, rfl⟩

theorem notarizeCall_eq_some {id : EthCallId} (h : notarizeCall callClient now s key i id = some payload) :
    s.ethCallNotarizations.contains (id, key) = false ∧ s.ethCallRequestInfo.contains id = true ∧
      ∃ res, payload = .call id i res := by
  unfold notarizeCall at h
  split at h
  · cases h
  · rename_i hnew
    split at h
    · cases h
    · rename_i rq hre
      cases h
      exact ⟨Bool.eq_false_iff.mpr hnew, contains_iff.mpr ⟨rq, hre⟩, _, rfl⟩

theorem notarizeCall_isSome (callClient : EthCallClient) (now : Seconds) (i : BitVec 16) {id : EthCallId}
    (hnew : s.ethCallNotarizations.contains (id, key) = false) (hre : s.ethCallRequestInfo.contains id = true) :
    ∃ payload, notarizeCall callClient now s key i id = some payload := by
  obtain ⟨rq, hre⟩ := contains_iff.mp hre
  unfold notarizeCall
  rw [if_neg (Bool.eq_false_iff.mp hnew), hre]
  exact ⟨_, rfl⟩

theorem events_makesNew_iff {order : EventClaimId → EventClaimId → Bool} (hpa : s.bridgePaused = false) :
    MakesNew s key (doEventNotarizationOcw cl now order s key i) ↔
      ∃ claim ∈ (s.eventClaims.iterBy order).take claimsPerBlock, EventWaits s key claim.1 := by
  unfold MakesNew doEventNotarizationOcw
  rw [if_neg (Bool.eq_false_iff.mp hpa)]
  simp only [mem_filterMap]
  constructor
  · rintro ⟨payload, ⟨claim, hcl, hso⟩, -⟩
    obtain ⟨hnew, hda, -⟩ := notarizeClaim_eq_some hso
    have hpe : s.eventClaims.contains claim.1 = true := contains_iff.mpr ⟨claim.2, mem_iterBy.mp (mem_of_mem_take hcl)⟩
    exact ⟨claim, hcl, hpe, hda, hnew⟩
  · rintro ⟨claim, hcl, -, hda, hnew⟩
    obtain ⟨payload, hso⟩ := notarizeClaim_isSome cl now i hnew hda
    obtain ⟨-, -, r, rfl⟩ := notarizeClaim_eq_some hso
    exact ⟨_, ⟨claim, hcl, hso⟩, hnew⟩

theorem calls_makesNew_iff : MakesNew s key (doCallNotarizationOcw callClient now s key i) ↔
      ∃ id ∈ s.ethCallRequests.take callsPerBlock, CallWaits s key id ∧ s.ethCallRequestInfo.contains id = true := by
  unfold MakesNew doCallNotarizationOcw
  simp only [mem_filterMap]
  constructor
  · rintro ⟨payload, ⟨id, hc, hso⟩, -⟩
    obtain ⟨hnew, hinf, -⟩ := notarizeCall_eq_some hso
    exact ⟨id, hc, ⟨mem_of_mem_take hc, hnew⟩, hinf⟩
  · rintro ⟨id, hc, ⟨-, hnew⟩, hinf⟩
    obtain ⟨payload, hso⟩ := notarizeCall_isSome callClient now i hnew hinf
    obtain ⟨-, -, r, rfl⟩ := notarizeCall_eq_some hso
    exact ⟨_, ⟨id, hc, hso⟩, hnew⟩

end

/-- A worker never idles while claims or calls wait for its key, exactly if whenever some wait, one of those it looks at
does. -/
theorem never_idles_iff (client : EthCallClient) (now : Seconds) (order : EventClaimId → EventClaimId → Bool)
    (s : State K A) (key : K) (index : BitVec 16) (hpaused : s.bridgePaused = false) :
    (((∃ id, EventWaits s key id) →
          MakesNew s key (doEventNotarizationOcw client.toEthereumRpcClient now order s key index)) ∧
        ((∃ callId, CallWaits s key callId) → MakesNew s key (doCallNotarizationOcw client now s key index))) ↔
      ((∃ id, EventWaits s key id) →
          ∃ claim ∈ (s.eventClaims.iterBy order).take claimsPerBlock, EventWaits s key claim.1) ∧
        ((∃ callId, CallWaits s key callId) → ∃ callId ∈ s.ethCallRequests.take callsPerBlock, CallWaits s key callId ∧
            s.ethCallRequestInfo.contains callId = true) := by
  rw [events_makesNew_iff hpaused, calls_makesNew_iff]

def silentClient : EthCallClient where
  getBlockByNumber _ := .error .httpFetch
  getTransactionReceipt _ := .error .httpFetch
  ethCall _ _ _ := .error .httpFetch

def busyBridge : State Nat Nat :=
  Steps.execute (step runtimeConfig) fiveNotaries (List.map (plainOp 100 [1, 2, 3, 4, 5])
    [.submitEventClaim 1 2 5 [], .submitEventClaim 1 2 6 [], .checkedEthCall 7 [] 0 0 0, .checkedEthCall 8 [] 0 0 0])

def busyBridgeVoted : State Nat Nat :=
  Steps.execute (step runtimeConfig) busyBridge (List.map (plainOp 100 [1, 2, 3, 4, 5])
    [.submitNotarization (.event 0 0 .valid), .submitNotarization (.call 0 0 .returnDataEmpty)])

def byId (a b : EventClaimId) : Bool := a.toNat ≤ b.toNat

theorem busy_worker_sends :
    MakesNew busyBridge 11 (doEventNotarizationOcw silentClient.toEthereumRpcClient 100 byId busyBridge 11 0) ∧
      MakesNew busyBridge 11 (doCallNotarizationOcw silentClient 100 busyBridge 11 0) := by
  have hev : EventWaits busyBridge 11 0 := ⟨by decide +kernel, by decide +kernel, by decide +kernel⟩
  have hc : CallWaits busyBridge 11 0 := ⟨by decide +kernel, by decide +kernel⟩
  have hfr : (0, 5, 0) ∈ (busyBridge.eventClaims.iterBy byId).take claimsPerBlock := by decide +kernel
  obtain ⟨heve, hca⟩ := (never_idles_iff silentClient 100 byId busyBridge 11 0 (by decide +kernel)).mpr
    ⟨fun _ => ⟨_, hfr, hev⟩, fun _ => ⟨0, by decide +kernel, hc, by decide +kernel⟩⟩
  exact ⟨heve ⟨0, hev⟩, hca ⟨0, hc⟩⟩

theorem voted_worker_idles :
    (busyBridgeVoted.bridgePaused = false ∧ EventWaits busyBridgeVoted 11 1 ∧ CallWaits busyBridgeVoted 11 1) ∧
      doEventNotarizationOcw silentClient.toEthereumRpcClient 100 byId busyBridgeVoted 11 0 = [] ∧
      doCallNotarizationOcw silentClient 100 busyBridgeVoted 11 0 = [] := by
  refine ⟨⟨by decide +kernel, ⟨?_, ?_, ?_⟩, ?_, ?_⟩, ?_, ?_⟩ <;> decide +kernel

end EthBridge
