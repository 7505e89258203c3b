import Cennznet.EthBridge.Offchain

/-! # What a checked event amounts to

The signature of an event is looked for among all topics of a log. -/

namespace EthBridge

open Word List

variable {K A : Type}

/-- The log is the claimed event: of the transaction and the contract, with the signature as its first topic and with
the data. -/
def Log.IsEvent (log : Log) (claim : EventClaim) : Prop :=
  log.transactionHash = some claim.txHash ∧ log.address = claim.contractAddress ∧
    log.topics.head? = some claim.eventSignature ∧ log.data = claim.data

/-- The client knows the latest block and that of the receipt, far enough apart and not too old. -/
structure Timely (client : EthereumRpcClient) (now : Seconds) (s : State K A)
    (receipt : TransactionReceipt) (latest observed : EthBlock) : Prop where
  latestBlock : client.getBlockByNumber .latest = .ok (some latest)
  observedBlock : client.getBlockByNumber (.number receipt.blockNumber) = .ok (some observed)
  confirmed : s.eventConfirmations.toNat ≤ (latest.number.getD 0).toNat - receipt.blockNumber.toNat
  estimate : ((latest.number.getD 0).toNat - receipt.blockNumber.toNat) * 14 % 2 ^ 64 ≤ s.eventDeadlineSeconds.toNat
  recent : now.toNat ≤ observed.timestamp.toNat + s.eventDeadlineSeconds.toNat

/-- The event has happened in a confirmed block that is not too old. -/
structure EventHappened (client : EthereumRpcClient) (now : Seconds) (s : State K A) (claim : EventClaim)
    (receipt : TransactionReceipt) (latest observed : EthBlock) : Prop where
  received : client.getTransactionReceipt claim.txHash = .ok (some receipt)
  success : receipt.status.getD 0 ≠ 0
  addressed : receipt.receiver = some claim.contractAddress
  event : ∃ log ∈ receipt.logs, log.IsEvent claim
  latestBlock : client.getBlockByNumber .latest = .ok (some latest)
  observedBlock : client.getBlockByNumber (.number receipt.blockNumber) = .ok (some observed)
  confirmed : s.eventConfirmations.toNat ≤ (latest.number.getD 0).toNat - receipt.blockNumber.toNat
  recent : now.toNat ≤ observed.timestamp.toNat + s.eventDeadlineSeconds.toNat

/-- The receipt passes every check, but none of its logs is the claimed event. -/
def Misleading (claim : EventClaim) (receipt : TransactionReceipt) : Prop :=
  receipt.status.getD 0 ≠ 0 ∧ receipt.receiver = some claim.contractAddress ∧
    (∃ log, matchingLog claim receipt = some log ∧ log.data = claim.data ∧ log.address = claim.contractAddress) ∧
    ¬∃ log ∈ receipt.logs, log.IsEvent claim

section
variable {client : EthereumRpcClient} {now : Seconds} {s : State K A} {claim : EventClaim}
  {receipt : TransactionReceipt}

theorem checkAge_valid_iff :
    checkAge client now s receipt = .valid ↔ ∃ latest observed, Timely client now s receipt latest observed := by
  unfold checkAge
  dsimp only
  constructor
  · intro h
    split at h <;> try cases h
    rename_i latest hla
    split at h <;> try cases h
    rename_i hco
    split at h <;> try cases h
    rename_i hee
    split at h <;> try cases h
    rename_i observed hobs
    split at h <;> try cases h
    rename_i hre
    rw [BitVec.toNat_mul, toNat_saturatingSub] at hee
    rw [toNat_saturatingSub] at hco hre
    rw [toNat_saturatedInto] at hre
    have hnow := now.isLt
    exact ⟨latest, observed, hla, hobs, by omega, Nat.le_of_not_lt hee, by omega⟩
  · rintro ⟨latest, observed, T⟩
    have hnow := now.isLt
    have hco := T.confirmed
    have hre := T.recent
    rw [T.latestBlock, T.observedBlock]
    dsimp only
    rw [if_neg, if_neg, if_neg]
    · rw [toNat_saturatingSub, toNat_saturatedInto]
      omega
    · rw [BitVec.toNat_mul, toNat_saturatingSub]
      exact Nat.not_lt_of_le T.estimate
    · rw [toNat_saturatingSub]
      omega

theorem offchainTryNotarizeEvent_valid_iff : offchainTryNotarizeEvent client now s claim = .valid ↔
      ∃ receipt, client.getTransactionReceipt claim.txHash = .ok (some receipt) ∧ receipt.status.getD 0 ≠ 0 ∧
        receipt.receiver = some claim.contractAddress ∧
        (∃ log, matchingLog claim receipt = some log ∧ log.data = claim.data ∧ log.address = claim.contractAddress) ∧
        checkAge client now s receipt = .valid := by
  unfold offchainTryNotarizeEvent
  constructor
  · intro h
    split at h <;> try cases h
    rename_i receipt hrc
    split at h <;> try cases h
    rename_i hst
    split at h <;> try cases h
    rename_i hre
    split at h <;> try cases h
    rename_i log hlog
    split at h <;> try cases h
    rename_i hda
    split at h <;> try cases h
    rename_i had
    exact ⟨receipt, hrc, hst, not_not.mp hre, ⟨log, hlog, not_not.mp hda, not_not.mp had⟩, h⟩
  · rintro ⟨receipt, hrc, hst, hre, ⟨log, hlog, hda, had⟩, hage⟩
    rw [hrc]
    dsimp only
    rw [if_neg hst, if_neg (not_not.mpr hre), hlog]
    dsimp only
    rw [if_neg (not_not.mpr hda), if_neg (not_not.mpr had)]
    exact hage

end

/-- A valid verdict means that the event has happened, exactly if the receipt is not misleading and timely. -/
theorem valid_verdict_sound_iff (client : EthereumRpcClient) (now : Seconds) (s : State K A) (claim : EventClaim) :
    (offchainTryNotarizeEvent client now s claim = .valid →
        ∃ receipt latest observed, EventHappened client now s claim receipt latest observed) ↔
      ∀ receipt latest observed, client.getTransactionReceipt claim.txHash = .ok (some receipt) →
        Timely client now s receipt latest observed → ¬Misleading claim receipt := by
  constructor
  · rintro h receipt latest observed hre T ⟨hst, hrc, hlog, hn⟩
    have hage := checkAge_valid_iff.mpr ⟨latest, observed, T⟩
    obtain ⟨receipt', latest', observed', H⟩ :=
      h (offchainTryNotarizeEvent_valid_iff.mpr ⟨receipt, hre, hst, hrc, hlog, hage⟩)
    have hs := H.received
    rw [hre] at hs
    cases hs
    exact hn H.event
  · intro h hva
    obtain ⟨receipt, hre, hst, hrc, hlog, hage⟩ := offchainTryNotarizeEvent_valid_iff.mp hva
    obtain ⟨latest, observed, T⟩ := checkAge_valid_iff.mp hage
    refine ⟨receipt, latest, observed, hre, hst, hrc, ?_, T.latestBlock, T.observedBlock, T.confirmed, T.recent⟩
    by_contra hn
    exact h receipt latest observed hre T ⟨hst, hrc, hlog, hn⟩

def claimOfEvent : EventClaim := { txHash := 5, data := [], contractAddress := 1, eventSignature := 2 }

def otherEventClient : EthereumRpcClient where
  getBlockByNumber _ := .ok (some { number := some 110, timestamp := 1000 })
  getTransactionReceipt _ := .ok (some {
    blockNumber := 100
    logs := [{ address := 1, topics := [3, 2], data := [], transactionHash := some 5 }]
    status := some 1
    receiver := some 1 })

theorem otherEvent_valid_not_happened :
    offchainTryNotarizeEvent otherEventClient 1100 (State.genesis [] : State Nat Nat) claimOfEvent = .valid ∧
      ¬∃ receipt latest observed,
        EventHappened otherEventClient 1100 (State.genesis [] : State Nat Nat) claimOfEvent receipt latest observed := by
  refine ⟨by decide, ?_⟩
  rintro ⟨receipt, latest, observed, H⟩
  obtain ⟨log, hlog, hev⟩ := H.event
  have hre := H.received
  cases hre
  obtain rfl := mem_singleton.mp hlog
  exact absurd hev.2.2.1 (by decide)

/-! ### Genuine events -/

/-- The client answers every request, and the claimed event is among the logs of a successful transaction to the
contract, in a confirmed and recent block. -/
structure Genuine (client : EthereumRpcClient) (now : Seconds) (s : State K A) (claim : EventClaim)
    (receipt : TransactionReceipt) (latest observed : EthBlock) : Prop where
  received : client.getTransactionReceipt claim.txHash = .ok (some receipt)
  success : receipt.status.getD 0 ≠ 0
  addressed : receipt.receiver = some claim.contractAddress
  logged : ∃ log ∈ receipt.logs, log.transactionHash = some claim.txHash ∧ log.address = claim.contractAddress ∧
    log.data = claim.data ∧ claim.eventSignature ∈ log.topics
  latestBlock : client.getBlockByNumber .latest = .ok (some latest)
  observedBlock : client.getBlockByNumber (.number receipt.blockNumber) = .ok (some observed)
  confirmed : s.eventConfirmations.toNat ≤ (latest.number.getD 0).toNat - receipt.blockNumber.toNat
  estimate : ((latest.number.getD 0).toNat - receipt.blockNumber.toNat) * 14 ≤ s.eventDeadlineSeconds.toNat
  recent : now.toNat - observed.timestamp.toNat ≤ s.eventDeadlineSeconds.toNat

/-- The first log with the signature among its topics is of the contract and has the data. -/
def FirstMatches (claim : EventClaim) (receipt : TransactionReceipt) : Prop :=
  ∀ log, matchingLog claim receipt = some log → log.data = claim.data ∧ log.address = claim.contractAddress

section
variable {client : EthereumRpcClient} {now : Seconds} {s : State K A} {claim : EventClaim}
  {receipt : TransactionReceipt} {latest observed : EthBlock}

theorem Genuine.timely (G : Genuine client now s claim receipt latest observed) :
    Timely client now s receipt latest observed where
  latestBlock := G.latestBlock
  observedBlock := G.observedBlock
  confirmed := G.confirmed
  -- the product fits, since the deadline does
  estimate := (Nat.mod_le _ _).trans G.estimate
  recent := Nat.sub_le_iff_le_add'.mp G.recent

theorem Genuine.matchingLog_isSome (G : Genuine client now s claim receipt latest observed) :
    ∃ log, matchingLog claim receipt = some log := by
  obtain ⟨log, hlog, hha, -, -, hto⟩ := G.logged
  refine Option.isSome_iff_exists.mp (find?_isSome.mpr ⟨log, hlog, ?_⟩)
  rw [decide_eq_true hha, contains_iff_mem.mpr hto]
  rfl

/-- A genuine event is recognised exactly if the first log with its signature is its own. -/
theorem genuine_recognised_iff (G : Genuine client now s claim receipt latest observed) :
    offchainTryNotarizeEvent client now s claim = .valid ↔ FirstMatches claim receipt := by
  have hage : checkAge client now s receipt = .valid := checkAge_valid_iff.mpr ⟨latest, observed, G.timely⟩
  rw [offchainTryNotarizeEvent_valid_iff]
  constructor
  · rintro ⟨receipt', hre, -, -, ⟨log, hlog, hda, had⟩, -⟩ log' hlo'
    cases G.received.symm.trans hre
    cases hlog.symm.trans hlo'
    exact ⟨hda, had⟩
  · intro hfi
    obtain ⟨log, hlog⟩ := G.matchingLog_isSome
    exact ⟨receipt, G.received, G.success, G.addressed, ⟨log, hlog, hfi log hlog⟩, hage⟩

end

def depositsReceipt (data : List Bytes) : TransactionReceipt where
  blockNumber := 100
  logs := data.map fun d => { address := 1, topics := [2], data := d, transactionHash := some 5 }
  status := some 1
  receiver := some 1

def depositsClient (data : List Bytes) : EthereumRpcClient where
  getBlockByNumber _ := .ok (some { number := some 110, timestamp := 1000 })
  getTransactionReceipt _ := .ok (some (depositsReceipt data))

theorem depositsClient_genuine {data : List Bytes} (h : [] ∈ data) :
    Genuine (depositsClient data) 1100 (State.genesis [] : State Nat Nat) claimOfEvent (depositsReceipt data)
      { number := some 110, timestamp := 1000 } { number := some 110, timestamp := 1000 } where
  received := rfl
  success := (by decide : (1 : BitVec 64) ≠ 0)
  addressed := rfl
  logged := ⟨_, mem_map_of_mem h, rfl, rfl, rfl, mem_singleton.mpr rfl⟩
  latestBlock := rfl
  observedBlock := rfl
  confirmed := (by decide : 3 ≤ 110 - 100)
  estimate := (by decide : (110 - 100) * 14 ≤ 604800)
  recent := by decide

theorem first_deposit_recognised :
    offchainTryNotarizeEvent (depositsClient [[], [7]]) 1100 (State.genesis [] : State Nat Nat) claimOfEvent = .valid := by
  refine (genuine_recognised_iff (depositsClient_genuine mem_cons_self)).mpr fun log hlog => ?_
  cases hlog
  exact ⟨rfl, rfl⟩

theorem second_deposit_refused :
    Genuine (depositsClient [[7], []]) 1100 (State.genesis [] : State Nat Nat) claimOfEvent (depositsReceipt [[7], []])
        { number := some 110, timestamp := 1000 } { number := some 110, timestamp := 1000 } ∧
      offchainTryNotarizeEvent (depositsClient [[7], []]) 1100 (State.genesis [] : State Nat Nat) claimOfEvent =
        .unexpectedData :=
  ⟨depositsClient_genuine (mem_cons_of_mem _ mem_cons_self), by decide⟩

end EthBridge
