import Cennznet.EthyGadget.Encoding
import Cennznet.Theorems.Erc20Peg.Deposit
import Cennznet.Theorems.EthBridge.SigningRequests

/-! # Messages that are signed

The length of a message tells its kind as long as the next set is not empty. -/

namespace EthyGadget

open Steps List
open EthBridge
open Erc20Peg (WithdrawMessage addressWord addressWord_length)

inductive SigningRequest where
  | withdrawal (message : WithdrawMessage) (validatorSetId : ValidatorSetId) (proofId : EventId)
  | setChange (nextSetId : ValidatorSetId) (addresses : List EthAddress) (activeSetId : ValidatorSetId) (proofId : EventId)
deriving DecidableEq

namespace SigningRequest

def proofId : SigningRequest → EventId
  | withdrawal _ _ proofId => proofId
  | setChange _ _ _ proofId => proofId

def Whole : SigningRequest → Prop
  | withdrawal _ _ _ => True
  | setChange _ addresses _ _ => addresses ≠ []

def encode : SigningRequest → Bytes
  | withdrawal message validatorSetId proofId => message.encode ++ abiEncode validatorSetId ++ abiEncode proofId
  | setChange nextSetId addresses activeSetId proofId =>
    abiEncode (4 * 32) ++ abiEncode nextSetId ++ abiEncode activeSetId ++ abiEncode proofId ++
      abiEncode (BitVec.ofNat 64 addresses.length) ++ addresses.flatMap addressWord

end SigningRequest

theorem abiEncode_eq_encode (n : BitVec 64) : abiEncode n = BigEndian.encode 32 n.toNat := by
  rw [BigEndian.encode_eq_map]
  unfold abiEncode
  refine map_congr_left fun i _ => BitVec.eq_of_toNat_eq ?_
  have hf : n.toNat < 2 ^ 256 := Nat.lt_trans n.isLt (by decide)
  rw [BitVec.toNat_setWidth, BitVec.toNat_ushiftRight, BitVec.toNat_setWidth, Nat.mod_eq_of_lt hf,
    Nat.shiftRight_eq_div_pow, Nat.pow_mul, BitVec.toNat_ofNat]

theorem encode_toNat_inj {w k : Nat} {x y : BitVec w} (hwi : 2 ^ w ≤ 256 ^ k)
    (h : BigEndian.encode k x.toNat = BigEndian.encode k y.toNat) : x = y :=
  BitVec.eq_of_toNat_eq (BigEndian.encode_inj (Nat.lt_of_lt_of_le x.isLt hwi) (Nat.lt_of_lt_of_le y.isLt hwi) h)

theorem abiEncode_inj {m n : BitVec 64} (h : abiEncode m = abiEncode n) : m = n := by
  rw [abiEncode_eq_encode, abiEncode_eq_encode] at h
  exact encode_toNat_inj (by decide) h

theorem addressWord_inj {a b : EthAddress} (h : addressWord a = addressWord b) : a = b :=
  encode_toNat_inj (by decide) (append_cancel_left h)

theorem length_addressWords (addrs : List EthAddress) : (addrs.flatMap addressWord).length = 32 * addrs.length := by
  induction addrs with
  | nil => rfl
  | cons addr addrs ih =>
    rw [flatMap_cons, length_append, addressWord_length, ih, length_cons]
    omega

theorem length_withdrawMessage (m : WithdrawMessage) : m.encode.length = 96 := by
  unfold WithdrawMessage.encode
  rw [length_append, length_append, addressWord_length, addressWord_length, BigEndian.length_encode]

theorem withdrawMessage_inj {m m' : WithdrawMessage} (h : m.encode = m'.encode) : m = m' := by
  obtain ⟨hfr, hbe⟩ := append_inj' h (by rw [addressWord_length, addressWord_length])
  obtain ⟨htok, hamo⟩ := append_inj' hfr (by rw [BigEndian.length_encode, BigEndian.length_encode])
  cases m
  cases m'
  rw [WithdrawMessage.mk.injEq]
  exact ⟨addressWord_inj htok, encode_toNat_inj (by decide) hamo, addressWord_inj hbe⟩

theorem last_word_inj {l l' : Bytes} {m n : BitVec 64} (h : l ++ abiEncode m = l' ++ abiEncode n) : l = l' ∧ m = n := by
  obtain ⟨hfr, hl⟩ := append_inj' h (by rw [length_abiEncode, length_abiEncode])
  exact ⟨hfr, abiEncode_inj hl⟩

/-! ### Requests -/

namespace SigningRequest

theorem length_withdrawal (msg : WithdrawMessage) (setId proofId : BitVec 64) :
    (withdrawal msg setId proofId).encode.length = 160 := by
  unfold encode
  rw [length_append, length_append, length_withdrawMessage, length_abiEncode, length_abiEncode]

theorem length_setChange (nextSetId : ValidatorSetId) (addrs : List EthAddress) (activeSetId proofId : BitVec 64) :
    (setChange nextSetId addrs activeSetId proofId).encode.length = 160 + 32 * addrs.length := by
  unfold encode
  simp only [length_append, length_abiEncode, length_addressWords]

theorem withdrawal_inj {m m' : WithdrawMessage} {setId setId' proofId proofId' : BitVec 64}
    (h : (withdrawal m setId proofId).encode = (withdrawal m' setId' proofId').encode) :
    withdrawal m setId proofId = withdrawal m' setId' proofId' := by
  obtain ⟨hwi, hpr⟩ := last_word_inj h
  obtain ⟨hme, hset⟩ := last_word_inj hwi
  rw [withdrawMessage_inj hme, hset, hpr]

theorem setChange_inj {next next' active active' proofId proofId' : BitVec 64} {addresses addresses' : List EthAddress}
    (h : (setChange next addresses active proofId).encode = (setChange next' addresses' active' proofId').encode) :
    setChange next addresses active proofId = setChange next' addresses' active' proofId' := by
  have hco : addresses.length = addresses'.length := by
    have hle := congrArg List.length h
    rw [length_setChange, length_setChange] at hle
    omega
  obtain ⟨hhe, hwo⟩ := append_inj' h (by rw [length_addressWords, length_addressWords, hco])
  have had : addresses = addresses' :=
    BigEndian.flatMap_inj (fun a b => by rw [addressWord_length, addressWord_length]) (fun _ _ => addressWord_inj) hco
      hwo
  obtain ⟨hids, -⟩ := last_word_inj hhe
  obtain ⟨hse, hpr⟩ := last_word_inj hids
  obtain ⟨hfi, hac⟩ := last_word_inj hse
  obtain ⟨-, hx⟩ := last_word_inj hfi
  rw [had, hpr, hac, hx]

theorem Whole.ne_withdrawal {next active proofId : BitVec 64} {addrs : List EthAddress}
    (hwh : (setChange next addrs active proofId).Whole) (m : WithdrawMessage) (setId id : BitVec 64) :
    (setChange next addrs active proofId).encode ≠ (withdrawal m setId id).encode := by
  intro h
  have hle := congrArg List.length h
  rw [length_setChange, length_withdrawal] at hle
  have hpo := length_pos_iff.mpr hwh
  omega

theorem encode_inj {r r' : SigningRequest} (hr : r.Whole) (hr' : r'.Whole) (h : r.encode = r'.encode) : r = r' := by
  cases r with
  | withdrawal m setId id =>
    cases r' with
    | withdrawal => exact withdrawal_inj h
    | setChange => exact absurd h.symm (hr'.ne_withdrawal m setId id)
  | setChange =>
    cases r' with
    | withdrawal m setId id => exact absurd h (hr.ne_withdrawal m setId id)
    | setChange => exact setChange_inj h

end SigningRequest

section
variable {Au A : Type}

/-- The message signed for a log while `active` is the id of the active set. -/
def signedMessage (toEthereum : Au → EthAddress) (active : ValidatorSetId) : EthBridge.ConsensusLog Au → Bytes
  | .opaqueSigningRequest message _ => message
  | .pendingAuthoritiesChange next proofId =>
    abiEncodeValidatorSetChange toEthereum ⟨next.validators, next.id⟩ active proofId

def Asks (toEthereum : Au → EthAddress) (active : ValidatorSetId) : EthBridge.ConsensusLog Au → SigningRequest → Prop
  | .opaqueSigningRequest _ id, r => ∃ m setId, r = .withdrawal m setId id
  | .pendingAuthoritiesChange next id, r => r = .setChange next.id (next.validators.map toEthereum) active id

theorem Asks.proofId {toEth : Au → EthAddress} {active : ValidatorSetId}
    {log : EthBridge.ConsensusLog Au} {r : SigningRequest} (h : Asks toEth active log r) :
    r.proofId = log.proofId := by
  cases log with
  | opaqueSigningRequest =>
    obtain ⟨m, setId, rfl⟩ := h
    rfl
  | pendingAuthoritiesChange =>
    cases h
    rfl

theorem extractProofRequests_messages {Sig : Type} {cfg : Config Au Sig} {toEth : Au → EthAddress}
    (hcfg : cfg.abiEncodeValidatorSetChange = abiEncodeValidatorSetChange toEth) {header : Header Au}
    {logs : List (EthBridge.ConsensusLog Au)} (hlo : header.logs = logs.map readLog) (active : ValidatorSetId) :
    (Worker.extractProofRequests cfg header active).map (fun request => (request.message, request.eventId)) =
      logs.map fun log => (signedMessage toEth active log, log.proofId) := by
  unfold Worker.extractProofRequests
  rw [hlo, filterMap_map, hcfg, map_filterMap, ← filterMap_eq_map]
  congr 1
  funext log
  cases log <;> rfl

theorem encode_setChange (toEth : Au → EthAddress) (next : ValidatorSet Au) (active : ValidatorSetId)
    (proofId : EventId) : abiEncodeValidatorSetChange toEth next active proofId =
      (SigningRequest.setChange next.id (next.validators.map toEth) active proofId).encode := by
  rw [SigningRequest.encode, length_map, flatMap_map]
  rfl

end

section
variable {K A : Type}

def Packed (message : Bytes) (id : EventProofId) : Prop :=
  ∃ m setId, message = (SigningRequest.withdrawal m setId id).encode

def PegProof (op : EthBridge.Op K A) : Prop :=
  ∀ event, op.call = .generateEventProof event → ∃ m : WithdrawMessage, event = m.encode

structure AllPacked (p : Signing K) : Prop where
  delayed : ∀ id message, p.delayed.get? id = some message → Packed message id
  digest : ∀ message id, .opaqueSigningRequest message id ∈ p.digest → Packed message id

theorem genesis_allPacked (keys : List K) (dl : Seconds) :
    AllPacked (State.genesis keys dl : State K A).signing where
  delayed _ _ h := by cases h
  digest _ _ h := by cases h

theorem AllPacked.place {p : Signing K} (A : AllPacked p) {log : EthBridge.ConsensusLog K}
    (hlog : ∀ msg id, log = .opaqueSigningRequest msg id → Packed msg id) (nextId : EventProofId)
    (nextKeys : List K) : AllPacked { p with nextId := nextId, digest := p.digest ++ [log], nextKeys := nextKeys } := by
  refine ⟨A.delayed, fun msg id hmem => ?_⟩
  rcases mem_append.mp hmem with hold | hnew
  · exact A.digest msg id hold
  · exact hlog msg id (mem_singleton.mp hnew).symm

theorem packed_of_pegProof {op : EthBridge.Op K A} (hpeg : PegProof op) {ev : Bytes}
    (hc : op.call = .generateEventProof ev) (setId : ValidatorSetId) (id : EventProofId) :
    Packed (ev ++ abiEncode setId ++ abiEncode id) id := by
  obtain ⟨m, rfl⟩ := hpeg ev hc
  exact ⟨m, setId, rfl⟩

theorem AllPacked.keep {op : EthBridge.Op K A} {p p' : Signing K} (A : AllPacked p) (hpeg : PegProof op)
    (E : SigningEffect op p p') : AllPacked p' := by
  cases E with
  | frame same => rwa [same]
  | request ev asked hc =>
    rw [asked]
    refine A.place ?_ (p.nextId + 1) p.nextKeys
    intro msg id hlog
    cases hlog
    exact packed_of_pegProof hpeg hc p.setId p.nextId
  | delay ev kept hc =>
    rw [kept]
    refine ⟨fun id msg hget => ?_, A.digest⟩
    rcases StorageMap.get?_insert_eq_some.mp hget with ⟨rfl, rfl⟩ | ⟨-, hold⟩
    · exact packed_of_pegProof hpeg hc p.setId p.nextId
    · exact A.delayed id msg hold
  | send prs waiting distinct sent =>
    rw [sent]
    refine ⟨fun id msg hget => A.delayed id msg (StorageMap.get?_removeAll_eq_some.mp hget).2, ?_⟩
    intro msg id hmem
    rcases mem_append.mp hmem with hold | hnew
    · exact A.digest msg id hold
    · obtain ⟨e, he, heq⟩ := mem_map.mp hnew
      cases heq
      exact A.delayed e.1 e.2 (waiting e he)
  | announce session set announced =>
    rw [announced]
    exact A.place (fun _ _ hlog => by cases hlog) (p.nextId + 1) set.validators
  | rotate rotates next =>
    rw [next]
    exact ⟨A.delayed, A.digest⟩

/-- The step neither wraps the counter of proofs nor asks for a proof of anything but a withdrawal. -/
def Regular [DecidableEq K] (cfg : EthBridge.Config) (s : State K A) (op : EthBridge.Op K A) : Prop :=
  PegProof op ∧ s.nextProofId.toNat ≤ (step cfg s op).nextProofId.toNat

theorem exists_asks {p : Signing K} (A : AllPacked p)
    (hse : ∀ next id, .pendingAuthoritiesChange next id ∈ p.digest → next.validators ≠ [])
    (toEth : K → EthAddress) {log : EthBridge.ConsensusLog K} (hlog : log ∈ p.digest)
    (active : ValidatorSetId) :
    ∃ r : SigningRequest, r.Whole ∧ Asks toEth active log r ∧ signedMessage toEth active log = r.encode := by
  cases log with
  | opaqueSigningRequest msg id =>
    obtain ⟨m, setId, hme⟩ := A.digest msg id hlog
    exact ⟨.withdrawal m setId id, trivial, ⟨m, setId, rfl⟩, hme⟩
  | pendingAuthoritiesChange next id =>
    refine ⟨.setChange next.id (next.validators.map toEth) active id, ?_, rfl, encode_setChange _ _ _ _⟩
    exact fun hey => hse next id hlog (map_eq_nil_iff.mp hey)

/-- In a run without wrap-around of the proof id in which no announced set is empty, the worker signs one message for
each log of a block, that of its request. Different requests have different messages, and a message determines its
request. -/
theorem messages_never_collide [DecidableEq K] (cfg : EthBridge.Config) (toEthereum : K → EthAddress)
    (notaryKeys : List K) (deadline : Seconds) (ops : List (EthBridge.Op K A))
    (hrun : Each (step cfg) (Regular cfg) (.genesis notaryKeys deadline) ops)
    (hsets : ∀ next id, .pendingAuthoritiesChange next id ∈
      (execute (step cfg) (.genesis notaryKeys deadline) ops).digest → next.validators ≠ []) :
    (∀ (Sig : Type) (worker : Config K Sig) (header : Header K)
        (logs : List (EthBridge.ConsensusLog K)) (active : ValidatorSetId),
      worker.abiEncodeValidatorSetChange = abiEncodeValidatorSetChange toEthereum → header.logs = logs.map readLog →
      (Worker.extractProofRequests worker header active).map (fun request => (request.message, request.eventId)) =
        logs.map fun log => (signedMessage toEthereum active log, log.proofId)) ∧
    (∀ log ∈ (execute (step cfg) (.genesis notaryKeys deadline) ops).digest, ∀ active,
      ∃ r : SigningRequest, r.Whole ∧ Asks toEthereum active log r ∧ signedMessage toEthereum active log = r.encode) ∧
    (execute (step cfg) (.genesis notaryKeys deadline) ops).digest.Pairwise (fun log log' =>
      ∀ active active', signedMessage toEthereum active log ≠ signedMessage toEthereum active' log') ∧
    ∀ r r' : SigningRequest, r.Whole → r'.Whole → r.encode = r'.encode → r = r' := by
  have hpa : ∀ (s : State K A) op, Regular cfg s op → AllPacked s.signing →
      AllPacked (step cfg s op).signing :=
    fun s op hop A => A.keep hop.1 (step_signing cfg s op)
  have hnu : ∀ (s : State K A) op, Regular cfg s op → s.signing.Numbered →
      (step cfg s op).signing.Numbered :=
    fun s op hop N => (step_signing cfg s op).numbered N hop.2
  have A := hrun.invariant hpa (genesis_allPacked notaryKeys deadline)
  have N := hrun.invariant hnu (genesis_numbered notaryKeys deadline)
  refine ⟨fun _ _ _ _ active hwo hlo => extractProofRequests_messages hwo hlo active,
    fun _ hlog active => exists_asks A hsets toEthereum hlog active, ?_, fun _ _ => SigningRequest.encode_inj⟩
  refine (pairwise_map.mp N.once).imp_of_mem fun hlog hlo' hne active active' heq => hne ?_
  obtain ⟨r, hr, had, hme⟩ := exists_asks A hsets toEthereum hlog active
  obtain ⟨r', hr', has', hme'⟩ := exists_asks A hsets toEthereum hlo' active'
  have hs : r = r' := SigningRequest.encode_inj hr hr' (by rw [← hme, ← hme', heq])
  rw [← had.proofId, ← has'.proofId, hs]

def announcedBetween : List (EthBridge.Op Nat Nat) :=
  [plainOp 100 [7, 8] (.generateEventProof (WithdrawMessage.encode ⟨1, 5, 2⟩)),
    ⟨{ now := 100, validators := [7, 8], isNextSessionFinal := true }, .onNewSession [11, 12] [21, 22]⟩,
    ⟨{ now := 100, validators := [7, 8], isActiveSessionFinal := true }, .onNewSession [11, 12] [21, 22]⟩,
    plainOp 100 [7, 8] (.generateEventProof (WithdrawMessage.encode ⟨1, 5, 2⟩)),
    ⟨{ now := 100, validators := [7, 8], isActiveSessionFinal := true }, .onBeforeSessionEnding⟩,
    plainOp 100 [7, 8] (.onInitialize 1)]

theorem announcedBetween_signed : (execute (step runtimeConfig) (.genesis [11, 12]) announcedBetween).digest.map
        EthBridge.ConsensusLog.proofId = [0, 1, 2] ∧
      (execute (step runtimeConfig) (.genesis [11, 12]) announcedBetween).digest.Pairwise
        (fun log log' => ∀ active active',
          signedMessage (BitVec.ofNat 160) active log ≠ signedMessage (BitVec.ofNat 160) active' log') := by
  have hrun : Each (step runtimeConfig) (Regular runtimeConfig) (.genesis [11, 12])
      announcedBetween := by
    refine ⟨⟨?_, by decide⟩, ⟨?_, by decide⟩, ⟨?_, by decide⟩, ⟨?_, by decide⟩, ⟨?_, by decide⟩, ⟨?_, by decide⟩, trivial⟩ <;>
      intro ev hc <;> cases hc <;> exact ⟨⟨1, 5, 2⟩, rfl⟩
  have hse : ∀ next id, .pendingAuthoritiesChange next id ∈
      (execute (step runtimeConfig) (.genesis [11, 12]) announcedBetween).digest →
        next.validators ≠ [] := by
    have hdi : (execute (step runtimeConfig) (.genesis [11, 12]) announcedBetween).digest =
        [.opaqueSigningRequest (SigningRequest.withdrawal ⟨1, 5, 2⟩ 0 0).encode 0, .pendingAuthoritiesChange ⟨[21, 22], 1⟩ 1,
          .opaqueSigningRequest (SigningRequest.withdrawal ⟨1, 5, 2⟩ 0 2).encode 2] := rfl
    intro next id hmem
    rw [hdi] at hmem
    simp only [mem_cons, reduceCtorEq, EthBridge.ConsensusLog.pendingAuthoritiesChange.injEq, not_mem_nil,
      false_or, or_false] at hmem
    rw [hmem.1]
    decide
  exact ⟨by decide, (messages_never_collide _ (BitVec.ofNat 160) [11, 12] _ announcedBetween hrun hse).2.2.1⟩

end

end EthyGadget
