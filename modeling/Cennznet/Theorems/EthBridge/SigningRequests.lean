import Cennznet.Lib.Run
import Cennznet.Theorems.EthBridge.Claims

/-! # Signing requests

While the bridge is paused a request waits, and the set that it names may change. -/

namespace EthBridge

open StorageMap Steps List

variable {K A : Type}

/-! ### Requests in the digest -/

def ConsensusLog.requested? : ConsensusLog K → Option EventProofId
  | .opaqueSigningRequest _ id => some id
  | .pendingAuthoritiesChange _ _ => none

def requested (digest : List (ConsensusLog K)) : List EventProofId := digest.filterMap ConsensusLog.requested?

def setWord (ms : Bytes) : Bytes := (ms.drop (ms.length - 64)).take 32

/-- The requests placed in the digest name the notary set in force after the step. -/
def NamesSet [DecidableEq K] (cfg : Config) (s : State K A) (op : Op K A) : Prop :=
  ∃ placed, (step cfg s op).digest = s.digest ++ placed ∧ ∀ ms id, .opaqueSigningRequest ms id ∈ placed →
    setWord ms = abiEncode (step cfg s op).notarySetId

@[simp] theorem length_abiEncode (n : BitVec 64) : (abiEncode n).length = 32 := by
  simp [abiEncode]

theorem setWord_packed (ev : Bytes) (setId id : BitVec 64) :
    setWord (ev ++ abiEncode setId ++ abiEncode id) = abiEncode setId := by
  unfold setWord
  have hlen : (ev ++ abiEncode setId ++ abiEncode id).length - 64 = ev.length := by simp
  rw [hlen, append_assoc, drop_left, take_left' (length_abiEncode setId)]

def ConsensusLog.proofId : ConsensusLog K → EventProofId
  | .opaqueSigningRequest _ id => id
  | .pendingAuthoritiesChange _ id => id

theorem requested_sublist (digest : List (ConsensusLog K)) :
    (requested digest).Sublist (digest.map ConsensusLog.proofId) := by
  induction digest with
  | nil => exact List.Sublist.refl _
  | cons log digest ih =>
    cases log with
    | opaqueSigningRequest => exact ih.cons_cons _
    | pendingAuthoritiesChange => exact ih.cons _

/-! ### What a step does to the requests -/

structure Signing (K : Type) where
  delayed : StorageMap EventProofId Bytes
  nextId : EventProofId
  setId : BitVec 64
  digest : List (ConsensusLog K)
  keys : List K
  nextKeys : List K

def State.signing (s : State K A) : Signing K where
  delayed := s.delayedEventProofs
  nextId := s.nextProofId
  setId := s.notarySetId
  digest := s.digest
  keys := s.notaryKeys
  nextKeys := s.nextNotaryKeys

def Op.isSession (op : Op K A) : Bool :=
  match op.call with
  | .onNewSession _ _ | .onBeforeSessionEnding => true
  | _ => false

def Rotates (op : Op K A) : Bool :=
  match op.call with
  | .onBeforeSessionEnding => op.env.isActiveSessionFinal
  | _ => false

inductive SigningEffect (op : Op K A) (p p' : Signing K) : Prop
  | frame (same : p' = p)
  | request (event : Bytes) (asked : p' = { p with
      nextId := p.nextId + 1
      digest := p.digest ++ [.opaqueSigningRequest (event ++ abiEncode p.setId ++ abiEncode p.nextId) p.nextId] })
      (call : op.call = .generateEventProof event)
  | delay (event : Bytes) (kept : p' = { p with
      nextId := p.nextId + 1
      delayed := p.delayed.insert p.nextId (event ++ abiEncode p.setId ++ abiEncode p.nextId) })
      (call : op.call = .generateEventProof event)
  | send (proofs : List (EventProofId × Bytes)) (waiting : ∀ e ∈ proofs, p.delayed.get? e.1 = some e.2)
      (distinct : (proofs.map Prod.fst).Nodup) (sent : p' = { p with
        delayed := p.delayed.removeAll (proofs.map Prod.fst)
        digest := p.digest ++ proofs.map fun e => .opaqueSigningRequest e.2 e.1 })
  | announce (session : op.isSession = true) (set : ValidatorSet K) (announced : p' = { p with
      nextId := p.nextId + 1
      digest := p.digest ++ [.pendingAuthoritiesChange set p.nextId]
      nextKeys := set.validators })
  | rotate (rotates : Rotates op = true) (next : p' = { p with
      setId := p.setId + 1
      keys := p.nextKeys
      nextKeys := [] })

section
variable {cfg : Config} {env : Env A} {s s' : State K A}

theorem sendDelayedProofs_signing (prs : List (EventProofId × Bytes)) (s : State K A) :
    (prs.foldl sendDelayedProof s).signing = { s.signing with
      delayed := s.delayedEventProofs.removeAll (prs.map Prod.fst)
      digest := s.digest ++ prs.map fun e => .opaqueSigningRequest e.2 e.1 } := by
  induction prs generalizing s with
  | nil =>
    rw [map_nil, map_nil, append_nil]
    rfl
  | cons proof prs ih =>
    rw [foldl_cons, ih (sendDelayedProof s proof), map_cons, map_cons, append_cons s.digest]
    rfl

theorem processDelayedProofs_signing (op : Op K A) (s : State K A) :
    SigningEffect op s.signing (processDelayedProofs cfg s).signing := by
  unfold processDelayedProofs
  split
  · exact .frame rfl
  · refine .send _ (fun e he => ?_) ?_ (sendDelayedProofs_signing _ s)
    · exact mem_iterBy.mp (mem_of_mem_take he)
    · exact (s.delayedEventProofs.nodup_iterBy_keys _).sublist ((take_sublist _ _).map Prod.fst)

variable {op : Op K A}

theorem generateEventProof_signing {ev : Bytes} (hc : op.call = .generateEventProof ev)
    (s : State K A) : SigningEffect op s.signing (generateEventProof s ev).1.signing := by
  unfold generateEventProof
  dsimp only
  split
  · exact .delay ev rfl hc
  · exact .request ev rfl hc

theorem onNewSession_signing (hse : op.isSession = true) (s : State K A)
    (vs queued : List K) : SigningEffect op s.signing (onNewSession env s vs queued).signing := by
  unfold onNewSession handleAuthoritiesChange
  split
  · split
    · exact .announce hse _ rfl
    · split
      · dsimp only
        split
        · exact .announce hse _ rfl
        · exact .frame rfl
      · exact .frame rfl
  · exact .frame rfl

theorem ClaimsOnly.signing (h : ClaimsOnly s s') : s'.signing = s.signing := by
  unfold ClaimsOnly at h
  have hvi := congrArg State.signing h
  exact hvi

variable [DecidableEq K]

theorem handleNotarization_signing {pl : NotarizationPayload} {nt : K}
    (h : handleNotarization cfg env s pl nt = .ok s') : s'.signing = s.signing := by
  cases pl with
  | call cid i r =>
    simp only [handleNotarization, handleCallNotarization] at h
    split at h
    · cases h
    · split at h
      · cases h
        rfl
      · split at h <;> cases h <;> rfl
  | event id i r =>
    simp only [handleNotarization, handleEventNotarization] at h
    split at h
    · cases h
    · have hk := (decideClaim_claimsOnly h).signing
      exact hk

theorem submitNotarization_signing {pl : NotarizationPayload}
    (h : submitNotarization cfg env s pl = .ok s') : s'.signing = s.signing := by
  obtain ⟨nt, -, t, ht, rfl⟩ := submitNotarization_eq_ok.mp h
  have hk := handleNotarization_signing ht
  exact hk

theorem dispatch_signing (h : dispatch cfg op.env s op.call = .ok s') : SigningEffect op s.signing s'.signing := by
  cases hc : op.call with
  | onInitialize bn =>
    rw [hc] at h
    rcases onInitialize_inv h with ⟨bk, -, -, rfl⟩ | rfl
    · exact processDelayedProofs_signing op (pruneBucket s bk)
    · exact processDelayedProofs_signing op s
  | setEventConfirmations | setEventDeadline | setDelayedEventProofsPerBlock | checkedEthCall =>
    rw [hc] at h
    cases h
    exact .frame rfl
  | submitNotarization pl =>
    rw [hc] at h
    exact .frame (submitNotarization_signing h)
  | submitEventClaim con sig tx data =>
    rw [hc] at h
    obtain ⟨r, hsu, rfl⟩ := Result.map_eq_ok.mp h
    exact .frame ((submitEventClaim_claimsOnly hsu).signing)
  | generateEventProof ev =>
    rw [hc] at h
    cases h
    exact generateEventProof_signing hc s
  | onNewSession vs queued =>
    rw [hc] at h
    cases h
    exact onNewSession_signing (by rw [Op.isSession, hc]) s vs queued
  | onBeforeSessionEnding =>
    rw [hc] at h
    cases h
    unfold onBeforeSessionEnding
    split_ifs with hfi
    · exact .rotate (by rw [Rotates, hc, hfi]) rfl
    · exact .frame rfl

theorem step_signing (cfg : Config) (s : State K A) (op : Op K A) :
    SigningEffect op s.signing (step cfg s op).signing := by
  unfold step
  split
  · exact dispatch_signing ‹_›
  · exact .frame rfl

theorem step_keys (cfg : Config) (s : State K A) (hop : op.isSession = false) :
    (step cfg s op).notaryKeys = s.notaryKeys ∧ (step cfg s op).nextNotaryKeys = s.nextNotaryKeys := by
  suffices h : (step cfg s op).signing.keys = s.signing.keys ∧ (step cfg s op).signing.nextKeys = s.signing.nextKeys from h
  cases step_signing cfg s op with
  | frame h | request _ h | delay _ h | send _ _ _ h =>
    rw [h]
    exact ⟨rfl, rfl⟩
  | announce session =>
    rw [hop] at session
    cases session
  | rotate rotates =>
    unfold Rotates at rotates
    unfold Op.isSession at hop
    split at rotates
    · rename_i hc
      rw [hc] at hop
      cases hop
    · cases rotates

end

def Signing.Named (p : Signing K) : Prop :=
  ∀ id ms, p.delayed.get? id = some ms → setWord ms = abiEncode p.setId

structure Signing.Numbered (p : Signing K) : Prop where
  waiting : ∀ id ms, p.delayed.get? id = some ms → id.toNat < p.nextId.toNat ∧ id ∉ p.digest.map ConsensusLog.proofId
  counted : ∀ id ∈ p.digest.map ConsensusLog.proofId, id.toNat < p.nextId.toNat
  once : (p.digest.map ConsensusLog.proofId).Nodup

/-- No request waits when the notary set changes, and proof ids have not run out. -/
def Settled (s : State K A) (op : Op K A) : Prop :=
  (Rotates op = true → s.delayedEventProofs.entries = []) ∧ s.nextProofId.toNat + 1 < 2 ^ 64

instance (s : State K A) (op : Op K A) : Decidable (Settled s op) :=
  inferInstanceAs (Decidable (_ ∧ _))

section
variable {op : Op K A} {p p' : Signing K}

theorem toNat_succ_of_le {n : BitVec 64} (h : n.toNat ≤ (n + 1).toNat) : (n + 1).toNat = n.toNat + 1 := by
  have hlt := n.isLt
  have hsu : (n + 1).toNat = (n.toNat + 1) % 2 ^ 64 := BitVec.toNat_add n 1
  omega

theorem Signing.Numbered.fresh (N : p.Numbered) : p.nextId ∉ p.digest.map ConsensusLog.proofId :=
  fun h => Nat.lt_irrefl _ (N.counted _ h)

theorem Signing.Numbered.place (N : p.Numbered) (hup : p.nextId.toNat ≤ (p.nextId + 1).toNat) {log : ConsensusLog K}
    (hid : log.proofId = p.nextId) (nextKeys : List K) :
    Signing.Numbered { p with nextId := p.nextId + 1, digest := p.digest ++ [log], nextKeys := nextKeys } := by
  have hx := toNat_succ_of_le hup
  have hmo : (p.digest ++ [log]).map ConsensusLog.proofId = p.digest.map ConsensusLog.proofId ++ [p.nextId] := by
    rw [map_append, map_singleton, hid]
  constructor
  · intro id msg hget
    obtain ⟨hlt, hnot⟩ := N.waiting id msg hget
    refine ⟨by dsimp only; omega, ?_⟩
    rw [hmo, mem_append, mem_singleton, not_or]
    refine ⟨hnot, ?_⟩
    rintro rfl
    exact Nat.lt_irrefl _ hlt
  · intro id hmem
    rw [hmo, mem_append, mem_singleton] at hmem
    dsimp only
    rcases hmem with hold | rfl
    · have := N.counted id hold
      omega
    · omega
  · rw [hmo]
    exact nodup_append_comm.mp (nodup_cons.mpr ⟨N.fresh, N.once⟩)

theorem Signing.Numbered.delay (N : p.Numbered) (hup : p.nextId.toNat ≤ (p.nextId + 1).toNat) (msg : Bytes) :
    Signing.Numbered { p with nextId := p.nextId + 1, delayed := p.delayed.insert p.nextId msg } := by
  have hx := toNat_succ_of_le hup
  refine ⟨fun id m hget => ?_, fun id hmem => ?_, N.once⟩
  · dsimp only
    rcases get?_insert_eq_some.mp hget with ⟨rfl, -⟩ | ⟨-, hold⟩
    · exact ⟨by omega, N.fresh⟩
    · obtain ⟨hlt, hnot⟩ := N.waiting id m hold
      exact ⟨by omega, hnot⟩
  · have := N.counted id hmem
    dsimp only
    omega

theorem Signing.Numbered.send (N : p.Numbered) {prs : List (EventProofId × Bytes)}
    (waiting : ∀ e ∈ prs, p.delayed.get? e.1 = some e.2) (distinct : (prs.map Prod.fst).Nodup) :
    Signing.Numbered { p with
      delayed := p.delayed.removeAll (prs.map Prod.fst)
      digest := p.digest ++ prs.map fun e => .opaqueSigningRequest e.2 e.1 } := by
  have hmo : List.map ConsensusLog.proofId (p.digest ++ prs.map fun e => .opaqueSigningRequest e.2 e.1) =
      p.digest.map ConsensusLog.proofId ++ prs.map Prod.fst := by
    rw [map_append, map_map]
    rfl
  have hwa : ∀ id ∈ prs.map Prod.fst, id.toNat < p.nextId.toNat ∧ id ∉ p.digest.map ConsensusLog.proofId := by
    intro id hid
    obtain ⟨e, he, rfl⟩ := mem_map.mp hid
    exact N.waiting e.1 e.2 (waiting e he)
  constructor
  · intro id msg hget
    obtain ⟨hk, hold⟩ := get?_removeAll_eq_some.mp hget
    obtain ⟨hlt, hnot⟩ := N.waiting id msg hold
    refine ⟨hlt, ?_⟩
    rw [hmo, mem_append, not_or]
    exact ⟨hnot, hk⟩
  · intro id hmem
    rw [hmo, mem_append] at hmem
    exact hmem.elim (N.counted id) fun hnew => (hwa id hnew).1
  · rw [hmo, nodup_append]
    exact ⟨N.once, distinct, fun id hid id' hid' heq => (hwa id' hid').2 (heq ▸ hid)⟩

theorem SigningEffect.numbered (E : SigningEffect op p p') (N : p.Numbered) (hup : p.nextId.toNat ≤ p'.nextId.toNat) :
    p'.Numbered := by
  cases E with
  | frame same => rwa [same]
  | request ev asked =>
    rw [asked] at hup ⊢
    exact N.place hup rfl p.nextKeys
  | delay ev kept =>
    rw [kept] at hup ⊢
    exact N.delay hup _
  | send prs waiting distinct sent =>
    rw [sent]
    exact N.send waiting distinct
  | announce session set announced =>
    rw [announced] at hup ⊢
    exact N.place hup rfl set.validators
  | rotate rotates next =>
    rw [next]
    exact ⟨N.waiting, N.counted, N.once⟩

theorem SigningEffect.counts_up (E : SigningEffect op p p') (hr : p.nextId.toNat + 1 < 2 ^ 64) :
    p.nextId.toNat ≤ p'.nextId.toNat := by
  have hsu : (p.nextId + 1).toNat = p.nextId.toNat + 1 := by
    rw [BitVec.toNat_add]
    exact Nat.mod_eq_of_lt hr
  cases E with
  | frame same | send _ _ _ same | rotate _ same => rw [same]
  | request _ next | delay _ next | announce _ _ next =>
    rw [next]
    dsimp only
    omega

theorem SigningEffect.named (E : SigningEffect op p p') (hna : p.Named)
    (hse : Rotates op = true → p.delayed.entries = []) : p'.Named := by
  cases E with
  | frame same => rwa [same]
  | request ev asked =>
    rw [asked]
    exact hna
  | delay ev kept =>
    rw [kept]
    intro id msg hget
    rcases get?_insert_eq_some.mp hget with ⟨-, rfl⟩ | ⟨-, hold⟩
    · exact setWord_packed ev p.setId p.nextId
    · exact hna id msg hold
  | send prs waiting distinct sent =>
    rw [sent]
    exact fun id msg hget => hna id msg (get?_removeAll_eq_some.mp hget).2
  | announce session set announced =>
    rw [announced]
    exact hna
  | rotate rotates next =>
    -- nothing waits, so no request is left with the old set
    rw [next]
    intro id msg hget
    have hmem := mem_entries.mpr hget
    rw [show p.delayed.entries = [] from hse rotates] at hmem
    cases hmem

theorem SigningEffect.names (E : SigningEffect op p p') (hna : p.Named) :
    ∃ placed, p'.digest = p.digest ++ placed ∧ ∀ msg id, .opaqueSigningRequest msg id ∈ placed →
      setWord msg = abiEncode p'.setId := by
  cases E with
  | frame same => exact ⟨[], by rw [same, append_nil], fun _ _ h => absurd h not_mem_nil⟩
  | request ev asked =>
    refine ⟨_, by rw [asked], fun msg id h => ?_⟩
    cases mem_singleton.mp h
    rw [asked]
    exact setWord_packed ev p.setId p.nextId
  | delay ev kept => exact ⟨[], by rw [kept, append_nil], fun _ _ h => absurd h not_mem_nil⟩
  | send prs waiting distinct sent =>
    refine ⟨_, by rw [sent], fun msg id h => ?_⟩
    obtain ⟨e, he, heq⟩ := mem_map.mp h
    cases heq
    rw [sent]
    exact hna e.1 e.2 (waiting e he)
  | announce session set announced =>
    refine ⟨_, by rw [announced], fun msg id h => ?_⟩
    cases mem_singleton.mp h
  | rotate rotates next => exact ⟨[], by rw [next, append_nil], fun _ _ h => absurd h not_mem_nil⟩

theorem genesis_named (keys : List K) (dl : Seconds) : (State.genesis keys dl : State K A).signing.Named :=
  fun _ _ h => by cases h

theorem genesis_numbered (keys : List K) (dl : Seconds) : (State.genesis keys dl : State K A).signing.Numbered where
  waiting _ _ h := by cases h
  counted _ h := by cases h
  once := nodup_nil

end

/-- In a run in which no request waits when the notary set changes and proof ids do not run out, every request names the
notary set in force when it is placed in the digest, and none is made twice. -/
theorem requests_name_their_set [DecidableEq K] (cfg : Config) (notaryKeys : List K) (deadline : Seconds)
    (ops : List (Op K A)) (hrun : Each (step cfg) Settled (State.genesis notaryKeys deadline) ops) :
    Each (step cfg) (NamesSet cfg) (State.genesis notaryKeys deadline) ops ∧
      (requested (execute (step cfg) (State.genesis notaryKeys deadline) ops).digest).Nodup := by
  have hna : ∀ (s : State K A) op, Settled s op → s.signing.Named → (step cfg s op).signing.Named :=
    fun s op hop hs => (step_signing cfg s op).named hs hop.1
  have hnu : ∀ (s : State K A) op, Settled s op → s.signing.Numbered → (step cfg s op).signing.Numbered :=
    fun s op hop hs => (step_signing cfg s op).numbered hs ((step_signing cfg s op).counts_up hop.2)
  exact ⟨hrun.imp hna (fun s op hs _ => (step_signing cfg s op).names hs) (genesis_named notaryKeys deadline),
    (hrun.invariant hnu (genesis_numbered notaryKeys deadline)).once.sublist (requested_sublist _)⟩

def provenAcrossRotation : List (Op Nat Nat) :=
  [plainOp 100 [7, 8] (.generateEventProof [1]),
    ⟨{ now := 100, validators := [7, 8], isNextSessionFinal := true }, .onNewSession [11, 12] [21, 22]⟩,
    ⟨{ now := 100, validators := [7, 8], isActiveSessionFinal := true }, .onNewSession [11, 12] [21, 22]⟩,
    ⟨{ now := 100, validators := [7, 8], isActiveSessionFinal := true }, .onBeforeSessionEnding⟩,
    plainOp 100 [7, 8] (.generateEventProof [1])]

theorem provenAcrossRotation_named :
    requested (execute (step runtimeConfig) (State.genesis [11, 12]) provenAcrossRotation).digest = [0, 2] ∧
      Each (step runtimeConfig) (NamesSet runtimeConfig) (State.genesis [11, 12]) provenAcrossRotation :=
  ⟨by decide, (requests_name_their_set runtimeConfig [11, 12] _ provenAcrossRotation (by decide +kernel)).1⟩

def provenWhilePaused : List (Op Nat Nat) :=
  [⟨{ now := 100, validators := [7, 8], isNextSessionFinal := true }, .onNewSession [11, 12] [21, 22]⟩,
    ⟨{ now := 100, validators := [7, 8], isActiveSessionFinal := true }, .onNewSession [11, 12] [21, 22]⟩,
    plainOp 100 [7, 8] (.generateEventProof [1]),
    ⟨{ now := 100, validators := [7, 8], isActiveSessionFinal := true }, .onBeforeSessionEnding⟩,
    plainOp 100 [7, 8] (.onInitialize 1)]

theorem provenWhilePaused_misnamed :
    (execute (step runtimeConfig) (State.genesis [11, 12]) provenWhilePaused).notarySetId = 1 ∧
      .opaqueSigningRequest ([1] ++ abiEncode 0 ++ abiEncode 1) 1 ∈
        (execute (step runtimeConfig) (State.genesis [11, 12]) provenWhilePaused).digest ∧
      ¬Each (step runtimeConfig) (NamesSet runtimeConfig) (State.genesis [11, 12]) provenWhilePaused := by
  refine ⟨by decide, by decide, fun h => ?_⟩
  obtain ⟨placed, hpl, hna⟩ := h.2.2.2.2.1
  have hlog := append_cancel_left (hpl.symm.trans (by rfl :
    _ = _ ++ [.opaqueSigningRequest ([1] ++ abiEncode 0 ++ abiEncode 1) 1]))
  have hwo := hna _ 1 (hlog ▸ mem_singleton_self _)
  revert hwo
  decide

end EthBridge
