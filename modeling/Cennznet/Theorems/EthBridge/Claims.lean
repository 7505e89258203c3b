import Cennznet.EthBridge
import Cennznet.Lib.Result
import Mathlib.Data.List.Basic

/-! # What a step does to the event claims -/

namespace EthBridge

open List

variable {K A : Type}

structure Claims (K : Type) where
  claims : StorageMap EventClaimId (EthHash × EventTypeId)
  votes : StorageMap (EventClaimId × K) EventClaimResult
  pending : StorageMap EthHash EventClaimId
  processed : StorageMap EthHash Unit
  buckets : StorageMap (BitVec 64 × EthHash) Unit
  deadline : Seconds

def State.claims (s : State K A) : Claims K where
  claims := s.eventClaims
  votes := s.eventNotarizations
  pending := s.pendingTxHashes
  processed := s.processedTxHashes
  buckets := s.processedTxBuckets
  deadline := s.eventDeadlineSeconds

namespace Claims

def submit (c : Claims K) (id : EventClaimId) (txHash : EthHash) (ty : EventTypeId) : Claims K :=
  { c with claims := c.claims.insert id (txHash, ty), pending := c.pending.insert txHash id }

def prune (c : Claims K) (bk : BitVec 64) : Claims K :=
  { c with
    processed := c.processed.removeAll ((c.buckets.iterPrefix bk).map Prod.fst)
    buckets := c.buckets.removePrefix bk }

variable [DecidableEq K]

def vote (c : Claims K) (id : EventClaimId) (notary : K) (rs : EventClaimResult) : Claims K :=
  { c with votes := c.votes.insert (id, notary) rs }

def clear (c : Claims K) (id : EventClaimId) (txHash : EthHash) : Claims K :=
  { c with claims := c.claims.remove id, votes := c.votes.removePrefix id, pending := c.pending.remove txHash }

def note (c : Claims K) (bk : BitVec 64) (txHash : EthHash) : Claims K :=
  { c with buckets := c.buckets.insert (bk, txHash) (), processed := c.processed.insert txHash () }

end Claims

def State.withVote [DecidableEq K] (s : State K A) (id : EventClaimId) (notary : K)
    (rs : EventClaimResult) : State K A :=
  { s with eventNotarizations := s.eventNotarizations.insert (id, notary) rs }

def State.callTally (s : State K A) (callId : EthCallId) (rs : CheckedEthCallResult) :
    List (CheckedEthCallResult × BitVec 32) :=
  increment rs (s.ethCallNotarizationsAggregated.getD callId [])

def State.SplitVote (s : State K A) (cfg : Config) (env : Env A) (callId : EthCallId)
    (rs : CheckedEthCallResult) : Prop :=
  s.ethCallRequestInfo.contains callId = true ∧
    (s.callTally callId rs).find? (fun n => consensus cfg n.2 (BitVec.ofNat 32 env.validators.length)) = none ∧
    cannotAgree cfg (s.callTally callId rs) (BitVec.ofNat 32 env.validators.length) = true

inductive Effect [DecidableEq K] (cfg : Config) (s : State K A) (op : Op K A)
    (s' : State K A) : Prop
  | frame (claims : s'.claims = s.claims) (calls : s'.subscriberCalls = s.subscriberCalls)
  | called (callId : EthCallId) (i : BitVec 16) (rs : CheckedEthCallResult) (notary : K)
      (t : State K A) (call : op.call = .submitNotarization (.call callId i rs))
      (active : s.notaryKeys[i.toNat]? = some notary) (handled : handleCallNotarization cfg op.env s callId rs notary = .ok t)
      (claims : s'.claims = s.claims) (calls : s'.subscriberCalls = t.subscriberCalls)
  | submit (id : EventClaimId) (txHash : EthHash) (ty : EventTypeId) (fresh : s.processedTxHashes.get? txHash = none)
      (idle : s.pendingTxHashes.get? txHash = none) (claims : s'.claims = s.claims.submit id txHash ty)
      (calls : s'.subscriberCalls = s.subscriberCalls)
  | vote (id : EventClaimId) (notary : K) (rs : EventClaimResult) (i : BitVec 16)
      (call : op.call = .submitNotarization (.event id i rs))
      (active : s.notaryKeys[i.toNat]? = some notary)
      (claims : s'.claims = s.claims.vote id notary rs) (calls : s'.subscriberCalls = s.subscriberCalls)
  | reject (id : EventClaimId) (notary : K) (rs : EventClaimResult) (txHash : EthHash) (ty : EventTypeId)
      (contract : EthAddress) (signature : EthHash) (data : Bytes)
      (listed : s.eventClaims.get? id = some (txHash, ty))
      (claims : s'.claims = (s.claims.vote id notary rs).clear id txHash)
      (calls : s'.subscriberCalls = s.subscriberCalls ++ [.onFailure id contract signature data])
  | verify (id : EventClaimId) (notary : K) (rs : EventClaimResult) (i : BitVec 16) (txHash : EthHash)
      (ty : EventTypeId) (bk : BitVec 64) (contract : EthAddress) (signature : EthHash) (data : Bytes)
      (call : op.call = .submitNotarization (.event id i rs))
      (active : s.notaryKeys[i.toNat]? = some notary)
      (listed : s.eventClaims.get? id = some (txHash, ty))
      (accepted : accepts cfg (yayCount (s.withVote id notary rs) id) (BitVec.ofNat 32 op.env.validators.length))
      (noted : verifiedBucketIndex s.eventDeadlineSeconds op.env.now = some bk)
      (claims : s'.claims = ((s.claims.vote id notary rs).clear id txHash).note bk txHash)
      (calls : s'.subscriberCalls = s.subscriberCalls ++ [.onSuccess id contract signature data])
  | prune (blockNumber : BitVec 32) (bk : BitVec 64) (call : op.call = .onInitialize blockNumber)
      (due : blockNumber % claimPruningInterval = 0)
      (expired : expiredBucketIndex s.eventDeadlineSeconds op.env.now = some bk)
      (claims : s'.claims = s.claims.prune bk) (calls : s'.subscriberCalls = s.subscriberCalls)
  | deadline (seconds : Seconds) (call : op.call = .setEventDeadline seconds)
      (claims : s'.claims = { s.claims with deadline := seconds }) (calls : s'.subscriberCalls = s.subscriberCalls)

section
variable {cfg : Config} {env : Env A} {s s' : State K A}

/-! ### Inverting the handlers -/

def SigningOnly (s s' : State K A) : Prop :=
  s' = { s with
    delayedEventProofs := s'.delayedEventProofs
    nextProofId := s'.nextProofId
    notaryKeys := s'.notaryKeys
    nextNotaryKeys := s'.nextNotaryKeys
    notarySetId := s'.notarySetId
    notarySetProofId := s'.notarySetProofId
    bridgePaused := s'.bridgePaused
    digest := s'.digest }

theorem SigningOnly.claims (h : SigningOnly s s') : s'.claims = s.claims ∧ s'.subscriberCalls = s.subscriberCalls := by
  unfold SigningOnly at h
  have hcl := congrArg State.claims h
  have hca := congrArg State.subscriberCalls h
  exact ⟨hcl, hca⟩

theorem sendDelayedProofs_signingOnly (prs : List (EventProofId × Bytes)) (s : State K A) :
    SigningOnly s (prs.foldl sendDelayedProof s) := by
  induction prs generalizing s with
  | nil => rfl
  | cons proof prs ih => exact ih (sendDelayedProof s proof)

theorem processDelayedProofs_signingOnly (cfg : Config) (s : State K A) :
    SigningOnly s (processDelayedProofs cfg s) := by
  unfold processDelayedProofs
  split
  · rfl
  · exact sendDelayedProofs_signingOnly _ s

theorem generateEventProof_signingOnly (s : State K A) (ev : Bytes) : SigningOnly s (generateEventProof s ev).1 := by
  unfold generateEventProof
  dsimp only
  split <;> rfl

theorem onNewSession_signingOnly (env : Env A) (s : State K A) (vs queued : List K) :
    SigningOnly s (onNewSession env s vs queued) := by
  unfold onNewSession handleAuthoritiesChange
  split
  · split
    · rfl
    · split
      · dsimp only
        split <;> rfl
      · rfl
  · rfl

theorem onBeforeSessionEnding_signingOnly (env : Env A) (s : State K A) :
    SigningOnly s (onBeforeSessionEnding env s) := by
  unfold onBeforeSessionEnding
  split <;> rfl

theorem eventTypeIdFor_claims (s : State K A) (con : EthAddress) (sig : EthHash) :
    (eventTypeIdFor s con sig).1.claims = s.claims ∧
      (eventTypeIdFor s con sig).1.subscriberCalls = s.subscriberCalls := by
  unfold eventTypeIdFor
  split <;> exact ⟨rfl, rfl⟩

def ClaimsOnly (s s' : State K A) : Prop :=
  s' = { s with
    eventClaims := s'.eventClaims
    eventData := s'.eventData
    eventNotarizations := s'.eventNotarizations
    eventTypeToTypeId := s'.eventTypeToTypeId
    typeIdToEventType := s'.typeIdToEventType
    nextEventClaimId := s'.nextEventClaimId
    nextEventTypeId := s'.nextEventTypeId
    processedTxBuckets := s'.processedTxBuckets
    processedTxHashes := s'.processedTxHashes
    pendingTxHashes := s'.pendingTxHashes
    subscriberCalls := s'.subscriberCalls }

theorem eventTypeIdFor_claimsOnly (s : State K A) (con : EthAddress) (sig : EthHash) :
    ClaimsOnly s (eventTypeIdFor s con sig).1 := by
  unfold eventTypeIdFor
  split <;> rfl

variable {id : EventClaimId} {pl : NotarizationPayload} {op : Op K A}

theorem submitEventClaim_inv {con : EthAddress} {sig tx : EthHash} {data : Bytes}
    (h : submitEventClaim s con sig tx data = .ok (s', id)) :
    s.processedTxHashes.get? tx = none ∧ s.pendingTxHashes.get? tx = none ∧
      let typed := eventTypeIdFor s con sig
      id = typed.1.nextEventClaimId ∧ s' = { typed.1 with
        eventData := typed.1.eventData.insert id data
        eventClaims := typed.1.eventClaims.insert id (tx, typed.2)
        nextEventClaimId := id + 1
        pendingTxHashes := typed.1.pendingTxHashes.insert tx id } := by
  unfold submitEventClaim at h
  split_ifs at h with hpr hpe
  cases h
  exact ⟨StorageMap.not_contains_iff.mp (Bool.eq_false_iff.mpr hpr),
    StorageMap.not_contains_iff.mp (Bool.eq_false_iff.mpr hpe), rfl, rfl⟩

theorem submitEventClaim_claimsOnly {con : EthAddress} {sig tx : EthHash} {data : Bytes}
    (h : submitEventClaim s con sig tx data = .ok (s', id)) : ClaimsOnly s s' := by
  obtain ⟨-, -, -, rfl⟩ := submitEventClaim_inv h
  have hty := eventTypeIdFor_claimsOnly s con sig
  unfold ClaimsOnly at hty ⊢
  rw [hty]

theorem decideClaim_inv {tx : EthHash} {ty : EventTypeId} (h : decideClaim cfg env s id tx ty = .ok s') : s' = s ∨
      (∃ con sig data, s' = { clearClaim s id tx with
        subscriberCalls := s.subscriberCalls ++ [.onFailure id con sig data] }) ∨
      (accepts cfg (yayCount s id) (BitVec.ofNat 32 env.validators.length) = true ∧
        ∃ bk con sig data, verifiedBucketIndex s.eventDeadlineSeconds env.now = some bk ∧ s' = { clearClaim s id tx with
          processedTxBuckets := s.processedTxBuckets.insert (bk, tx) ()
          processedTxHashes := s.processedTxHashes.insert tx ()
          subscriberCalls := s.subscriberCalls ++ [.onSuccess id con sig data] }) := by
  unfold decideClaim at h
  dsimp only at h
  split at h
  · split at h <;> cases h
    exact Or.inr (Or.inl ⟨_, _, _, rfl⟩)
  · split_ifs at h with hac
    · split at h <;> cases h
      rename_i bk _ hbu
      exact Or.inr (Or.inr ⟨hac, bk, _, _, _, hbu, rfl⟩)
    · cases h
      exact Or.inl rfl

theorem decideClaim_claimsOnly {tx : EthHash} {ty : EventTypeId} (h : decideClaim cfg env s id tx ty = .ok s') :
    ClaimsOnly s s' := by
  obtain rfl | ⟨_, _, _, rfl⟩ | ⟨-, _, _, _, _, -, rfl⟩ := decideClaim_inv h <;> rfl

theorem onInitialize_inv {bn : BitVec 32} (h : onInitialize cfg env s bn = .ok s') :
    (∃ bk, bn % claimPruningInterval = 0 ∧ expiredBucketIndex s.eventDeadlineSeconds env.now = some bk ∧
      s' = processDelayedProofs cfg (pruneBucket s bk)) ∨ s' = processDelayedProofs cfg s := by
  unfold onInitialize at h
  split_ifs at h with hdue
  · split at h <;> cases h
    exact Or.inl ⟨_, hdue, ‹_›, rfl⟩
  · cases h
    exact Or.inr rfl

variable [DecidableEq K]

section
variable {cid : EthCallId} {res : CheckedEthCallResult} {nt : K}

theorem handleCallNotarization_cases (h : handleCallNotarization cfg env s cid res nt = .ok s') :
    let voted := { s with ethCallNotarizations := s.ethCallNotarizations.insert (cid, nt) res }
    let decided := fun n : CheckedEthCallResult × BitVec 32 => consensus cfg n.2 (BitVec.ofNat 32 env.validators.length)
    s.ethCallRequestInfo.contains cid = true ∧
      ((∃ r count, (s.callTally cid res).find? decided = some (r, count) ∧ s' = doCallbackAndCleanUp voted cid r) ∨
        (s.SplitVote cfg env cid res ∧ s' = doCallbackAndCleanUp voted cid res) ∨
        ((s.callTally cid res).find? decided = none ∧ s' = { voted with
          ethCallNotarizationsAggregated := s.ethCallNotarizationsAggregated.insert cid (s.callTally cid res) })) := by
  unfold handleCallNotarization at h
  split at h
  · cases h
  rename_i hopn
  refine ⟨not_not.mp hopn, ?_⟩
  dsimp only at h
  split at h
  · rename_i r count hfi
    cases h
    exact .inl ⟨r, count, hfi, rfl⟩
  · rename_i hn
    split at h <;> cases h
    · rename_i hsp
      exact .inr (.inl ⟨⟨not_not.mp hopn, hn, hsp⟩, rfl⟩)
    · exact .inr (.inr ⟨hn, rfl⟩)

theorem handleCallNotarization_inv (h : handleCallNotarization cfg env s cid res nt = .ok s') :
    s'.claims = s.claims ∧ ((∃ r count, (r, count) ∈ s.callTally cid res ∧
          consensus cfg count (BitVec.ofNat 32 env.validators.length) = true ∧
          s'.subscriberCalls = s.subscriberCalls ++ [callback cid r]) ∨
        (s.SplitVote cfg env cid res ∧ s'.subscriberCalls = s.subscriberCalls ++ [callback cid res]) ∨
        s'.subscriberCalls = s.subscriberCalls) := by
  obtain ⟨-, ⟨r, count, hfi, rfl⟩ | ⟨hsp, rfl⟩ | ⟨-, rfl⟩⟩ := handleCallNotarization_cases h
  · have hco := find?_some hfi
    exact ⟨rfl, .inl ⟨r, count, mem_of_find?_eq_some hfi, hco, rfl⟩⟩
  · exact ⟨rfl, .inr (.inl ⟨hsp, rfl⟩)⟩
  · exact ⟨rfl, .inr (.inr rfl)⟩

end

theorem handleEventNotarization_inv {r : EventClaimResult} {nt : K}
    (h : handleEventNotarization cfg env s id r nt = .ok s') :
    ∃ tx ty, s.eventClaims.get? id = some (tx, ty) ∧
      decideClaim cfg env (s.withVote id nt r) id tx ty = .ok s' := by
  unfold handleEventNotarization at h
  split at h
  · cases h
  · rename_i tx ty hli
    exact ⟨tx, ty, hli, h⟩

theorem submitNotarization_eq_ok : submitNotarization cfg env s pl = .ok s' ↔
      ∃ nt, s.notaryKeys[pl.authorityIndex.toNat]? = some nt ∧ ∃ t, handleNotarization cfg env s pl nt = .ok t ∧
        s' = { t with rewards := t.rewards ++ env.validators[pl.authorityIndex.toNat]?.toList } := by
  unfold submitNotarization
  constructor
  · intro h
    split at h
    · cases h
    · rename_i nt hno
      split at h <;> cases h
      rename_i t ht
      exact ⟨nt, hno, t, ht, rfl⟩
  · rintro ⟨nt, hno, t, ht, rfl⟩
    simp only [hno, ht]

theorem submitNotarization_inv (h : submitNotarization cfg env s pl = .ok s') :
    ∃ nt, s.notaryKeys[pl.authorityIndex.toNat]? = some nt ∧ ∃ t,
      handleNotarization cfg env s pl nt = .ok t ∧ s'.claims = t.claims ∧
      s'.subscriberCalls = t.subscriberCalls := by
  obtain ⟨nt, hno, t, ht, rfl⟩ := submitNotarization_eq_ok.mp h
  exact ⟨nt, hno, t, ht, rfl, rfl⟩

theorem submitNotarization_effect (hop : op.call = .submitNotarization pl)
    (h : submitNotarization cfg op.env s pl = .ok s') : Effect cfg s op s' := by
  obtain ⟨nt, hac, t, ht, hcl, hca⟩ := submitNotarization_inv h
  cases pl with
  | call cid i r =>
    have hke := (handleCallNotarization_inv ht).1
    exact .called cid i r nt t hop hac ht (hcl.trans hke) hca
  | event id i r =>
    obtain ⟨tx, ty, hli, hde⟩ := handleEventNotarization_inv ht
    obtain rfl | ⟨con, sig, data, rfl⟩ | ⟨hacc, bk, con, sig, data, hbu, rfl⟩ := decideClaim_inv hde
    · exact .vote id nt r i hop hac hcl hca
    · exact .reject id nt r tx ty con sig data hli hcl hca
    · exact .verify id nt r i tx ty bk con sig data hop hac hli hacc hbu hcl hca

theorem onInitialize_effect {bn : BitVec 32} (hop : op.call = .onInitialize bn)
    (h : onInitialize cfg op.env s bn = .ok s') : Effect cfg s op s' := by
  rcases onInitialize_inv h with ⟨bk, hdue, hbu, rfl⟩ | rfl
  · obtain ⟨hcl, hca⟩ := (processDelayedProofs_signingOnly cfg (pruneBucket s bk)).claims
    exact .prune bn bk hop hdue hbu hcl hca
  · obtain ⟨hcl, hca⟩ := (processDelayedProofs_signingOnly cfg s).claims
    exact .frame hcl hca

theorem step_effect (cfg : Config) (s : State K A) (op : Op K A) : Effect cfg s op (step cfg s op) := by
  unfold step
  split
  · rename_i s' h
    obtain ⟨env, call⟩ := op
    cases call with
    | onInitialize bn => exact onInitialize_effect rfl h
    | setEventDeadline seconds =>
      cases h
      exact .deadline seconds rfl rfl rfl
    | submitNotarization pl => exact submitNotarization_effect rfl h
    | submitEventClaim con sig tx data =>
      obtain ⟨r, hsu, rfl⟩ := Result.map_eq_ok.mp h
      obtain ⟨hfr, hdl, -, hs⟩ := submitEventClaim_inv hsu
      obtain ⟨hcl, hca⟩ := eventTypeIdFor_claims s con sig
      refine .submit r.2 tx (eventTypeIdFor s con sig).2 hfr hdl ?_ ?_
      · rw [hs, ← hcl]
        rfl
      · rw [hs]
        exact hca
    | generateEventProof ev =>
      cases h
      obtain ⟨hcl, hca⟩ := (generateEventProof_signingOnly s ev).claims
      exact .frame hcl hca
    | setEventConfirmations | setDelayedEventProofsPerBlock | checkedEthCall =>
      cases h
      exact .frame rfl rfl
    | onNewSession vs queued =>
      cases h
      obtain ⟨hcl, hca⟩ := (onNewSession_signingOnly env s vs queued).claims
      exact .frame hcl hca
    | onBeforeSessionEnding =>
      cases h
      obtain ⟨hcl, hca⟩ := (onBeforeSessionEnding_signingOnly env s).claims
      exact .frame hcl hca
  · exact .frame rfl rfl

theorem Effect.verify_inv (E : Effect cfg s op s') {con : EthAddress} {sig : EthHash} {data : Bytes}
    (hca : s'.subscriberCalls = s.subscriberCalls ++ [.onSuccess id con sig data]) :
    ∃ nt res i txHash ty bk, op.call = .submitNotarization (.event id i res) ∧
      s.notaryKeys[i.toNat]? = some nt ∧ s.eventClaims.get? id = some (txHash, ty) ∧
      accepts cfg (yayCount (s.withVote id nt res) id) (BitVec.ofNat 32 op.env.validators.length) = true ∧
      verifiedBucketIndex s.eventDeadlineSeconds op.env.now = some bk ∧
      s'.claims = ((s.claims.vote id nt res).clear id txHash).note bk txHash := by
  -- A step that tells nothing, or something else, cannot have told this success.
  have hsi : s'.subscriberCalls = s.subscriberCalls → False := by
    intro h
    rw [h] at hca
    exact absurd (append_right_eq_self.mp hca.symm) (cons_ne_nil _ _)
  have hoth : ∀ {c : SubscriberCall}, s'.subscriberCalls = s.subscriberCalls ++ [c] →
      c = .onSuccess id con sig data := by
    intro c h
    rw [h] at hca
    exact singleton_inj.mp (append_cancel_left hca)
  cases E with
  | called cid i res nt t call active handled claims calls =>
    rcases (handleCallNotarization_inv handled).2 with ⟨r, count, -, -, hr⟩ | ⟨-, hr⟩ | hr
    · have := hoth (calls.trans hr)
      cases r <;> cases this
    · have := hoth (calls.trans hr)
      cases res <;> cases this
    · exact (hsi (calls.trans hr)).elim
  | reject id nt res txHash ty con sig data listed claims calls => cases hoth calls
  | verify id' nt res i txHash ty bk con sig data call active listed accepted noted claims
      calls =>
    cases hoth calls
    exact ⟨nt, res, i, txHash, ty, bk, call, active, listed, accepted, noted, claims⟩
  | _ => exact (hsi ‹_›).elim

end

def plainOp (now : Seconds) (validators : List A) (call : Call K) : Op K A :=
  ⟨{ now, validators }, call⟩

end EthBridge
