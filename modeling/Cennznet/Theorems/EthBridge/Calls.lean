import Cennznet.Lib.Run
import Cennznet.Theorems.EthBridge.Claims

/-! # The oracle of Ethereum calls

When the notaries cannot agree any more, the handler passes on the result just submitted. -/

namespace EthBridge

open List

variable {K A : Type} [DecidableEq K]

/-! ### Results -/

/-- Whatever the step tells subscribers to be the result of a call has the consensus of the notaries. -/
def CallSafe (cfg : Config) (s : State K A) (op : Op K A) : Prop :=
  ∀ new callId returnData b timestamp, (step cfg s op).subscriberCalls = s.subscriberCalls ++ new →
    .onEthCallComplete callId returnData b timestamp ∈ new →
    ∃ i rs count, op.call = .submitNotarization (.call callId i rs) ∧
      (.ok returnData b timestamp, count) ∈ s.callTally callId rs ∧
      consensus cfg count (BitVec.ofNat 32 op.env.validators.length) = true

/-- An active notary submits a returned value with which the notaries cannot agree any more. -/
def SplitsOnValue (cfg : Config) (s : State K A) (op : Op K A) : Prop :=
  ∃ callId i returnData b timestamp, op.call = .submitNotarization (.call callId i (.ok returnData b timestamp)) ∧
      i.toNat < s.notaryKeys.length ∧ s.SplitVote cfg op.env callId (.ok returnData b timestamp)

section
variable {cfg : Config} {env : Env A} {s : State K A} {op : Op K A}

theorem callback_eq_complete {id id' : EthCallId} {r : CheckedEthCallResult} {returnData : BitVec 256}
    {b timestamp : BitVec 64} (h : .onEthCallComplete id' returnData b timestamp = callback id r) :
    id' = id ∧ r = .ok returnData b timestamp := by
  cases r <;> cases h
  exact ⟨rfl, rfl⟩

theorem handleCallNotarization_of_split {id : EthCallId} {r : CheckedEthCallResult} (nt : K)
    (h : s.SplitVote cfg env id r) :
    ∃ t, handleCallNotarization cfg env s id r nt = .ok t ∧
      t.subscriberCalls = s.subscriberCalls ++ [callback id r] := by
  obtain ⟨hopn, hn, hsp⟩ := h
  refine ⟨doCallbackAndCleanUp { s with ethCallNotarizations := s.ethCallNotarizations.insert (id, nt) r }
    id r, ?_, rfl⟩
  unfold State.callTally at hn hsp
  unfold handleCallNotarization
  rw [if_neg (not_not.mpr hopn)]
  dsimp only
  rw [hn]
  exact if_pos hsp

theorem step_of_call {id : EthCallId} {i : BitVec 16} {r : CheckedEthCallResult} {nt : K}
    {t : State K A} (hc : op.call = .submitNotarization (.call id i r))
    (hac : s.notaryKeys[i.toNat]? = some nt)
    (ht : handleCallNotarization cfg op.env s id r nt = .ok t) :
    (step cfg s op).subscriberCalls = t.subscriberCalls := by
  have hdi : dispatch cfg op.env s op.call =
      .ok { t with rewards := t.rewards ++ op.env.validators[i.toNat]?.toList } := by
    rw [hc]
    show submitNotarization cfg op.env s (.call id i r) = _
    unfold submitNotarization
    rw [show s.notaryKeys[(NotarizationPayload.call id i r).authorityIndex.toNat]? = some nt from hac]
    dsimp only [handleNotarization]
    rw [ht]
    rfl
  unfold step
  rw [hdi]

theorem callSafe_iff : CallSafe cfg s op ↔ ¬SplitsOnValue cfg s op := by
  constructor
  · rintro hsa ⟨cid, i, returnData, b, ts, hcall, hix, hsp⟩
    obtain ⟨t, ht, hca⟩ := handleCallNotarization_of_split s.notaryKeys[i.toNat] hsp
    have hs := step_of_call hcall (getElem?_eq_getElem hix) ht
    obtain ⟨i', res, count, hca', hmem, hco⟩ := hsa _ cid returnData b ts (hs.trans hca) mem_cons_self
    rw [hcall] at hca'
    cases hca'
    exact absurd hco (find?_eq_none.mp hsp.2.1 _ hmem)
  · intro hgo new cid returnData b ts hnew hmem
    -- Only the callback of a notarized call can be the completion told here.
    have hto : ∀ {c : SubscriberCall}, (step cfg s op).subscriberCalls = s.subscriberCalls ++ [c] →
        .onEthCallComplete cid returnData b ts = c := by
      intro c hc
      rw [hc] at hnew
      rw [← append_cancel_left hnew] at hmem
      exact mem_singleton.mp hmem
    have hsi : (step cfg s op).subscriberCalls = s.subscriberCalls → False := by
      intro hc
      rw [hc] at hnew
      rw [append_right_eq_self.mp hnew.symm] at hmem
      cases hmem
    cases step_effect cfg s op with
    | called cid' i res nt t call active handled claims calls =>
      rcases (handleCallNotarization_inv handled).2 with ⟨r, count, hr, hco, hca⟩ | ⟨hsp, hca⟩ | hca
      · obtain ⟨rfl, rfl⟩ := callback_eq_complete (hto (calls.trans hca))
        exact ⟨i, res, count, call, hr, hco⟩
      · obtain ⟨rfl, rfl⟩ := callback_eq_complete (hto (calls.trans hca))
        have hix : i.toNat < s.notaryKeys.length := (List.getElem?_eq_some_iff.mp active).1
        exact absurd ⟨cid, i, returnData, b, ts, call, hix, hsp⟩ hgo
      · exact (hsi (calls.trans hca)).elim
    | reject id nt res tx ty con sig data listed claims calls => cases hto calls
    | verify id nt res i tx ty bk con sig data call active listed accepted noted claims
        calls => cases hto calls
    | _ => exact (hsi ‹_›).elim

end

/-- Every result told to subscribers along a run has the consensus of the notaries exactly if no step splits them on a
returned value. -/
theorem calls_safe_iff (cfg : Config) (s : State K A) (ops : List (Op K A)) :
    Steps.Each (step cfg) (CallSafe cfg) s ops ↔ Steps.Each (step cfg) (fun s op => ¬SplitsOnValue cfg s op) s ops :=
  Steps.each_congr fun _ _ => callSafe_iff

def threeValues : List (Op Nat Nat) :=
  [plainOp 100 [7, 8, 9] (.checkedEthCall 1 [] 90 10 3),
    plainOp 100 [7, 8, 9] (.submitNotarization (.call 0 0 (.ok 1 10 50))),
    plainOp 100 [7, 8, 9] (.submitNotarization (.call 0 1 (.ok 2 10 50))),
    plainOp 100 [7, 8, 9] (.submitNotarization (.call 0 2 (.ok 3 10 50)))]

theorem three_values_not_safe :
    (Steps.execute (step runtimeConfig) (State.genesis [11, 12, 13]) threeValues).subscriberCalls =
        [.onEthCallComplete 0 3 10 50] ∧
      ¬Steps.Each (step runtimeConfig) (CallSafe runtimeConfig) (State.genesis [11, 12, 13]) threeValues := by
  refine ⟨by decide, fun h => ?_⟩
  have hl := callSafe_iff.mp h.2.2.2.1
  exact hl ⟨0, 2, 3, 10, 50, rfl, by decide, by decide, by decide, by decide⟩

/-! ### The queue -/

inductive QueueOp (K A : Type) where
  | ask (env : Env A) (target : EthAddress) (input : Bytes) (timestamp : Seconds) (tryBlockNumber lookBehind : BitVec 64)
  | notarize (env : Env A) (callId : EthCallId) (rs : CheckedEthCallResult) (notary : K)

def queueStep (cfg : Config) (s : State K A) : QueueOp K A → State K A
  | .ask env target input timestamp tryBlockNumber lookBehind =>
    (checkedEthCall env s target input timestamp tryBlockNumber lookBehind).1
  | .notarize env callId rs notary => Result.getD (handleCallNotarization cfg env s callId rs notary) s

def NextIdFits (s : State K A) : QueueOp K A → Prop
  | .ask .. => s.nextEthCallId.toNat + 1 < 2 ^ 64
  | .notarize .. => True

/-- The requests are those with an entry, in the order of their ids, and only they have votes and counts. -/
structure CallQueue (s : State K A) : Prop where
  listed : ∀ {id}, id ∈ s.ethCallRequests ↔ s.ethCallRequestInfo.contains id = true
  ordered : s.ethCallRequests.Pairwise fun id later => id.toNat < later.toNat
  created : ∀ {id}, id ∈ s.ethCallRequests → id.toNat < s.nextEthCallId.toNat
  notarized : ∀ {id notary r}, s.ethCallNotarizations.get? (id, notary) = some r → id ∈ s.ethCallRequests
  aggregated : ∀ {id counts}, s.ethCallNotarizationsAggregated.get? id = some counts → id ∈ s.ethCallRequests

section
variable {cfg : Config} {env : Env A} {s : State K A} {cid : EthCallId} {res : CheckedEthCallResult} {nt : K}

theorem CallQueue.ask (q : CallQueue s) (hfit : s.nextEthCallId.toNat + 1 < 2 ^ 64) (target : EthAddress) (input : Bytes)
    (ts : Seconds) (n look : BitVec 64) : CallQueue (checkedEthCall env s target input ts n look).1 where
  listed {id} := by
    show id ∈ s.ethCallRequests ++ [s.nextEthCallId] ↔ (s.ethCallRequestInfo.insert _ _).contains id = true
    rw [mem_append, mem_singleton, q.listed, StorageMap.contains_insert, or_comm]
  ordered := pairwise_append.mpr ⟨q.ordered, pairwise_singleton _ _, fun id hid later hl =>
    mem_singleton.mp hl ▸ q.created hid⟩
  created {id} hid := by
    have hnext : (s.nextEthCallId + 1).toNat = s.nextEthCallId.toNat + 1 := BitVec.toNat_add_of_lt hfit
    show id.toNat < (s.nextEthCallId + 1).toNat
    rcases mem_append.mp hid with hid | hid
    · have := q.created hid
      omega
    · rw [mem_singleton.mp hid]
      omega
  notarized h := mem_append_left _ (q.notarized h)
  aggregated h := mem_append_left _ (q.aggregated h)

theorem CallQueue.record (q : CallQueue s) (hopn : s.ethCallRequestInfo.contains cid = true) (cs) :
    CallQueue { s with
      ethCallNotarizations := s.ethCallNotarizations.insert (cid, nt) res
      ethCallNotarizationsAggregated := s.ethCallNotarizationsAggregated.insert cid cs } := by
  refine ⟨q.listed, q.ordered, q.created, fun {id notary r} h => ?_, fun {id counts} h => ?_⟩
  · rcases StorageMap.get?_insert_eq_some.mp h with ⟨heq, -⟩ | ⟨-, h⟩
    · cases heq
      exact q.listed.mpr hopn
    · exact q.notarized h
  · rcases StorageMap.get?_insert_eq_some.mp h with ⟨rfl, -⟩ | ⟨-, h⟩
    · exact q.listed.mpr hopn
    · exact q.aggregated h

theorem CallQueue.cleanUp (q : CallQueue s) (r : CheckedEthCallResult) : CallQueue (doCallbackAndCleanUp
    { s with ethCallNotarizations := s.ethCallNotarizations.insert (cid, nt) res } cid r) := by
  have hno : s.ethCallRequests.Nodup := q.ordered.imp fun hlt heq => hlt.ne (congrArg BitVec.toNat heq)
  refine ⟨fun {id} => ?_, q.ordered.sublist erase_sublist, fun hid => q.created (mem_of_mem_erase hid),
    fun {id notary r} h => ?_, fun {id counts} h => ?_⟩
  · show id ∈ s.ethCallRequests.erase cid ↔ (s.ethCallRequestInfo.remove cid).contains id = true
    rw [hno.mem_erase_iff, q.listed, StorageMap.contains_remove]
  · obtain ⟨hne, h⟩ := StorageMap.get?_removePrefix_eq_some.mp h
    rcases StorageMap.get?_insert_eq_some.mp h with ⟨heq, -⟩ | ⟨-, h⟩
    · exact absurd (Prod.mk.inj heq).1 hne
    · exact (mem_erase_of_ne hne).mpr (q.notarized h)
  · obtain ⟨hne, h⟩ := StorageMap.get?_remove_eq_some.mp h
    exact (mem_erase_of_ne hne).mpr (q.aggregated h)

end

/-- In every run of calls asked for and notarized, the queue lists the open calls exactly. -/
theorem call_queue_exact (cfg : Config) (s : State K A) (h : CallQueue s) (ops : List (QueueOp K A))
    (hfits : Steps.Each (queueStep cfg) NextIdFits s ops) :
    ∀ done, done <+: ops → CallQueue (Steps.execute (queueStep cfg) s done) := by
  intro done hdo
  refine hfits.throughout (fun s op hfit q => ?_) h hdo
  cases op with
  | ask env target input timestamp n look => exact q.ask hfit target input timestamp n look
  | notarize env callId rs notary =>
    refine Result.getD_cases (fun t h => ?_) q
    obtain ⟨hopn, ⟨r, _, -, rfl⟩ | ⟨-, rfl⟩ | ⟨-, rfl⟩⟩ := handleCallNotarization_cases h
    · exact q.cleanUp r
    · exact q.cleanUp rs
    · exact q.record hopn _

theorem call_queue_of_two :
    let env : Env Nat := { now := 100, validators := [7, 8, 9] }
    let s := Steps.execute (queueStep runtimeConfig) (State.genesis [11, 12, 13]) [.ask env 1 [] 90 10 3, .ask env 2 [] 90 10 3,
      .notarize env 0 (.ok 5 10 50) 11, .notarize env 0 (.ok 5 10 50) 12, .notarize env 0 (.ok 5 10 50) 13]
    CallQueue s ∧ s.ethCallRequests = [1] :=
  ⟨call_queue_exact runtimeConfig _ ⟨by simp [State.genesis, StorageMap.contains], .nil, by simp [State.genesis],
    by simp [State.genesis], by simp [State.genesis]⟩ _ (by simp [Steps.Each, NextIdFits]; decide) _ prefix_rfl, by decide⟩

end EthBridge
