import Cennznet.Theorems.EthStateOracle.Callbacks

/-! # The stages of a request -/

namespace EthStateOracle

open Erc20Peg (BlockNumber)
open Result StorageMap Steps

variable {A : Type}

def entry {V : Type} (m : StorageMap RequestId V) (id : RequestId) : Nat := if m.contains id = true then 1 else 0

section
variable {V : Type} {entries : StorageMap RequestId V} {v : V} {ids : List RequestId} {id x : RequestId}

theorem entry_le_one : entry entries id ≤ 1 := by
  unfold entry
  split <;> simp

theorem entry_insert : entry (entries.insert x v) id = if id = x then 1 else entry entries id := by
  unfold entry
  simp only [contains_insert]
  by_cases h : id = x <;> simp [h]

theorem entry_remove : entry (entries.remove x) id = if id = x then 0 else entry entries id := by
  unfold entry
  simp only [contains_remove]
  by_cases h : id = x <;> simp [h]

theorem entry_removeAll : entry (entries.removeAll ids) id = if id ∈ ids then 0 else entry entries id := by
  unfold entry contains
  rw [get?_removeAll]
  by_cases h : id ∈ ids <;> simp [h]

end

/-! ### The stages -/

/-- Each id given out is called back, has expired, or has a request, which waits to expire or has a response; a response
waits for its block or in the queue. The blocks are at most the challenge period ahead. -/
structure Staged (period now : BlockNumber) (b : Board A) (queue expired : List RequestId) : Prop where
  unchallenged : ∀ id, b.challenged.contains id = false
  waiting : ∀ id, occurrences b.expiredAt id + entry b.responses id = entry b.requests id
  answered : ∀ id, occurrences b.validAt id + queue.count id = entry b.responses id
  given : ∀ id, b.callbacks.count id + expired.count id + entry b.requests id = if id.toNat < b.next.toNat then 1 else 0
  expiry : ∀ {block id request}, id ∈ b.expiredAt.getD block [] → b.requests.get? id = some request →
    request.expiryBlock = block
  ahead : ∀ {block id}, id ∈ b.expiredAt.getD block [] ∨ id ∈ b.validAt.getD block [] →
    ∃ d : BlockNumber, 0 < d.toNat ∧ d.toNat ≤ period.toNat ∧ block = now + d

namespace Staged
variable {period now : BlockNumber} {b : Board A} {queue expired : List RequestId} {id : RequestId}

theorem request {info : CallRequest} (h : Staged period now b queue expired) (hpe : 0 < period.toNat)
    (hinf : info.expiryBlock = now + period) (hr : b.next.toNat + 1 < 2 ^ 256) :
    Staged period now (b.request info) queue expired := by
  have hx : (b.next + 1).toNat = b.next.toNat + 1 := by bv_omega
  have hgi := h.given b.next
  have hwa := h.waiting b.next
  rw [if_neg (Nat.lt_irrefl _)] at hgi
  refine ⟨h.unchallenged, fun id => ?_, h.answered, fun id => ?_, ?_, ?_⟩
  · have hid := h.waiting id
    simp only [Board.request, occurrences_push, entry_insert]
    grind
  · have hid := h.given id
    have hlt : id.toNat < b.next.toNat + 1 ↔ id = b.next ∨ id.toNat < b.next.toNat := by bv_omega
    simp only [Board.request, entry_insert, hx, hlt]
    grind
  · intro block id request hmem hget
    rcases mem_getD_push.mp hmem with hold | ⟨rfl, rfl⟩
    · have hne : id ≠ b.next := by
        rintro rfl
        exact occurrences_eq_zero.mp (by omega) block hold
      exact h.expiry hold ((get?_insert_ne hne).symm.trans hget)
    · obtain rfl : info = request := Option.some.inj (get?_insert_self.symm.trans hget)
      rfl
  · rintro block id (hex | hva)
    · rcases mem_getD_push.mp hex with hold | ⟨rfl, -⟩
      · exact h.ahead (Or.inl hold)
      · exact ⟨period, hpe, Nat.le_refl _, hinf⟩
    · exact h.ahead (Or.inr hva)

theorem respond {request : CallRequest} {resp : CallResponse A} (h : Staged period now b queue expired)
    (hpe : 0 < period.toNat) (hre : b.requests.get? id = some request) (hn : b.responses.contains id = false) :
    Staged period now (b.respond id request.expiryBlock (now + period) resp) queue expired := by
  have had : entry b.requests id = 1 := if_pos (contains_iff.mpr ⟨_, hre⟩)
  have hopn : entry b.responses id = 0 := if_neg (by simp [hn])
  have hex (x : RequestId) := occurrences_filter (x := x) fun block hmem => (h.expiry hmem hre).symm
  refine ⟨h.unchallenged, fun x => ?_, fun x => ?_, h.given, ?_, ?_⟩
  · have hx := h.waiting x
    simp only [Board.respond, hex, entry_insert]
    grind
  · have hx := h.answered x
    simp only [Board.respond, occurrences_push, entry_insert]
    grind
  · intro block x r hmem hget
    exact h.expiry (mem_getD_filter.mp hmem).1 hget
  · rintro block x (hex | hva)
    · exact h.ahead (Or.inl (mem_getD_filter.mp hex).1)
    · rcases mem_getD_push.mp hva with hold | ⟨rfl, -⟩
      · exact h.ahead (Or.inr hold)
      · exact ⟨period, hpe, Nat.le_refl _, rfl⟩

theorem newBlock (h : Staged period now b queue expired) : Staged period (now + 1) (b.newBlock (now + 1))
    (queue ++ b.validAt.getD (now + 1) []) (expired ++ b.expiredAt.getD (now + 1) []) := by
  -- an id that expires occurs once, so it has no response
  have hco (id : RequestId) : (b.expiredAt.getD (now + 1) []).count id =
      if id ∈ b.expiredAt.getD (now + 1) [] then entry b.requests id else 0 := by
    have hre := occurrences_remove (m := b.expiredAt) (k := now + 1) (x := id)
    have hle : entry b.requests id ≤ 1 := entry_le_one
    have hwa := h.waiting id
    split_ifs with hmem
    · have hpos := List.count_pos_iff.mpr hmem
      omega
    · exact List.count_eq_zero.mpr hmem
  refine ⟨h.unchallenged, fun id => ?_, fun id => ?_, fun id => ?_, ?_, ?_⟩
  · have hwa := h.waiting id
    have hre := occurrences_remove (m := b.expiredAt) (k := now + 1) (x := id)
    rw [hco] at hre
    simp only [Board.newBlock, entry_removeAll]
    grind
  · have hva := occurrences_remove (m := b.validAt) (k := now + 1) (x := id)
    have han := h.answered id
    simp only [Board.newBlock, List.count_append]
    omega
  · have hgi := h.given id
    simp only [Board.newBlock, entry_removeAll, List.count_append, hco]
    grind
  · intro block id request hmem hget
    exact h.expiry (mem_getD_remove.mp hmem).2 (get?_removeAll_eq_some.mp hget).2
  · intro block id hid
    simp only [Board.newBlock, mem_getD_remove, ← and_or_left] at hid
    obtain ⟨hla, hold⟩ := hid
    obtain ⟨d, hpos, hle, rfl⟩ := h.ahead hold
    have hne : d ≠ 1 := by
      rintro rfl
      exact hla rfl
    exact ⟨d - 1, by bv_omega, by bv_omega, by bv_omega⟩

theorem run (h : Staged period now b (id :: queue) expired) : Staged period now (b.run id) queue expired := by
  have han (x : RequestId) : occurrences b.validAt x + (queue.count x + if x = id then 1 else 0) = entry b.responses x := by
    have hx := h.answered x
    simpa only [List.count_cons, beq_iff_eq, eq_comm (a := id)] using hx
  have hid := han id
  have hle : entry b.requests id ≤ 1 := entry_le_one
  have hwa := h.waiting id
  refine ⟨h.unchallenged, fun x => ?_, fun x => ?_, fun x => ?_, ?_, h.ahead⟩
  · have hx := h.waiting x
    simp only [Board.run, entry_remove]
    grind
  · have hx := han x
    simp only [Board.run, entry_remove]
    grind
  · have hx := h.given x
    simp only [Board.run, entry_remove, List.count_append, List.count_singleton, beq_iff_eq, eq_comm (a := id)]
    grind
  · intro block x request hmem hget
    exact h.expiry hmem (get?_remove_eq_some.mp hget).2

end Staged

abbrev Stands (cfg : Config A) (s : State A) (queue expired : List RequestId) : Prop :=
  Staged cfg.challengePeriod s.blockNumber s.board queue expired

/-- No challenge is made, and the blocks are consecutive. -/
def quiet (s : State A) (op : Op A) : Bool :=
  match op.call with
  | .submitResponseChallenge .. => false
  | .onInitialize now => now = s.blockNumber + 1
  | _ => true

section
variable {cfg : Config A} {env : Env A} {s s' : State A} {queue expired : List RequestId}
  (hpe : 0 < cfg.challengePeriod.toNat)
include hpe

theorem newRequest_stands {r : NewRequest} {id : RequestId} (h : newRequest cfg env s r = .ok (s', id))
    (hs : Stands cfg s queue expired) : Stands cfg s' queue expired := by
  obtain ⟨info, hinf, hr, hbo, -, hbl⟩ := newRequest_board h
  unfold Stands
  rw [hbo, hbl]
  exact hs.request hpe hinf hr

variable [DecidableEq A]

theorem tryCallback_stands {id : RequestId} {request : CallRequest} {resp : CallResponse A}
    {error : Option Error} {w : Option Weight}
    (h : tryCallback cfg env (taken s id) id request resp = .ok (s', error, w))
    (hs : Stands cfg s (id :: queue) expired) : Stands cfg s' queue expired := by
  have hta : Stands cfg (taken s id) queue expired := hs.run
  refine (tryCallback_keeps (P := fun t => Stands cfg t queue expired) ?_ (fun _ ht => ht) (fun _ ht => ht) id request
    resp hta).ok h
  exact newRequest_stands hpe

theorem onIdle_stands {remaining used : Weight} (h : onIdle cfg env s remaining = .ok (s', used))
    (hs : Stands cfg s s.responsesForCallback expired) :
    Stands cfg s' s'.responsesForCallback expired := by
  unfold onIdle at h
  split at h
  · cases h
    exact hs
  simp only [bind_eq_ok, pure_eq_ok, Prod.mk.injEq] at h
  obtain ⟨⟨t, consumed, n⟩, hrun, rfl, -⟩ := h
  have hke : ∃ left, s.responsesForCallback.drop n = left ∧ Stands cfg t left expired := by
    refine runCallbacks_keeps (I := fun t n left => s.responsesForCallback.drop n = left ∧ Stands cfg t left expired)
      ?_ ?_ hrun ⟨rfl, hs⟩
    · rintro t n id rest hch ⟨-, hst⟩
      cases hch.symm.trans (hst.unchallenged id)
    · rintro t n id rest request resp t' error w htry ⟨hdr, hst⟩
      have hca : Stands cfg t' rest expired := tryCallback_stands hpe htry hst
      refine ⟨?_, hca⟩
      rw [← List.drop_drop, hdr]
      rfl
  obtain ⟨left, hl, hst⟩ := hke
  rw [← hl] at hst
  exact hst

theorem dispatch_stands {call : Call A} (hqt : quiet s ⟨env, call⟩ = true)
    (hc : ∀ now, call ≠ .onInitialize now) (h : dispatch cfg env s call = .ok s')
    (hs : Stands cfg s s.responsesForCallback expired) : Stands cfg s' s'.responsesForCallback expired := by
  cases call with
  | newRequest request =>
    obtain ⟨⟨t, id⟩, hnew, rfl⟩ := map_eq_ok.mp h
    obtain ⟨-, -, -, -, hqu, -⟩ := newRequest_board hnew
    rw [show t.responsesForCallback = _ from hqu]
    exact newRequest_stands hpe hnew hs
  | submitCallResponse origin id returnData number ts =>
    simp only [dispatch, submitCallResponse, bind_eq_ok, ensure_eq_ok, okOr_eq_ok, pure_eq_ok] at h
    obtain ⟨-, -, request, hre, -, hn, -, -, rfl⟩ := h
    exact hs.respond hpe hre hn
  | submitResponseChallenge origin id => cases hqt
  | onInitialize now => exact absurd rfl (hc now)
  | onIdle remaining =>
    obtain ⟨⟨t, used⟩, hdl, rfl⟩ := map_eq_ok.mp h
    exact onIdle_stands hpe hdl hs
  | _ =>
    obtain ⟨hbo, hqu, hbl⟩ := dispatch_aside rfl h
    unfold Stands
    rw [hbo, hqu, hbl]
    exact hs

end

/-- Every request is in one stage; those that ended were called back or have expired, once. -/
structure OneStage (cfg : Config A) (s : State A) (expired : List RequestId) : Prop where
  once : ∀ id, occurrences s.requestsExpiredAtBlock id + occurrences s.responsesValidAtBlock id +
    s.responsesForCallback.count id = if s.requests.contains id = true then 1 else 0
  responses : ∀ id, s.responses.contains id = true ↔
    (∃ block, id ∈ s.responsesValidAtBlock.getD block []) ∨ id ∈ s.responsesForCallback
  later : s.blockNumber.toNat + cfg.challengePeriod.toNat < 2 ^ 32 → ∀ block id,
    id ∈ s.requestsExpiredAtBlock.getD block [] ∨ id ∈ s.responsesValidAtBlock.getD block [] →
      s.blockNumber.toNat < block.toNat
  ended : (s.callbacks ++ expired).Nodup

theorem genesis_stands (cfg : Config A) (assets : GenericAsset.State A) : Stands cfg (State.genesis assets) [] [] := by
  refine ⟨fun _ => rfl, fun _ => rfl, fun _ => rfl, fun id => (if_neg (Nat.not_lt_zero _)).symm, ?_, ?_⟩
  · intro block id request hmem
    cases hmem
  · rintro block id (hmem | hmem)
    · cases hmem
    · cases hmem

theorem Staged.oneStage {cfg : Config A} {s : State A} {expired : List RequestId}
    (h : Stands cfg s s.responsesForCallback expired) : OneStage cfg s expired := by
  refine ⟨fun id => ?_, fun id => ?_, fun hr block id hid => ?_, ?_⟩
  · have hwa := h.waiting id
    have han := h.answered id
    show _ = entry s.board.requests id
    rw [← hwa, ← han]
    exact Nat.add_assoc ..
  · have han : occurrences s.responsesValidAtBlock id + s.responsesForCallback.count id = entry s.responses id :=
      h.answered id
    have hva : (∃ block, id ∈ s.responsesValidAtBlock.getD block []) ↔ occurrences s.responsesValidAtBlock id ≠ 0 := by
      simp [occurrences_eq_zero]
    have hey : s.responses.contains id = true ↔ entry s.responses id ≠ 0 := by simp [entry]
    rw [hva, hey, ← List.count_pos_iff]
    omega
  · obtain ⟨d, hpos, hle, rfl⟩ := h.ahead hid
    bv_omega
  · rw [List.nodup_iff_count_le_one]
    intro id
    have hgi : s.callbacks.count id + expired.count id + entry s.board.requests id = _ := h.given id
    rw [List.count_append]
    split at hgi <;> omega

section
variable [DecidableEq A]

def stageStep (cfg : Config A) (x : State A × List RequestId) (op : Op A) : State A × List RequestId :=
  (step cfg x.1 op,
    match op.call with
    | .onInitialize now => x.2 ++ x.1.requestsExpiredAtBlock.getD now []
    | _ => x.2)

theorem stageStep_stands {cfg : Config A} {x : State A × List RequestId} {op : Op A}
    (hpe : 0 < cfg.challengePeriod.toNat) (hqu : quiet x.1 op = true)
    (hs : Stands cfg x.1 x.1.responsesForCallback x.2) :
    Stands cfg (stageStep cfg x op).1 (stageStep cfg x op).1.responsesForCallback (stageStep cfg x op).2 := by
  obtain ⟨s, expired⟩ := x
  obtain ⟨env, call⟩ := op
  cases call with
  | onInitialize now =>
    obtain rfl : now = s.blockNumber + 1 := of_decide_eq_true hqu
    exact hs.newBlock
  | _ =>
    refine getD_cases (P := fun t : State A => Stands cfg t t.responsesForCallback expired) (fun t hok => ?_) hs
    exact dispatch_stands hpe hqu nofun hok hs

/-- In every run over consecutive blocks without challenges, every request is in one stage. -/
theorem requests_in_one_stage (cfg : Config A) (hperiod : 0 < cfg.challengePeriod.toNat)
    (assets : GenericAsset.State A) (ops : List (Op A))
    (hrun : Each (stageStep cfg) (fun x op => quiet x.1 op = true) (State.genesis assets, []) ops) :
    OneStage cfg (execute (stageStep cfg) (State.genesis assets, []) ops).1
      (execute (stageStep cfg) (State.genesis assets, []) ops).2 :=
  Staged.oneStage (hrun.invariant (I := fun x => Stands cfg x.1 x.1.responsesForCallback x.2)
    (fun _ _ => stageStep_stands hperiod) (genesis_stands cfg assets))

end

/-! ### Three requests -/

def sampleStages (period : BlockNumber) : Config Nat := { sampleConfig with challengePeriod := period }

def staged (period : BlockNumber) (calls : List (Call Nat)) : State Nat × List RequestId :=
  execute (stageStep (sampleStages period)) (sampleGenesis, []) (calls.map fun call => { env := sampleEnv, call := call })

/-- Of two requests of block 1 one is called back in block 2, where the other expires. A third waits. -/
theorem three_requests_in_one_stage : ∃ x, x = staged 1 [.bondRelayer 1, .bondChallenger 2, .onInitialize 1,
      .newRequest sampleRequest, .newRequest sampleRequest, .submitCallResponse 1 0 (.ok 7) 20 100, .onInitialize 2,
      .onIdle 10000000000, .newRequest sampleRequest] ∧
    x.1.callbacks = [0] ∧ x.2 = [1] ∧ x.1.requestsExpiredAtBlock.getD 3 [] = [2] ∧ OneStage (sampleStages 1) x.1 x.2 :=
  ⟨_, rfl, by decide +kernel, by decide +kernel, by decide +kernel,
    requests_in_one_stage (sampleStages 1) (by decide) _ _ (by decide +kernel)⟩

theorem expiry_wraps : ∃ s, s = (staged 4294967295 [.bondChallenger 2, .onInitialize 1, .newRequest sampleRequest]).1 ∧
    s.blockNumber = 1 ∧ s.requests.contains 0 = true ∧ s.requestsExpiredAtBlock.getD 0 [] = [0] ∧
      ¬∀ block id, id ∈ s.requestsExpiredAtBlock.getD block [] → s.blockNumber.toNat < block.toNat := by
  refine ⟨_, rfl, by decide +kernel, by decide +kernel, by decide +kernel, fun hla => ?_⟩
  exact absurd (hla 0 0 (by decide +kernel)) (Nat.not_lt_zero _)

end EthStateOracle
