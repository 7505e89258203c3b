import Cennznet.EthStateOracle
import Cennznet.Theorems.Cennzx.ShareValue

/-! # Requests on their way to a callback -/

namespace EthStateOracle

open Erc20Peg (BlockNumber)
open Result StorageMap List

structure Board (A : Type) where
  next : RequestId
  requests : StorageMap RequestId CallRequest
  responses : StorageMap RequestId (CallResponse A)
  challenged : StorageMap RequestId A
  validAt : StorageMap BlockNumber (List RequestId)
  expiredAt : StorageMap BlockNumber (List RequestId)
  callbacks : List RequestId

variable {A : Type}

def State.board (s : State A) : Board A where
  next := s.nextRequestId
  requests := s.requests
  responses := s.responses
  challenged := s.responsesChallenged
  validAt := s.responsesValidAtBlock
  expiredAt := s.requestsExpiredAtBlock
  callbacks := s.callbacks

namespace Board

def request (b : Board A) (info : CallRequest) : Board A :=
  { b with
    next := b.next + 1
    requests := b.requests.insert b.next info
    expiredAt := b.expiredAt.insert info.expiryBlock (b.expiredAt.getD info.expiryBlock [] ++ [b.next]) }

def respond (b : Board A) (id : RequestId) (expiry validBlock : BlockNumber) (response : CallResponse A) : Board A :=
  { b with
    responses := b.responses.insert id response
    validAt := b.validAt.insert validBlock (b.validAt.getD validBlock [] ++ [id])
    expiredAt := b.expiredAt.insert expiry ((b.expiredAt.getD expiry []).filter (· ≠ id)) }

def challenge (b : Board A) (id : RequestId) (who : A) : Board A :=
  { b with challenged := b.challenged.insert id who }

def newBlock (b : Board A) (now : BlockNumber) : Board A :=
  { b with
    requests := b.requests.removeAll (b.expiredAt.getD now [])
    validAt := b.validAt.remove now
    expiredAt := b.expiredAt.remove now }

def run (b : Board A) (id : RequestId) : Board A :=
  { b with
    requests := b.requests.remove id
    responses := b.responses.remove id
    callbacks := b.callbacks ++ [id] }

end Board

def Scheduled (b : Board A) (queue : List RequestId) (id : RequestId) : Prop :=
  id ∈ queue ∨ ∃ block, id ∈ b.validAt.getD block []

structure Sound (b : Board A) (queue : List RequestId) : Prop where
  known : ∀ {id request}, b.requests.get? id = some request → id.toNat < b.next.toNat
  responded : ∀ {id response}, b.responses.get? id = some response → ∃ request, b.requests.get? id = some request
  scheduled : ∀ {id}, Scheduled b queue id → ∃ response, b.responses.get? id = some response
  nodup : queue.Nodup
  valid : ∀ block, (b.validAt.getD block []).Nodup
  apart : ∀ {block id}, id ∈ b.validAt.getD block [] → id ∉ queue
  once : ∀ {block block' id}, id ∈ b.validAt.getD block [] → id ∈ b.validAt.getD block' [] → block = block'
  expiring : ∀ {block id}, id ∈ b.expiredAt.getD block [] → b.responses.get? id = none ∧ id.toNat < b.next.toNat ∧
    ∀ request, b.requests.get? id = some request → request.expiryBlock = block
  called : ∀ {id}, id ∈ b.callbacks → id.toNat < b.next.toNat ∧ b.requests.get? id = none ∧ b.challenged.get? id = none
  calledOnce : b.callbacks.Nodup

section
variable {b : Board A} {queue : List RequestId} {id : RequestId}

theorem Sound.responses_next (h : Sound b queue) : b.responses.get? b.next = none := by
  cases hget : b.responses.get? b.next with
  | none => rfl
  | some resp =>
    obtain ⟨request, hre⟩ := h.responded hget
    exact absurd (h.known hre) (Nat.lt_irrefl _)

theorem Sound.request_of_scheduled (h : Sound b queue) (hid : Scheduled b queue id) :
    ∃ request, b.requests.get? id = some request := by
  obtain ⟨resp, hre⟩ := h.scheduled hid
  exact h.responded hre

theorem Sound.not_scheduled (h : Sound b queue) (hid : b.responses.get? id = none) : ¬Scheduled b queue id := by
  intro hsc
  obtain ⟨resp, hre⟩ := h.scheduled hsc
  rw [hid] at hre
  cases hre

theorem Sound.not_called (h : Sound b queue) {request : CallRequest} (hid : b.requests.get? id = some request) :
    id ∉ b.callbacks := by
  intro hca
  rw [(h.called hca).2.1] at hid
  cases hid

theorem Sound.request (h : Sound b queue) (info : CallRequest) (hr : b.next.toNat + 1 < 2 ^ 256) :
    Sound (b.request info) queue := by
  have hx : (b.request info).next.toNat = b.next.toNat + 1 := by
    show (b.next + 1).toNat = _
    bv_omega
  have hre (id : RequestId) : (b.request info).requests.get? id = if id = b.next then some info else b.requests.get? id :=
    get?_insert
  have hold {id : RequestId} (hlt : id.toNat < b.next.toNat) : (b.request info).requests.get? id = b.requests.get? id := by
    refine (hre id).trans (if_neg ?_)
    rintro rfl
    exact Nat.lt_irrefl _ hlt
  refine ⟨?_, ?_, h.scheduled, h.nodup, h.valid, h.apart, h.once, ?_, ?_, h.calledOnce⟩
  · intro id request hget
    rw [hx]
    rcases get?_insert_eq_some.mp hget with ⟨rfl, -⟩ | ⟨-, hget⟩
    · exact Nat.lt_succ_self _
    · exact Nat.lt_succ_of_lt (h.known hget)
  · intro id resp hget
    obtain ⟨request, hrq⟩ := h.responded hget
    rw [hre]
    split
    · exact ⟨info, rfl⟩
    · exact ⟨request, hrq⟩
  · intro block id hid
    rw [hx]
    rcases mem_getD_push.mp hid with hmem | ⟨rfl, rfl⟩
    · obtain ⟨hn, hlt, hbl⟩ := h.expiring hmem
      rw [hold hlt]
      exact ⟨hn, Nat.lt_succ_of_lt hlt, hbl⟩
    · refine ⟨h.responses_next, Nat.lt_succ_self _, fun request hget => ?_⟩
      rw [hre, if_pos rfl] at hget
      cases hget
      rfl
  · intro id hid
    obtain ⟨hlt, hn, hch⟩ := h.called hid
    rw [hx, hold hlt]
    exact ⟨Nat.lt_succ_of_lt hlt, hn, hch⟩

variable {request : CallRequest}

theorem Sound.expiring_respond (h : Sound b queue) (hre : b.requests.get? id = some request)
    {validBlock block : BlockNumber} {resp : CallResponse A} {x : RequestId}
    (hx : x ∈ (b.respond id request.expiryBlock validBlock resp).expiredAt.getD block []) :
    x ∈ b.expiredAt.getD block [] ∧ x ≠ id := by
  have hex : (b.respond id request.expiryBlock validBlock resp).expiredAt.getD block [] =
      if block = request.expiryBlock then (b.expiredAt.getD request.expiryBlock []).filter (· ≠ id)
      else b.expiredAt.getD block [] := getD_insert
  rw [hex] at hx
  split_ifs at hx with heq
  · subst heq
    obtain ⟨hmem, hne⟩ := mem_filter.mp hx
    exact ⟨hmem, of_decide_eq_true hne⟩
  · refine ⟨hx, ?_⟩
    rintro rfl
    exact heq ((h.expiring hx).2.2 request hre).symm

theorem Sound.respond (h : Sound b queue) (hrq : b.requests.get? id = some request)
    (hn : b.responses.get? id = none) (validBlock : BlockNumber) (resp : CallResponse A) :
    Sound (b.respond id request.expiryBlock validBlock resp) queue := by
  have hre (x : RequestId) : (b.respond id request.expiryBlock validBlock resp).responses.get? x =
      if x = id then some resp else b.responses.get? x := get?_insert
  have hva (block : BlockNumber) : (b.respond id request.expiryBlock validBlock resp).validAt.getD block [] =
      if block = validBlock then b.validAt.getD validBlock [] ++ [id] else b.validAt.getD block [] :=
    getD_insert
  have hnew := h.not_scheduled hn
  have hnv (block : BlockNumber) : id ∉ b.validAt.getD block [] := fun hmem => hnew (Or.inr ⟨block, hmem⟩)
  -- what stands in a schedule stood there, or is the new response
  have hmv {block : BlockNumber} {x : RequestId}
      (hx : x ∈ (b.respond id request.expiryBlock validBlock resp).validAt.getD block []) :
      x ∈ b.validAt.getD block [] ∨ (block = validBlock ∧ x = id) := mem_getD_push.mp hx
  refine ⟨h.known, ?_, ?_, h.nodup, ?_, ?_, ?_, ?_, h.called, h.calledOnce⟩
  · intro x r hget
    rcases get?_insert_eq_some.mp hget with ⟨rfl, -⟩ | ⟨-, hold⟩
    · exact ⟨request, hrq⟩
    · exact h.responded hold
  · intro x hx
    rw [hre]
    split_ifs with hne
    · exact ⟨resp, rfl⟩
    · refine h.scheduled (hx.imp_right ?_)
      rintro ⟨block, hmem⟩
      exact ⟨block, (hmv hmem).resolve_right fun heq => hne heq.2⟩
  · intro block
    rw [hva]
    split
    · exact nodup_append.mpr ⟨h.valid validBlock, nodup_singleton id, fun x hx y hy heq =>
        hnv validBlock (mem_singleton.mp hy ▸ heq ▸ hx)⟩
    · exact h.valid block
  · intro block x hx hqu
    rcases hmv hx with hmem | ⟨-, rfl⟩
    · exact h.apart hmem hqu
    · exact hnew (Or.inl hqu)
  · intro block block' x hx hx'
    rcases hmv hx with hmem | ⟨rfl, rfl⟩
    · rcases hmv hx' with hme' | ⟨-, rfl⟩
      · exact h.once hmem hme'
      · exact absurd hmem (hnv block)
    · rcases hmv hx' with hme' | ⟨rfl, -⟩
      · exact absurd hme' (hnv block')
      · rfl
  · intro block x hx
    obtain ⟨hmem, hne⟩ := h.expiring_respond hrq hx
    rw [hre, if_neg hne]
    exact h.expiring hmem

theorem Sound.challenge (h : Sound b queue) (hre : b.requests.get? id = some request) (who : A) :
    Sound (b.challenge id who) queue := by
  refine ⟨h.known, h.responded, h.scheduled, h.nodup, h.valid, h.apart, h.once, h.expiring, ?_, h.calledOnce⟩
  intro x hx
  obtain ⟨hlt, hn, hch⟩ := h.called hx
  have hne : x ≠ id := by
    rintro rfl
    exact h.not_called hre hx
  have hget : (b.challenge id who).challenged.get? x = if x = id then some who else b.challenged.get? x := get?_insert
  rw [hget, if_neg hne]
  exact ⟨hlt, hn, hch⟩

theorem Sound.newBlock (h : Sound b queue) (now : BlockNumber) :
    Sound (b.newBlock now) (queue ++ b.validAt.getD now []) := by
  have hrq (x : RequestId) : (b.newBlock now).requests.get? x =
      if x ∈ b.expiredAt.getD now [] then none else b.requests.get? x := get?_removeAll
  have hva (block : BlockNumber) : (b.newBlock now).validAt.getD block [] =
      if block = now then [] else b.validAt.getD block [] := getD_remove
  have hk {x : RequestId} {request : CallRequest} (hget : (b.newBlock now).requests.get? x = some request) :
      b.requests.get? x = some request := (get?_removeAll_eq_some.mp hget).2
  have hmv {block : BlockNumber} {x : RequestId} (hx : x ∈ (b.newBlock now).validAt.getD block []) :
      block ≠ now ∧ x ∈ b.validAt.getD block [] := mem_getD_remove.mp hx
  refine ⟨fun hget => h.known (hk hget), ?_, ?_, ?_, ?_, ?_, ?_, ?_, ?_, h.calledOnce⟩
  · intro x response hget
    -- a request with a response does not expire
    have hre : b.responses.get? x = some response := hget
    have hst : x ∉ b.expiredAt.getD now [] := fun hmem => by
      rw [(h.expiring hmem).1] at hre
      cases hre
    rw [hrq, if_neg hst]
    exact h.responded hre
  · intro x hx
    refine h.scheduled ?_
    rcases hx with hqu | ⟨block, hmem⟩
    · exact (mem_append.mp hqu).imp_right fun hmem => ⟨now, hmem⟩
    · exact Or.inr ⟨block, (hmv hmem).2⟩
  · refine nodup_append.mpr ⟨h.nodup, h.valid now, ?_⟩
    rintro x hx y hy rfl
    exact h.apart hy hx
  · intro block
    rw [hva]
    split
    · exact nodup_nil
    · exact h.valid block
  · intro block x hx hqu
    obtain ⟨hne, hmem⟩ := hmv hx
    rcases mem_append.mp hqu with hold | hnow
    · exact h.apart hmem hold
    · exact hne (h.once hmem hnow)
  · intro block block' x hx hx'
    exact h.once (hmv hx).2 (hmv hx').2
  · intro block x hx
    obtain ⟨-, hmem⟩ := mem_getD_remove.mp hx
    obtain ⟨hn, hlt, hbl⟩ := h.expiring hmem
    exact ⟨hn, hlt, fun request hget => hbl request (hk hget)⟩
  · intro x hx
    obtain ⟨hlt, hn, hch⟩ := h.called hx
    refine ⟨hlt, ?_, hch⟩
    rw [hrq, hn]
    exact ite_self none

theorem Sound.run (h : Sound b (id :: queue)) (hch : b.challenged.get? id = none) : Sound (b.run id) queue := by
  have hrq (x : RequestId) : (b.run id).requests.get? x = if x = id then none else b.requests.get? x := get?_remove
  have hre (x : RequestId) : (b.run id).responses.get? x = if x = id then none else b.responses.get? x := get?_remove
  have hk {x : RequestId} {request : CallRequest} (hget : (b.run id).requests.get? x = some request) :
      b.requests.get? x = some request := (get?_remove_eq_some.mp hget).2
  obtain ⟨hfi, hr⟩ := nodup_cons.mp h.nodup
  obtain ⟨request, hrt⟩ := h.request_of_scheduled (Or.inl mem_cons_self)
  refine ⟨fun hget => h.known (hk hget), ?_, ?_, hr, h.valid, ?_, h.once, ?_, ?_, ?_⟩
  · intro x resp hget
    obtain ⟨hne, hold⟩ := get?_remove_eq_some.mp hget
    rw [hrq, if_neg hne]
    exact h.responded hold
  · intro x hx
    have hne : x ≠ id := by
      rintro rfl
      rcases hx with hqu | ⟨block, hmem⟩
      · exact hfi hqu
      · exact h.apart hmem mem_cons_self
    rw [hre, if_neg hne]
    exact h.scheduled (hx.imp_left (mem_cons_of_mem id))
  · intro block x hx hqu
    exact h.apart hx (mem_cons_of_mem id hqu)
  · intro block x hx
    obtain ⟨hn, hlt, hbl⟩ := h.expiring hx
    rw [hre, hn]
    exact ⟨ite_self none, hlt, fun request hget => hbl request (hk hget)⟩
  · intro x hx
    rw [hrq]
    rcases mem_append.mp hx with hold | hnew
    · obtain ⟨hlt, hn, hf⟩ := h.called hold
      rw [hn]
      exact ⟨hlt, ite_self none, hf⟩
    · rw [mem_singleton.mp hnew, if_pos rfl]
      exact ⟨h.known hrt, rfl, hch⟩
  · refine nodup_append.mpr ⟨h.calledOnce, nodup_singleton id, ?_⟩
    rintro x hx y hy rfl
    exact h.not_called hrt (mem_singleton.mp hy ▸ hx)

end

/-! ### Requests of contracts -/

structure Keeps (b b' : Board A) : Prop where
  next : b.next.toNat ≤ b'.next.toNat
  challenged : b'.challenged = b.challenged
  callbacks : b'.callbacks = b.callbacks
  requests : ∀ id, id.toNat < b.next.toNat → b'.requests.get? id = b.requests.get? id

theorem Keeps.request {b b' : Board A} {info : CallRequest} (h : Keeps b b') (hr : b'.next.toNat + 1 < 2 ^ 256) :
    Keeps b (b'.request info) := by
  have hx : (b'.next + 1).toNat = b'.next.toNat + 1 := by bv_omega
  refine ⟨?_, h.challenged, h.callbacks, fun id hid => ?_⟩
  · exact h.next.trans (hx ▸ Nat.le_succ _)
  · refine (get?_insert_ne ?_).trans (h.requests id hid)
    rintro rfl
    exact absurd h.next (Nat.not_le.mpr hid)

section
variable {cfg : Config A} {env : Env A} {s s' : State A}

variable {id : RequestId}

theorem newRequest_board {r : NewRequest} (h : newRequest cfg env s r = .ok (s', id)) :
    ∃ info, info.expiryBlock = s.blockNumber + cfg.challengePeriod ∧ s.board.next.toNat + 1 < 2 ^ 256 ∧
      s'.board = s.board.request info ∧ s'.responsesForCallback = s.responsesForCallback ∧
        s'.blockNumber = s.blockNumber := by
  simp only [newRequest, bind_eq_ok, ensure_eq_ok, okOr_eq_ok, pure_eq_ok, Prod.mk.injEq] at h
  obtain ⟨-, -, -, -, next, hx, rfl, -⟩ := h
  have hsum : s.nextRequestId.toNat + 1 = next.toNat := Word.checkedAdd_eq_some.mp hx
  have hx : next = s.nextRequestId + 1 := by bv_omega
  subst hx
  refine ⟨_, rfl, ?_, rfl, rfl, rfl⟩
  show s.nextRequestId.toNat + 1 < 2 ^ 256
  rw [hsum]
  exact BitVec.isLt _

section
variable {P : State A → Prop} (hnew : ∀ {s s' r id}, newRequest cfg env s r = .ok (s', id) → P s → P s')
include hnew

theorem reenter_keeps (r : NewRequest) (hs : P s) : Ends (reenter cfg env s r) P (· = .overflow) := by
  unfold reenter
  split
  · rename_i hr
    exact hnew hr hs
  · exact rfl
  · exact hs

theorem executeContract_keeps {call : ContractCall} (hs : P { s with assets := (env.execute s.assets call).assets }) :
    Ends (executeContract cfg env s call) (fun r => P r.1) (· = .overflow) := by
  unfold executeContract
  exact Ends.bind (Ends.foldlM (fun t r => reenter_keeps hnew r) hs) fun t _ ht => ht

/-- A callback at most makes requests, transfers and runs a contract, and panics only from an overflow. -/
theorem tryCallback_keeps [DecidableEq A]
    (htr : ∀ {s : State A} {assets who dest aid n},
      GenericAsset.MultiCurrency.transfer cfg.assets s.assets who dest aid n = .ok assets →
      P s → P { s with assets := assets })
    (hrun : ∀ {s : State A} call, P s → P { s with assets := (env.execute s.assets call).assets }) (id : RequestId)
    (request : CallRequest) (resp : CallResponse A) (hs : P s) :
    Ends (tryCallback cfg env s id request resp) (fun r => P r.1) (· = .overflow) := by
  unfold tryCallback
  split
  · exact hs
  dsimp only
  split
  · exact hs
  rename_i assets hex
  have hp : P { s with assets := assets } := by
    unfold exchangeFee at hex
    split at hex
    · cases hex
      exact hs
    · simp only [Cennzx.buyFeeAsset, Cennzx.executeBuy, bind_eq_ok, mapError_eq_ok, pure_eq_ok] at hex
      obtain ⟨_, ⟨_, -, -, -, -, -, t, htd, rfl⟩, rfl⟩ := hex
      exact (Cennzx.executeTrade_transfers htd).assets (I := fun g => P { s with assets := g })
        (fun g g' _ _ _ _ hg => htr (s := { s with assets := g }) hg) hs
  split
  · exact hp
  rename_i paid hbn
  have hbo : P { s with assets := paid } := htr (s := { s with assets := assets }) hbn hp
  split
  · exact hbo
  rename_i funded hgas
  have hfu : P { s with assets := funded } := htr (s := { s with assets := paid }) hgas hbo
  exact executeContract_keeps hnew (hrun (s := { s with assets := funded }) _ hfu)

end

theorem tryCallback_ends [DecidableEq A] {queue : List RequestId} (hs : Sound s.board queue) (id : RequestId)
    (request : CallRequest) (resp : CallResponse A) :
    Ends (tryCallback cfg env s id request resp) (fun r => Sound r.1.board queue ∧ Keeps s.board r.1.board)
      (· = .overflow) := by
  refine tryCallback_keeps (P := fun t => Sound t.board queue ∧ Keeps s.board t.board) ?_ (fun _ ht => ht)
    (fun _ ht => ht) id request resp ⟨hs, Nat.le_refl _, rfl, rfl, fun _ _ => rfl⟩
  rintro t t' r id hr ⟨hso, hke⟩
  obtain ⟨info, -, hrm, hbo, -⟩ := newRequest_board hr
  rw [hbo]
  exact ⟨hso.request info hrm, hke.request hrm⟩

def State.Ordered (s : State A) : Prop := Sound s.board s.responsesForCallback

theorem genesis_ordered (assets : GenericAsset.State A) : (State.genesis assets).Ordered := by
  refine ⟨nofun, nofun, ?_, nodup_nil, fun _ => nodup_nil, nofun, nofun, nofun, nofun, nodup_nil⟩
  rintro id (hmem | ⟨block, hmem⟩)
  · cases hmem
  · cases hmem

theorem newRequest_ordered {r : NewRequest} (h : newRequest cfg env s r = .ok (s', id)) (hs : s.Ordered) :
    s'.Ordered := by
  obtain ⟨info, -, hr, hbo, hqu, -⟩ := newRequest_board h
  unfold State.Ordered
  rw [hbo, hqu]
  exact Sound.request hs info hr

theorem onInitialize_ordered (now : BlockNumber) (hs : s.Ordered) : (onInitialize { s with blockNumber := now } now).Ordered := by
  have hso : Sound s.board s.responsesForCallback := hs
  exact hso.newBlock now

variable [DecidableEq A]

theorem submitCallResponse_ordered {origin : A} {returnData : ReturnDataClaim} {number ts : BitVec 64}
    (h : submitCallResponse cfg s origin id returnData number ts = .ok s') (hs : s.Ordered) : s'.Ordered := by
  simp only [submitCallResponse, bind_eq_ok, ensure_eq_ok, okOr_eq_ok, pure_eq_ok] at h
  obtain ⟨-, -, request, hre, -, hn, -, -, rfl⟩ := h
  have hso : Sound s.board s.responsesForCallback := hs
  exact hso.respond hre (not_contains_iff.mp hn) _ _

theorem submitResponseChallenge_ordered {origin : A}
    (h : submitResponseChallenge cfg env s origin id = .ok s') (hs : s.Ordered) : s'.Ordered := by
  simp only [submitResponseChallenge, bind_eq_ok, ensure_eq_ok, okOr_eq_ok, pure_eq_ok] at h
  obtain ⟨request, hre, -, -, -, -, resp, -, rfl⟩ := h
  have hso : Sound s.board s.responsesForCallback := hs
  exact hso.challenge hre origin

def Call.onBoard : Call A → Bool
  | .newRequest _ | .submitCallResponse .. | .submitResponseChallenge .. | .onInitialize _ | .onIdle _ => true
  | _ => false

theorem dispatch_aside {call : Call A} (hc : call.onBoard = false) (h : dispatch cfg env s call = .ok s') :
    s'.board = s.board ∧ s'.responsesForCallback = s.responsesForCallback ∧ s'.blockNumber = s.blockNumber := by
  cases call with
  | bondRelayer origin =>
    simp only [dispatch, bondRelayer, bind_eq_ok, pure_eq_ok] at h
    obtain ⟨-, -, -, -, assets, -, rfl⟩ := h
    exact ⟨rfl, rfl, rfl⟩
  | unbondRelayer origin =>
    simp only [dispatch, unbondRelayer, bind_eq_ok, pure_eq_ok] at h
    obtain ⟨-, -, -, -, rfl⟩ := h
    exact ⟨rfl, rfl, rfl⟩
  | setMaxResponseDrift n =>
    cases h
    exact ⟨rfl, rfl, rfl⟩
  | bondChallenger origin =>
    simp only [dispatch, bondChallenger, bind_eq_ok, pure_eq_ok] at h
    obtain ⟨-, -, assets, -, rfl⟩ := h
    exact ⟨rfl, rfl, rfl⟩
  | unbondChallenger origin =>
    simp only [dispatch, unbondChallenger, bind_eq_ok, pure_eq_ok] at h
    obtain ⟨-, -, -, -, rfl⟩ := h
    exact ⟨rfl, rfl, rfl⟩
  | _ => cases hc

theorem dispatch_ordered {call : Call A} (hc : ∀ w, call ≠ .onIdle w) (h : dispatch cfg env s call = .ok s')
    (hs : s.Ordered) : s'.Ordered := by
  cases call with
  | newRequest request =>
    obtain ⟨⟨t, id⟩, hnew, rfl⟩ := map_eq_ok.mp h
    exact newRequest_ordered hnew hs
  | submitCallResponse origin id returnData number ts => exact submitCallResponse_ordered h hs
  | submitResponseChallenge origin id => exact submitResponseChallenge_ordered h hs
  | onInitialize now =>
    cases h
    exact onInitialize_ordered now hs
  | onIdle w => exact absurd rfl (hc w)
  | _ =>
    obtain ⟨hbo, hqu, -⟩ := dispatch_aside rfl h
    unfold State.Ordered
    rw [hbo, hqu]
    exact hs

end

end EthStateOracle
