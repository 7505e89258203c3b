import Cennznet.Lib.Run
import Cennznet.Theorems.EthStateOracle.Board

/-! # The queue of callbacks

Challenged responses are passed over, but as many ids leave the queue as were run. -/

namespace EthStateOracle

open Result Word Steps List

variable {A : Type}

/-- The weight left does not allow for the callback, even as the first one. -/
def Overweight (cfg : Config A) (rem : Weight) (rq : CallRequest) : Prop :=
  rem.toNat < (saturatingAdd (saturatingAdd (idleWeight cfg) (perCallbackWeight cfg))
    (cfg.gasToWeight rq.callbackGasLimit)).toNat

/-- Behind a challenged response of the queue stand challenged ones, and requests there is no weight for. -/
def StopsAtChallenge (cfg : Config A) (rem : Weight) (s : State A) (queue : List RequestId) : Prop :=
  ∀ before id behind rq, queue = before ++ id :: behind → (∃ x ∈ before, s.responsesChallenged.contains x = true) →
    s.responsesChallenged.contains id = false → s.requests.get? id = some rq → Overweight cfg rem rq

structure Ran (s : State A) (s' : State A) (ran left : List RequestId) : Prop where
  callbacks : s'.callbacks = s.callbacks ++ ran
  challenged : s'.responsesChallenged = s.responsesChallenged
  unchallenged : ∀ id ∈ ran, s.responsesChallenged.contains id = false
  sound : Sound s'.board left

variable {cfg : Config A} {env : Env A} {rem : Weight} {s : State A} {queue : List RequestId}

variable {used : Weight} {n : Nat}

theorem overweight_mono {rq : CallRequest} (hco : (idleWeight cfg).toNat ≤ used.toNat) (h : Overweight cfg rem rq) :
    rem.toNat < (saturatingAdd (saturatingAdd used (perCallbackWeight cfg))
      (cfg.gasToWeight rq.callbackGasLimit)).toNat := by
  unfold Overweight at h
  rw [toNat_saturatingAdd, toNat_saturatingAdd] at h ⊢
  omega

def taken (s : State A) (id : RequestId) : State A :=
  { s with
    requests := s.requests.remove id
    responses := s.responses.remove id
    callbacks := s.callbacks ++ [id] }

theorem stopsAtChallenge_tail {t : State A} {id : RequestId} (hso : Sound s.board (id :: queue))
    (hst : StopsAtChallenge cfg rem s (id :: queue)) (hke : Keeps (taken s id).board t.board) :
    StopsAtChallenge cfg rem t queue := by
  intro before x behind rq hqu hbe hf hre
  have hch : t.responsesChallenged = s.responsesChallenged := hke.challenged
  have hmem : x ∈ queue := hqu ▸ mem_append_right before mem_cons_self
  have hne : x ≠ id := by
    rintro rfl
    exact (nodup_cons.mp hso.nodup).1 hmem
  obtain ⟨info, hinf⟩ := hso.request_of_scheduled (Or.inl (mem_cons_of_mem id hmem))
  have hs : t.requests.get? x = s.requests.get? x := by
    refine (hke.requests x (hso.known hinf)).trans ?_
    exact StorageMap.get?_remove_ne hne
  rw [hch] at hbe hf
  rw [hs] at hre
  refine hst (id :: before) x behind rq (by rw [hqu]; rfl) ?_ hf hre
  obtain ⟨y, hy, hcy⟩ := hbe
  exact ⟨y, mem_cons_of_mem id hy, hcy⟩

theorem ran_nil (h : Sound s.board queue) : Ran s s [] queue := ⟨(append_nil _).symm, rfl, nofun, h⟩

theorem ran_cons {t t' : State A} {id : RequestId} {ran left : List RequestId}
    (hid : s.responsesChallenged.contains id = false) (hke : Keeps (taken s id).board t.board) (h : Ran t t' ran left) :
    Ran s t' (id :: ran) left := by
  have hch : t.responsesChallenged = s.responsesChallenged := hke.challenged
  have hca : t.callbacks = s.callbacks ++ [id] := hke.callbacks
  refine ⟨?_, h.challenged.trans hch, fun x hx => ?_, h.sound⟩
  · rw [h.callbacks, hca, append_assoc]
    rfl
  · rcases mem_cons.mp hx with rfl | hmem
    · exact hid
    · exact hch ▸ h.unchallenged x hmem

variable [DecidableEq A]

theorem runCallbacks_stops (hco : (idleWeight cfg).toNat ≤ used.toNat)
    (hkn : ∀ id ∈ queue, ∃ rq, s.requests.get? id = some rq)
    (h : ∀ id ∈ queue, ∀ rq, s.responsesChallenged.contains id = false → s.requests.get? id = some rq →
      Overweight cfg rem rq) :
    runCallbacks cfg env rem s used n queue = .ok (s, used, n) := by
  induction queue with
  | nil => rfl
  | cons id rest ih =>
    unfold runCallbacks
    by_cases hch : s.responsesChallenged.contains id = true
    · rw [if_pos hch]
      exact ih (fun x hx => hkn x (mem_cons_of_mem id hx)) fun x hx => h x (mem_cons_of_mem id hx)
    · obtain ⟨rq, hre⟩ := hkn id mem_cons_self
      have hhe := h id mem_cons_self rq (Bool.eq_false_of_not_eq_true hch) hre
      rw [if_neg hch, hre, okOr_some, ok_bind]
      dsimp only
      rw [if_pos (overweight_mono hco hhe)]

theorem runCallbacks_challenged {id : RequestId} (hid : s.responsesChallenged.contains id = true)
    (hco : (idleWeight cfg).toNat ≤ used.toNat) (hso : Sound s.board (id :: queue))
    (hst : StopsAtChallenge cfg rem s (id :: queue)) :
    runCallbacks cfg env rem s used n (id :: queue) = .ok (s, used, n) := by
  refine runCallbacks_stops hco (fun x hx => hso.request_of_scheduled (Or.inl hx)) ?_
  intro x hx rq hf hre
  rcases mem_cons.mp hx with rfl | hmem
  · rw [hid] at hf
    cases hf
  · obtain ⟨before, behind, rfl⟩ := append_of_mem hmem
    exact hst (id :: before) x behind rq rfl ⟨id, mem_cons_self, hid⟩ hf hre

theorem runCallbacks_ends (hco : (idleWeight cfg).toNat ≤ used.toNat) (hso : Sound s.board queue)
    (hst : StopsAtChallenge cfg rem s queue) :
    Ends (runCallbacks cfg env rem s used n queue)
      (fun r => ∃ ran left, queue = ran ++ left ∧ r.2.2 = n + ran.length ∧ Ran s r.1 ran left) (· = .overflow) := by
  induction queue generalizing s used n with
  | nil => exact ⟨[], [], rfl, rfl, ran_nil hso⟩
  | cons id rest ih =>
    by_cases hid : s.responsesChallenged.contains id = true
    · rw [runCallbacks_challenged hid hco hso hst]
      exact ⟨[], id :: rest, rfl, rfl, ran_nil hso⟩
    have hf : s.responsesChallenged.contains id = false := Bool.eq_false_of_not_eq_true hid
    obtain ⟨response, hre⟩ := hso.scheduled (Or.inl mem_cons_self)
    obtain ⟨rq, hrq⟩ := hso.responded hre
    have hrq' : s.requests.get? id = some rq := hrq
    have hre' : s.responses.get? id = some response := hre
    unfold runCallbacks
    rw [if_neg hid, hrq', okOr_some, ok_bind]
    dsimp only
    split
    · exact ⟨[], id :: rest, rfl, rfl, ran_nil hso⟩
    · rw [hre', okOr_some, ok_bind]
      have hrun : Sound (taken s id).board rest := hso.run (StorageMap.not_contains_iff.mp hf)
      refine (tryCallback_ends hrun id rq response).bind ?_
      rintro ⟨t, error, w⟩ - ⟨hca, hke⟩
      have hmo : (idleWeight cfg).toNat ≤
          (saturatingAdd (saturatingAdd used (perCallbackWeight cfg)) (w.getD 0)).toNat := by
        have hlt := used.isLt
        rw [toNat_saturatingAdd, toNat_saturatingAdd]
        omega
      have hr := ih (s := depositEvent t (callbackEvent id error (w.getD 0))) (n := n + 1) hmo
        hca (stopsAtChallenge_tail hso hst hke)
      refine hr.mono ?_
      rintro ⟨t', used', n'⟩ ⟨ran, left, rfl, hn, hran⟩
      refine ⟨id :: ran, left, rfl, ?_, ran_cons (t := depositEvent t _) hf hke hran⟩
      rw [hn, length_cons]
      omega

/-- An invariant of the loop, over the state, the number of callbacks run, and the rest of the queue. -/
theorem runCallbacks_keeps {I : State A → Nat → List RequestId → Prop} {r : State A × Weight × Nat}
    (hsk : ∀ {s n id rest}, s.responsesChallenged.contains id = true → I s n (id :: rest) → I s n rest)
    (hc : ∀ {s n id rest rq resp t error w},
      tryCallback cfg env (taken s id) id rq resp = .ok (t, error, w) → I s n (id :: rest) →
        I (depositEvent t (callbackEvent id error (w.getD 0))) (n + 1) rest)
    (h : runCallbacks cfg env rem s used n queue = .ok r) (hs : I s n queue) : ∃ left, I r.1 r.2.2 left := by
  induction queue generalizing s used n with
  | nil =>
    cases h
    exact ⟨[], hs⟩
  | cons id rest ih =>
    unfold runCallbacks at h
    split_ifs at h with hch
    · exact ih h (hsk hch hs)
    simp only [bind_eq_ok, okOr_eq_ok] at h
    obtain ⟨rq, -, h⟩ := h
    split at h
    · cases h
      exact ⟨_, hs⟩
    · simp only [bind_eq_ok, okOr_eq_ok] at h
      obtain ⟨resp, -, ⟨t, error, w⟩, htry, h⟩ := h
      exact ih h (hc htry hs)

/-- Idle processing unwraps nothing that is missing, runs no callback of a challenged response, and keeps in order the
ids it has not run. -/
def CallbacksSafe (cfg : Config A) (s : State A) (op : Op A) : Prop :=
  ∀ rem, op.call = .onIdle rem → onIdle cfg op.env s rem ≠ .error .unwrapNone ∧
      ∀ s' used, onIdle cfg op.env s rem = .ok (s', used) →
        ∃ ran, s'.callbacks = s.callbacks ++ ran ∧ (∀ id ∈ ran, s.responsesChallenged.contains id = false) ∧
          s'.responsesForCallback = s.responsesForCallback.filter (· ∉ ran)

/-- The weight of idle processing does not reach behind a challenged response. -/
def SparesBehind (cfg : Config A) (s : State A) (op : Op A) : Prop :=
  ∀ rem, op.call = .onIdle rem → StopsAtChallenge cfg rem s s.responsesForCallback

theorem left_eq_filter {ran left : List RequestId} (h : (ran ++ left).Nodup) : left = (ran ++ left).filter (· ∉ ran) := by
  obtain ⟨-, -, hapa⟩ := nodup_append.mp h
  have hran : ran.filter (· ∉ ran) = [] := by
    rw [filter_eq_nil_iff]
    intro x hx
    simp [hx]
  have hl : left.filter (· ∉ ran) = left := by
    rw [filter_eq_self]
    intro x hx
    exact decide_eq_true fun hmem => hapa x hmem x hx rfl
  rw [filter_append, hran, hl, nil_append]

theorem onIdle_ends (hs : s.Ordered) (hst : StopsAtChallenge cfg rem s s.responsesForCallback) :
    Ends (onIdle cfg env s rem)
      (fun r => ∃ ran left, s.responsesForCallback = ran ++ left ∧ r.1.responsesForCallback = left ∧ Ran s r.1 ran left)
      (· = .overflow) := by
  unfold onIdle
  split
  · exact ⟨[], s.responsesForCallback, rfl, rfl, ran_nil hs⟩
  · refine (runCallbacks_ends (Nat.le_refl _) hs hst).bind ?_
    rintro ⟨t, used, n⟩ - ⟨ran, left, hqu, hn, hran⟩
    refine ⟨ran, left, hqu, ?_, hran.callbacks, hran.challenged, hran.unchallenged, hran.sound⟩
    show s.responsesForCallback.drop n = left
    have hle : n = ran.length := hn.trans (Nat.zero_add _)
    rw [hqu, hle]
    exact drop_left

theorem step_callbacksSafe {op : Op A} (hs : s.Ordered) (hsp : SparesBehind cfg s op) : CallbacksSafe cfg s op := by
  intro rem hc
  have hend : Ends (onIdle cfg op.env s rem) _ _ := onIdle_ends hs (hsp rem hc)
  refine ⟨fun herr => ?_, fun s' used hok => ?_⟩
  · have hov := hend.error herr
    cases hov
  · obtain ⟨ran, left, hqu, hl, hran⟩ := hend.ok hok
    refine ⟨ran, hran.callbacks, hran.unchallenged, hl.trans ?_⟩
    have hno : (ran ++ left).Nodup := hqu ▸ hs.nodup
    rw [hqu]
    exact left_eq_filter hno

theorem step_ordered {op : Op A} (hsp : SparesBehind cfg s op) (hs : s.Ordered) : (step cfg s op).Ordered := by
  unfold step
  refine getD_cases (fun s' hok => ?_) hs
  by_cases hdl : ∃ w, op.call = .onIdle w
  · obtain ⟨w, hc⟩ := hdl
    rw [hc] at hok
    obtain ⟨⟨t, used⟩, hrun, rfl⟩ := map_eq_ok.mp hok
    obtain ⟨ran, left, -, hl, hran⟩ := (onIdle_ends hs (hsp w hc)).ok hrun
    have hso : Sound t.board t.responsesForCallback := by
      rw [show t.responsesForCallback = left from hl]
      exact hran.sound
    exact hso
  · exact dispatch_ordered (fun w hc => hdl ⟨w, hc⟩) hok hs

/-- In a run whose idle processing spares what stands behind a challenged response, it is safe, and no callback is run
twice or of a challenged response. -/
theorem run_callbacksSafe (cfg : Config A) (assets : GenericAsset.State A) (ops : List (Op A))
    (hrun : Each (step cfg) (SparesBehind cfg) (State.genesis assets) ops) :
    Each (step cfg) (CallbacksSafe cfg) (State.genesis assets) ops ∧ ∀ done, done <+: ops →
        (execute (step cfg) (State.genesis assets) done).callbacks.Nodup ∧
          ∀ id ∈ (execute (step cfg) (State.genesis assets) done).callbacks,
            (execute (step cfg) (State.genesis assets) done).responsesChallenged.contains id = false := by
  have hke : ∀ (s : State A) op, SparesBehind cfg s op → s.Ordered → (step cfg s op).Ordered :=
    fun _ _ hsp hs => step_ordered hsp hs
  refine ⟨hrun.imp hke (fun _ _ hs hsp => step_callbacksSafe hs hsp) (genesis_ordered assets), fun done hdo => ?_⟩
  have hor := hrun.throughout hke (genesis_ordered assets) hdo
  exact ⟨hor.calledOnce, fun id hid => StorageMap.not_contains_iff.mpr (hor.called hid).2.2⟩

/-! ### Two requests -/

def sampleConfig : Config Nat where
  assets := ⟨99⟩
  feeCurrency := 16001
  exchangeAddressFor _ aid := 1000 + aid.toNat
  intoAccountId addr := addr.toNat
  stateOraclePrecompileAddress := 50
  challengePeriod := 5
  gasToWeight gas := gas
  mulPermill share amt := BitVec.ofNat 128 (share.toNat * amt.toNat / 1000000)
  relayerBondAmount := 10
  maxRequestsPerBlock := 30
  maxRelayerCount := 1
  dbWeight := .rocksDb

def sampleEnv : Env Nat where
  now := 100
  minGasPrice := 1
  checkedEthCall _ _ _ _ _ := 0
  exchange := .genesis (.genesis 0) 16001 ⟨3000⟩
  execute assets _ := { assets := assets }

def sampleGenesis : State Nat :=
  State.genesis (GenericAsset.State.build
    { assets := [16001], initialBalance := 100, endowedAccounts := [1, 2, 3], nextAssetId := 17000, permissions := [],
      assetMeta := [] })

def sampleRequest : NewRequest where
  caller := 3
  destination := 60
  inputData := []
  callbackSignature := [1, 2, 3, 4]
  callbackGasLimit := 1000
  feePreferences := none
  bounty := 5

/-- Contract 3 makes requests 0 and 1, relayer 1 responds to both and account 2 challenges one of them, before block 5
queues them. -/
def challengeOne (id : RequestId) : List (Op Nat) :=
  [.bondRelayer 1, .bondChallenger 2, .newRequest sampleRequest, .newRequest sampleRequest,
    .submitCallResponse 1 0 (.ok 7) 20 100, .submitCallResponse 1 1 (.ok 8) 20 100, .submitResponseChallenge 2 id,
    .onInitialize 5].map fun call => { env := sampleEnv, call := call }

def idle : Op Nat := { env := sampleEnv, call := .onIdle 10000000000 }

theorem challenged_behind_waits :
    let s := execute (step sampleConfig) sampleGenesis (challengeOne 1)
    s.responsesForCallback = [0, 1] ∧ CallbacksSafe sampleConfig s idle ∧
      (step sampleConfig s idle).callbacks = [0] ∧ (step sampleConfig s idle).responsesForCallback = [1] := by
  have hqu : (execute (step sampleConfig) sampleGenesis (challengeOne 1)).responsesForCallback = [0, 1] := by
    decide +kernel
  have hss : SparesBehind sampleConfig (execute (step sampleConfig) sampleGenesis (challengeOne 1)) idle := by
    -- the challenged response is the last of the queue, so there is nothing behind it
    rintro rem - before id behind rq hsp ⟨x, hx, hch⟩ -
    have hz : (execute (step sampleConfig) sampleGenesis (challengeOne 1)).responsesChallenged.contains 0 = false := by
      decide +kernel
    rw [hqu] at hsp
    match before, hsp with
    | [y], hsp =>
      obtain rfl : x = y := mem_singleton.mp hx
      obtain rfl : 0 = x := (List.cons.inj hsp).1
      rw [hz] at hch
      cases hch
    | _ :: _ :: _, hsp => simp at hsp
  have hrun : Each (step sampleConfig) (SparesBehind sampleConfig) sampleGenesis (challengeOne 1 ++ [idle]) :=
    ⟨nofun, nofun, nofun, nofun, nofun, nofun, nofun, nofun, hss, trivial⟩
  have hsa := (run_callbacksSafe sampleConfig _ _ hrun).1
  refine ⟨hqu, ?_, by decide +kernel, by decide +kernel⟩
  obtain ⟨-, -, -, -, -, -, -, -, hdl, -⟩ := hsa
  exact hdl

/-- Run behind a challenged response, request 1 stays in the queue, response 0 is lost, and the next idle processing
unwraps the request that is gone. -/
theorem challenged_ahead_lost :
    let s := execute (step sampleConfig) sampleGenesis (challengeOne 0)
    s.responsesForCallback = [0, 1] ∧ s.responsesChallenged.contains 0 = true ∧
      (step sampleConfig s idle).callbacks = [1] ∧ (step sampleConfig s idle).responsesForCallback = [1] ∧
      (onIdle sampleConfig sampleEnv (step sampleConfig s idle) 10000000000).map (fun _ => ()) = .error .unwrapNone ∧
      ¬ CallbacksSafe sampleConfig (step sampleConfig s idle) idle := by
  have hun : (onIdle sampleConfig sampleEnv (step sampleConfig
      (execute (step sampleConfig) sampleGenesis (challengeOne 0)) idle) 10000000000).map (fun _ => ())
        = .error .unwrapNone := by
    decide +kernel
  refine ⟨by decide +kernel, by decide +kernel, by decide +kernel, by decide +kernel, hun, fun hsa => ?_⟩
  exact (hsa _ rfl).1 (map_eq_error.mp hun)

end EthStateOracle
