import Cennznet.Theorems.Staking.Notaries

/-! # The announcement of the notaries -/

namespace EthBridge

open Steps

variable {K A : Type}

def ConsensusLog.announced? : ConsensusLog K → Option (ValidatorSet K)
  | .pendingAuthoritiesChange set _ => some set
  | .opaqueSigningRequest _ _ => none

def lastAnnounced (digest : List (ConsensusLog K)) : Option (ValidatorSet K) :=
  (digest.filterMap ConsensusLog.announced?).getLast?

theorem lastAnnounced_concat (digest : List (ConsensusLog K)) (set : ValidatorSet K) (id : EventProofId) :
    lastAnnounced (digest ++ [.pendingAuthoritiesChange set id]) = some set := by
  rw [lastAnnounced, List.filterMap_append]
  exact List.getLast?_concat

theorem lastAnnounced_requests (digest : List (ConsensusLog K)) (prs : List (EventProofId × Bytes)) :
    lastAnnounced (digest ++ prs.map fun e => .opaqueSigningRequest e.2 e.1) = lastAnnounced digest := by
  have hn : (prs.map fun e => (.opaqueSigningRequest e.2 e.1 : ConsensusLog K)).filterMap
      ConsensusLog.announced? = [] := by
    rw [List.filterMap_map]
    exact List.filterMap_eq_nil_iff.mpr fun _ _ => rfl
  rw [lastAnnounced, List.filterMap_append, hn, List.append_nil, lastAnnounced]

theorem SigningEffect.between {op : Op K A} {p p' : Signing K} (E : SigningEffect op p p')
    (hop : op.isSession = false) : p'.keys = p.keys ∧ p'.nextKeys = p.nextKeys ∧ p'.setId = p.setId ∧
      lastAnnounced p'.digest = lastAnnounced p.digest := by
  cases E with
  | frame same =>
    rw [same]
    exact ⟨rfl, rfl, rfl, rfl⟩
  | request ev asked =>
    rw [asked]
    exact ⟨rfl, rfl, rfl, lastAnnounced_requests p.digest [(p.nextId, ev ++ abiEncode p.setId ++ abiEncode p.nextId)]⟩
  | delay ev kept =>
    rw [kept]
    exact ⟨rfl, rfl, rfl, rfl⟩
  | send prs waiting distinct sent =>
    rw [sent]
    exact ⟨rfl, rfl, rfl, lastAnnounced_requests p.digest prs⟩
  | announce session =>
    rw [hop] at session
    cases session
  | rotate rotates =>
    rw [Rotates] at rotates
    rw [Op.isSession] at hop
    split at rotates
    · rename_i hc
      rw [hc] at hop
      cases hop
    · cases rotates

def AwaitsAnnounced (b : State K A) : Prop :=
  b.nextNotaryKeys ≠ [] → lastAnnounced b.digest = some ⟨b.nextNotaryKeys, b.notarySetId + 1⟩

variable (env : Env A) {b : State K A}

theorem onBeforeSessionEnding_awaits (h : AwaitsAnnounced b) : AwaitsAnnounced (onBeforeSessionEnding env b) := by
  unfold onBeforeSessionEnding
  split
  · exact fun hne => absurd rfl hne
  · exact h

theorem onNewSession_awaits {new queued : List K} (h : AwaitsAnnounced b) (hnew : new ≠ []) (hqu : queued ≠ []) :
    let b' := onNewSession env b new queued
    AwaitsAnnounced b' ∧ (env.isActiveSessionFinal = true → b'.nextNotaryKeys ≠ []) ∧ b'.notarySetId = b.notarySetId := by
  have han (keys : List K) : AwaitsAnnounced (logNotaryChange b keys) := fun _ => lastAnnounced_concat _ _ _
  have hpa : AwaitsAnnounced (logNotaryChange { b with bridgePaused := true } new) := fun _ => lastAnnounced_concat _ _ _
  intro b'
  cases hx : env.isNextSessionFinal with
  | true =>
    have hb' : b' = logNotaryChange b queued := by simp [b', onNewSession, handleAuthoritiesChange, hx]
    rw [hb']
    exact ⟨han queued, fun _ => hqu, rfl⟩
  | false =>
    cases hac : env.isActiveSessionFinal with
    | false =>
      have hb' : b' = b := by simp [b', onNewSession, hx, hac]
      rw [hb']
      exact ⟨h, fun hfi => absurd hfi Bool.false_ne_true, rfl⟩
    | true =>
      by_cases hwa : b.nextNotaryKeys = []
      · have hb' : b' = logNotaryChange { b with bridgePaused := true } new := by
          simp [b', onNewSession, handleAuthoritiesChange, hx, hac, hwa]
        rw [hb']
        exact ⟨hpa, fun _ => hnew, rfl⟩
      · have hb' : b' = { b with bridgePaused := true } := by
          simp [b', onNewSession, handleAuthoritiesChange, hx, hac, hwa]
        rw [hb']
        exact ⟨h, fun _ => hwa, rfl⟩

end EthBridge

namespace Staking

open Steps
open EthBridge

variable {A K : Type}

/-- There are notaries and validators. What waits has been announced, and something waits in the last session of an era.
-/
structure Announced (s : Chain K A) : Prop where
  notaries : s.bridge.notaryKeys ≠ []
  queued : s.queuedKeys ≠ []
  waiting : AwaitsAnnounced s.bridge
  final : s.eras.isActiveSessionFinal = true → s.bridge.nextNotaryKeys ≠ []

def Rotation.Elects (r : Rotation K A) : Prop := r.election ≠ some []

section
variable {spe : SessionIndex} {r : Rotation K A} {s : Chain K A}

theorem queue_ne_nil {next : Option (List A)} {vs : List A} (hx : next = none ∨ next = r.election) (hele : r.Elects)
    (hva : vs ≠ []) : queue r next vs ≠ [] := by
  refine mt List.map_eq_nil_iff.mp ?_
  rcases hx with rfl | rfl
  · exact hva
  · cases hel : r.election with
    | none => exact hva
    | some elected =>
      rintro rfl
      exact hele hel

/-- What is installed at the end of a session is what was announced last. -/
def Installs (s : Chain K A) (b : EthBridge.State K A) : Prop :=
  b.notaryKeys ≠ [] ∧
    if s.eras.isActiveSessionFinal = true then
      lastAnnounced s.bridge.digest = some ⟨b.notaryKeys, b.notarySetId⟩ ∧ b.notarySetId = s.bridge.notarySetId + 1
    else b.notaryKeys = s.bridge.notaryKeys ∧ b.notarySetId = s.bridge.notarySetId

theorem Announced.installs (h : Announced s) (env : EthBridge.Env A) :
    Installs s (EthBridge.onBeforeSessionEnding (sessionEnv s.eras env) s.bridge) := by
  cases hfi : s.eras.isActiveSessionFinal with
  | true =>
    have hwa := h.final hfi
    simp only [Installs, EthBridge.onBeforeSessionEnding, sessionEnv, hfi, if_true]
    exact ⟨hwa, h.waiting hwa, trivial⟩
  | false =>
    simp only [Installs, EthBridge.onBeforeSessionEnding, sessionEnv, hfi, Bool.false_eq_true, if_false, and_self]
    exact ⟨h.notaries, trivial⟩

theorem Announced.rotate (h : Announced s) (hel : r.Elects) :
    Announced (rotateSession spe r s) ∧ Installs s (rotateSession spe r s).bridge := by
  obtain ⟨planned, next, hpl⟩ : ∃ planned next, ((s.eras.endSession s.currentIndex).startSession
      (s.currentIndex + 1)).newSession spe r.election (s.currentIndex + 1 + 1) = (planned, next) := ⟨_, _, rfl⟩
  have hx : next = none ∨ next = r.election := by
    have h := newSession_snd spe r.election
      ((s.eras.endSession s.currentIndex).startSession (s.currentIndex + 1)) (s.currentIndex + 1 + 1)
    rwa [hpl] at h
  have hnew : s.queuedKeys.map Prod.snd ≠ [] := mt List.map_eq_nil_iff.mp h.queued
  have hqu : queue r next (s.queuedKeys.map Prod.fst) ≠ [] := queue_ne_nil hx hel (mt List.map_eq_nil_iff.mp h.queued)
  obtain ⟨hawa, hfi, hset⟩ := EthBridge.onNewSession_awaits (sessionEnv planned r.env)
    (EthBridge.onBeforeSessionEnding_awaits (sessionEnv s.eras r.env) h.waiting) hnew
    (mt List.map_eq_nil_iff.mp hqu)
  have hke := (onNewSession_keys (sessionEnv planned r.env)
    (EthBridge.onBeforeSessionEnding (sessionEnv s.eras r.env) s.bridge) (s.queuedKeys.map Prod.snd)
    ((queue r next (s.queuedKeys.map Prod.fst)).map Prod.snd)).1
  have hins := h.installs r.env
  rw [rotateSession_eq rfl hpl]
  refine ⟨⟨?_, hqu, hawa, hfi⟩, ?_⟩
  · exact hke ▸ hins.1
  · unfold Installs at hins ⊢
    simp only [hke, hset]
    exact hins

theorem genesis_announced {depth : EraIndex} {vs : List A} {dl : EthBridge.Seconds} (hel : r.Elects) (hva : vs ≠ []) :
    Announced (Chain.genesis spe depth r vs dl) := by
  obtain ⟨first, elected, hfi⟩ : ∃ first elected,
      (Eras.empty depth).newSession spe r.election 0 = (first, elected) := ⟨_, _, rfl⟩
  obtain ⟨second, next, hse⟩ : ∃ second next,
      first.newSession spe r.election 1 = (second, next) := ⟨_, _, rfl⟩
  have hed : elected.getD vs ≠ [] := by
    have h := newSession_snd spe r.election (Eras.empty depth) 0
    rw [hfi] at h
    exact mt List.map_eq_nil_iff.mpr (queue_ne_nil h hel hva)
  have hx : next = none ∨ next = r.election := by
    have h := newSession_snd spe r.election first 1
    rwa [hse] at h
  have hqu := queue_ne_nil hx hel hed
  have hfn : second.isActiveSessionFinal = false := by
    have hle := newEra_leaves r.election (Eras.empty depth) 0
    have hera : (Eras.empty depth).newEra r.election 0 = (first, elected) := hfi
    rw [hera] at hle
    have hcu : first.isCurrentSessionFinal = false := hle.2.2.2.2.2.trans (ite_self false)
    have h := newSession_isActive spe r.election 1 (hle.1 ▸ Option.some_ne_none _)
    rwa [hse, hcu] at h
  obtain ⟨active, hst⟩ := startSession_leaves second 0
  have hge : Chain.genesis spe depth r vs dl =
      { eras := { second with activeEra := active }
        currentIndex := 0
        validators := elected.getD vs
        queuedKeys := queue r next (elected.getD vs)
        bridge := EthBridge.State.genesis ((queue r next (elected.getD vs)).map Prod.snd) dl
        electedKeys := (Chain.genesis spe depth r vs dl).electedKeys } := by
    simp only [Chain.genesis, hfi, hse, hst]
  rw [hge]
  refine ⟨mt List.map_eq_nil_iff.mp hqu, hqu, fun hne => absurd rfl hne, fun hac => ?_⟩
  exact absurd (hfn.symm.trans hac) Bool.false_ne_true

end

variable [DecidableEq K]

theorem bridgeStep_announced (cfg : EthBridge.Config) (b : EthBridge.State K A) (op : EthBridge.Op K A) :
    (bridgeStep cfg b op).notarySetId = b.notarySetId ∧
      lastAnnounced (bridgeStep cfg b op).digest = lastAnnounced b.digest := by
  rcases bridgeStep_cases cfg b op with hs | ⟨hse, hst⟩
  · rw [hs]
    exact ⟨rfl, rfl⟩
  · rw [hst]
    obtain ⟨-, -, hset, hl⟩ := (EthBridge.step_signing cfg b op).between hse
    exact ⟨hset, hl⟩

/-- A rotation installs the notaries announced last if an era ends. Nothing else changes the notaries. -/
def InstallsAnnounced (cfg : EthBridge.Config) (spe : SessionIndex) (s : Chain K A) (op : ChainOp K A) :
    Prop :=
  let b := (chainStep cfg spe s op).bridge
  match op with
  | .rotateSession _ => Installs s b
  | _ => b.notaryKeys = s.bridge.notaryKeys ∧ b.notarySetId = s.bridge.notarySetId

section
variable {cfg : EthBridge.Config} {spe : SessionIndex} {s : Chain K A}

theorem chainStep_announced {op : ChainOp K A} (hel : ∀ r ∈ op.rotation?, r.Elects) (h : Announced s) :
    Announced (chainStep cfg spe s op) ∧ InstallsAnnounced cfg spe s op := by
  cases op with
  | rotateSession r => exact h.rotate (hel r rfl)
  | forceNoEras | forceNewEra | forceNewEraAlways => exact ⟨⟨h.notaries, h.queued, h.waiting, h.final⟩, rfl, rfl⟩
  | bridge op =>
    obtain ⟨hke, hx⟩ := bridgeStep_keys cfg s.bridge op
    obtain ⟨hset, hl⟩ := bridgeStep_announced cfg s.bridge op
    refine ⟨⟨?_, h.queued, fun hne => ?_, fun hac => ?_⟩, hke, hset⟩
    · exact hke ▸ h.notaries
    · simp only [chainStep, hx, hset, hl] at hne ⊢
      exact h.waiting hne
    · simp only [chainStep, hx]
      exact h.final hac

/-- In every run whose elections are not empty there are always notaries. Installations alone change them: to those
announced last, with the next id, which was announced. -/
theorem announced_notaries_installed (cfg : EthBridge.Config) (sessionsPerEra : SessionIndex) (historyDepth : EraIndex)
    (first : Rotation K A) (initialValidators : List A) (deadline : EthBridge.Seconds) (ops : List (ChainOp K A))
    (hvalidators : initialValidators ≠ []) (hfirst : first.Elects) (helects : ∀ op ∈ ops, ∀ r ∈ op.rotation?, r.Elects)
    :
    let genesis := Chain.genesis sessionsPerEra historyDepth first initialValidators deadline
    (∀ done, done <+: ops → (execute (chainStep cfg sessionsPerEra) genesis done).bridge.notaryKeys ≠ []) ∧
    Each (chainStep cfg sessionsPerEra) (InstallsAnnounced cfg sessionsPerEra) genesis ops := by
  intro genesis
  have hge : Announced genesis := genesis_announced hfirst hvalidators
  have hrun : Each (chainStep cfg sessionsPerEra) (fun _ op => ∀ r ∈ op.rotation?, r.Elects) genesis ops :=
    each_iff_forall.mpr helects
  have hke : ∀ (s : Chain K A) (op : ChainOp K A), (∀ r ∈ op.rotation?, r.Elects) →
      Announced s → Announced (chainStep cfg sessionsPerEra s op) := fun _ _ hop h => (chainStep_announced hop h).1
  refine ⟨fun done hdo => ?_, ?_⟩
  · exact (hrun.throughout (I := fun s : Chain K A => Announced s) hke hge hdo).notaries
  · exact hrun.imp (I := fun s : Chain K A => Announced s) hke
      (fun _ _ A hop => (chainStep_announced hop A).2) hge

end

theorem announced_notaries_of_two_eras :
    let genesis : Chain Nat Nat := Chain.genesis 3 84
      { env := { now := 0, validators := [] }, election := some [1, 2], loadKeys := (10 * ·) } [1]
    let ops := List.replicate 6 (electing [3, 4])
    let s := execute (chainStep EthBridge.runtimeConfig 3) genesis ops
    s.bridge.notarySetId = 2 ∧ s.bridge.notaryKeys = [30, 40] ∧
      Each (chainStep EthBridge.runtimeConfig 3) (InstallsAnnounced EthBridge.runtimeConfig 3) genesis ops := by
  intro genesis ops s
  refine ⟨by decide +kernel, by decide +kernel, ?_⟩
  refine (announced_notaries_installed EthBridge.runtimeConfig 3 84 _ [1] _ ops (by decide) (fun h => by cases h) ?_).2
  intro op hop r hr
  obtain rfl := List.eq_of_mem_replicate hop
  obtain rfl := Option.some.inj hr
  exact fun h => by cases h

end Staking
