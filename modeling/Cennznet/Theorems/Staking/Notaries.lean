import Cennznet.Theorems.EthBridge.SigningRequests
import Cennznet.Theorems.Staking.Flags

/-! # The notaries of an era

The notaries of an era are the validators of the era before. -/

namespace Staking

open StorageMap EthBridge

variable {A K : Type}

/-! ### Planning without forcing -/

structure Eras.Planned (s : Eras) (spe : SessionIndex) (c : EraIndex) (e planned : SessionIndex) : Prop where
  era : s.currentEra = some c
  start : s.erasStartSessionIndex.get? c = some e
  last : ∀ {k : EraIndex}, c.toNat < k.toNat → s.erasStartSessionIndex.get? k = none
  notForced : s.forceEra = .notForcing
  depth : s.historyDepth.toNat + 1 < 2 ^ 32
  counted : c.toNat ≤ e.toNat
  begun : e.toNat ≤ planned.toNat
  length : planned.toNat < e.toNat + spe.toNat

section
variable {s : Eras} {spe : SessionIndex} {c : EraIndex} {e planned : SessionIndex}
  (election : Option (List A)) (next : SessionIndex)

theorem Eras.Planned.underway (P : s.Planned spe c e planned) : s.Underway c e planned :=
  ⟨P.era, P.start, P.last, P.depth, P.counted, P.begun⟩

theorem Eras.Planned.started (P : s.Planned spe c e planned) (activeEra : Option EraIndex) (forced : Bool) :
    { s with activeEra := activeEra, wasEndEraForced := forced }.Planned spe c e planned :=
  ⟨P.era, P.start, P.last, P.notForced, P.depth, P.counted, P.begun, P.length⟩

theorem newSession_within (hN : 2 ≤ spe.toNat) (P : s.Planned spe c e planned)
    (hfl : s.isCurrentSessionFinal = false) (hx : next.toNat = planned.toNat + 1)
    (hwi : next.toNat < e.toNat + spe.toNat) :
    ∃ s', s.newSession spe election next = (s', none) ∧ s'.Planned spe c e next ∧
      s'.isCurrentSessionFinal = decide (next.toNat + 1 = e.toNat + spe.toNat) ∧
      s'.isActiveSessionFinal = false ∧ s'.activeEra = s.activeEra := by
  have hpl : ¬s.Plans spe e next := by
    simp only [Eras.Plans, P.notForced]
    omega
  obtain ⟨s', hse, U, hcu, hac, hera, hfo⟩ :=
    newSession_of_not_plans election next hN P.underway hx hpl
  exact ⟨s', hse, ⟨U.era, U.start, U.last, hfo.trans P.notForced, U.depth, U.counted, U.begun, hwi⟩, hcu,
    hac.trans hfl, hera⟩

theorem newSession_last (hN : 2 ≤ spe.toNat) (P : s.Planned spe c e planned)
    (hfl : s.isCurrentSessionFinal = true) (hx : next.toNat = planned.toNat + 1)
    (hl : next.toNat = e.toNat + spe.toNat) :
    ∃ s', s.newSession spe election next = (s', election) ∧ s'.Planned spe (c + 1) next next ∧
      s'.isCurrentSessionFinal = false ∧ s'.isActiveSessionFinal = true ∧ s'.activeEra = s.activeEra := by
  have hpl : s.Plans spe e next := by
    simp only [Eras.Plans, P.notForced]
    omega
  obtain ⟨s', hse, U, hcu, hac, hera, hfo⟩ :=
    newSession_of_plans election next P.underway hx hpl
  have hsp : s'.forceEra = .notForcing := by
    rw [hfo, P.notForced]
    rfl
  exact ⟨s', hse, ⟨U.era, U.start, U.last, hsp, U.depth, U.counted, U.begun, by omega⟩, hcu,
    hac.trans hfl, hera⟩

end

/-! ### The bridge -/

theorem onBeforeSessionEnding_keys (env : Env A) (b : EthBridge.State K A) :
    (onBeforeSessionEnding env b).notaryKeys =
        (if env.isActiveSessionFinal = true then b.nextNotaryKeys else b.notaryKeys) ∧
      (onBeforeSessionEnding env b).nextNotaryKeys =
        if env.isActiveSessionFinal = true then [] else b.nextNotaryKeys := by
  unfold onBeforeSessionEnding
  cases env.isActiveSessionFinal <;> exact ⟨rfl, rfl⟩

/-- The validators queued are announced once the last session of an era is planned, or those of that session once it is
active. -/
theorem onNewSession_keys (env : Env A) (b : EthBridge.State K A) (new queued : List K) :
    (onNewSession env b new queued).notaryKeys = b.notaryKeys ∧
      (onNewSession env b new queued).nextNotaryKeys =
        if env.isNextSessionFinal = true then queued
        else if env.isActiveSessionFinal = true ∧ b.nextNotaryKeys = [] then new else b.nextNotaryKeys := by
  cases hx : env.isNextSessionFinal <;> cases hac : env.isActiveSessionFinal <;>
    cases hke : b.nextNotaryKeys <;>
    simp [onNewSession, handleAuthoritiesChange, logNotaryChange, hx, hac, hke]

/-! ### Rotations -/

def NotariesElected (s : Chain K A) : Prop :=
  ∀ era, s.eras.activeEra = some era → era ≠ 0 → s.electedKeys.get? era = some s.bridge.notaryKeys

def Chain.plansEra (spe : SessionIndex) (s : Chain K A) : Bool :=
  match s.eras.currentEra with
  | some currentEra => spe.toNat ≤ (s.eras.eraLength currentEra (s.currentIndex + 1 + 1)).toNat
  | none => true

/-- A rotation that plans an era plans it with the keys of the session that starts. -/
def KeepsKeys (spe : SessionIndex) (s : Chain K A) (r : Rotation K A) : Prop :=
  s.plansEra spe = true →
    (r.election.getD (s.queuedKeys.map Prod.fst)).map r.loadKeys = s.queuedKeys.map Prod.snd

/-- Where the chain is in era `c`, which starts at session `e`, and what the bridge knows of it. -/
structure Agreed (spe : SessionIndex) (s : Chain K A) (c : EraIndex) (e : SessionIndex) : Prop where
  planned : s.eras.Planned spe c e (s.currentIndex + 1)
  room : s.currentIndex.toNat + 1 < 2 ^ 32
  final : s.eras.isCurrentSessionFinal = decide (s.currentIndex.toNat + 2 = e.toNat + spe.toNat)
  active : s.eras.isActiveSessionFinal = decide (e = s.currentIndex + 1)
  activeEra : (e = s.currentIndex + 1 ∧ ∃ a, s.eras.activeEra = some a ∧ a + 1 = c) ∨
    (e ≠ s.currentIndex + 1 ∧ s.eras.activeEra = some c)
  announced : s.eras.isCurrentSessionFinal = true →
    s.bridge.nextNotaryKeys = s.queuedKeys.map Prod.snd ∨ s.bridge.nextNotaryKeys = []
  elected : e = s.currentIndex + 1 → s.electedKeys.get? c = some s.bridge.nextNotaryKeys
  notaries : NotariesElected s

section
variable {spe : SessionIndex} {s : Chain K A} {c : EraIndex} {e : SessionIndex}
  {r : Rotation K A}

theorem rotateSession_eq {started planned : Eras} {next : Option (List A)}
    (hst : (s.eras.endSession s.currentIndex).startSession (s.currentIndex + 1) = started)
    (hpl : started.newSession spe r.election (s.currentIndex + 1 + 1) = (planned, next)) :
    rotateSession spe r s =
      { eras := planned
        currentIndex := s.currentIndex + 1
        validators := s.queuedKeys.map Prod.fst
        queuedKeys := queue r next (s.queuedKeys.map Prod.fst)
        bridge := onNewSession (sessionEnv planned r.env)
          (onBeforeSessionEnding (sessionEnv s.eras r.env) s.bridge) (s.queuedKeys.map Prod.snd)
          ((queue r next (s.queuedKeys.map Prod.fst)).map Prod.snd)
        electedKeys := recordEra started planned (queue r next (s.queuedKeys.map Prod.fst)) s.electedKeys } := by
  unfold rotateSession
  simp only [hst, hpl]

theorem rotateSession_eras {started planned : Eras} {next : Option (List A)}
    (hst : (s.eras.endSession s.currentIndex).startSession (s.currentIndex + 1) = started)
    (hpl : started.newSession spe r.election (s.currentIndex + 1 + 1) = (planned, next)) :
    (rotateSession spe r s).eras = planned ∧
      (rotateSession spe r s).currentIndex = s.currentIndex + 1 := by
  rw [rotateSession_eq hst hpl]
  exact ⟨rfl, rfl⟩

theorem map_snd_queue (next : Option (List A)) (vs : List A) :
    (queue r next vs).map Prod.snd = (next.getD vs).map r.loadKeys := by
  unfold queue
  rw [List.map_map]
  rfl

theorem recordEra_of_eq {before after : Eras} {queued : List (A × K)} {electedKeys : StorageMap EraIndex (List K)}
    (hbe : before.currentEra = some c) (haf : after.currentEra = some c) :
    recordEra before after queued electedKeys = electedKeys := by
  simp only [recordEra, haf, hbe, if_true]

theorem recordEra_of_ne {before after : Eras} {queued : List (A × K)} {electedKeys : StorageMap EraIndex (List K)}
    {c' : EraIndex} (hbe : before.currentEra = some c) (haf : after.currentEra = some c') (hne : c ≠ c') :
    recordEra before after queued electedKeys = electedKeys.insert c' (queued.map Prod.snd) := by
  simp only [recordEra, haf, hbe, Option.some.injEq, if_neg hne]

theorem Agreed.started (A : Agreed spe s c e) :
    ∃ started, (s.eras.endSession s.currentIndex).startSession (s.currentIndex + 1) = started ∧
      started.Planned spe c e (s.currentIndex + 1) ∧
      started.isCurrentSessionFinal = s.eras.isCurrentSessionFinal ∧ started.activeEra = some c := by
  obtain ⟨forced, hst⟩ := A.planned.underway.started A.room A.activeEra
  exact ⟨_, hst, A.planned.started (some c) forced, rfl, rfl⟩

theorem Agreed.ended (A : Agreed spe s c e) (hc : c ≠ 0) :
    s.electedKeys.get? c =
      some (onBeforeSessionEnding (sessionEnv s.eras r.env) s.bridge).notaryKeys := by
  rw [(onBeforeSessionEnding_keys _ _).1]
  have hac : (sessionEnv s.eras r.env).isActiveSessionFinal = decide (e = s.currentIndex + 1) := A.active
  rcases A.activeEra with ⟨he, -⟩ | ⟨he, hera⟩
  · rw [hac, decide_eq_true he, if_pos rfl]
    exact A.elected he
  · rw [hac, decide_eq_false he, if_neg Bool.false_ne_true]
    exact A.notaries c hera hc

theorem Agreed.announced_last (A : Agreed spe s c e) (hfl : s.eras.isCurrentSessionFinal = true)
    (hir : e ≠ s.currentIndex + 1) {planned : Eras} (hcu : planned.isCurrentSessionFinal = false)
    (hac : planned.isActiveSessionFinal = true) (queued : List K) :
    (onNewSession (sessionEnv planned r.env)
      (onBeforeSessionEnding (sessionEnv s.eras r.env) s.bridge) (s.queuedKeys.map Prod.snd)
      queued).nextNotaryKeys = s.queuedKeys.map Prod.snd := by
  have hwa : (onBeforeSessionEnding (sessionEnv s.eras r.env) s.bridge).nextNotaryKeys =
      s.bridge.nextNotaryKeys := by
    have hac : (sessionEnv s.eras r.env).isActiveSessionFinal = false := A.active.trans (decide_eq_false hir)
    rw [(onBeforeSessionEnding_keys _ _).2, hac, if_neg Bool.false_ne_true]
  rw [(onNewSession_keys ..).2, hwa]
  rcases A.announced hfl with h | h <;> simp [sessionEnv, hcu, hac, h]

theorem Agreed.rotate_last (hN : 2 ≤ spe.toNat) (A : Agreed spe s c e)
    (hr : s.currentIndex.toNat + 2 < 2 ^ 32) (hl : s.currentIndex.toNat + 2 = e.toNat + spe.toNat)
    (hke : (r.election.getD (s.queuedKeys.map Prod.fst)).map r.loadKeys = s.queuedKeys.map Prod.snd) :
    Agreed spe (rotateSession spe r s) (c + 1) (s.currentIndex + 1 + 1) := by
  have hix : (s.currentIndex + 1).toNat = s.currentIndex.toNat + 1 := by bv_omega
  have hx : (s.currentIndex + 1 + 1).toNat = s.currentIndex.toNat + 2 := by bv_omega
  have hfl : s.eras.isCurrentSessionFinal = true := A.final.trans (decide_eq_true hl)
  have hir : e ≠ s.currentIndex + 1 := fun h => by
    rw [h, hix] at hl
    omega
  obtain ⟨started, hst, P, hcu, hera⟩ := A.started
  obtain ⟨planned, hse, P', hcu', hac', her'⟩ := newSession_last r.election
    (s.currentIndex + 1 + 1) hN P (hcu.trans hfl) (by omega) (by omega)
  rw [rotateSession_eq hst hse]
  have hne : c ≠ c + 1 := by
    have := P'.counted
    bv_omega
  have han := A.announced_last (r := r) hfl hir hcu' hac'
    ((queue r r.election (s.queuedKeys.map Prod.fst)).map Prod.snd)
  have hro' : (s.currentIndex + 1).toNat + 1 < 2 ^ 32 := by omega
  have hfr : ¬(s.currentIndex + 1).toNat + 2 = (s.currentIndex + 1 + 1).toNat + spe.toNat := by omega
  have hre : (recordEra started planned (queue r r.election (s.queuedKeys.map Prod.fst)) s.electedKeys).get? (c + 1) =
      some (s.queuedKeys.map Prod.snd) := by
    rw [recordEra_of_ne P.era P'.era hne, get?_insert_self, map_snd_queue, hke]
  refine ⟨P', hro', hcu'.trans (decide_eq_false hfr).symm, hac'.trans (decide_eq_true rfl).symm,
    Or.inl ⟨rfl, c, her'.trans hera, rfl⟩, fun h => ?_, fun _ => hre.trans (congrArg some han.symm),
    fun era hae hpos => ?_⟩
  · have hfi : planned.isCurrentSessionFinal = true := h
    rw [hcu'] at hfi
    cases hfi
  · obtain rfl : c = era := Option.some.inj ((her'.trans hera).symm.trans hae)
    rw [recordEra_of_ne P.era P'.era hne, get?_insert_ne hne, A.ended (r := r) hpos,
      (onNewSession_keys ..).1]

theorem Agreed.rotate_within (hN : 2 ≤ spe.toNat) (A : Agreed spe s c e)
    (hr : s.currentIndex.toNat + 2 < 2 ^ 32) (hwi : s.currentIndex.toNat + 2 ≠ e.toNat + spe.toNat) :
    Agreed spe (rotateSession spe r s) c e := by
  have hix : (s.currentIndex + 1).toNat = s.currentIndex.toNat + 1 := by bv_omega
  have hx : (s.currentIndex + 1 + 1).toNat = s.currentIndex.toNat + 2 := by bv_omega
  have hfl : s.eras.isCurrentSessionFinal = false := A.final.trans (decide_eq_false hwi)
  have hle := A.planned.length
  have hbe := A.planned.begun
  obtain ⟨started, hst, P, hcu, hera⟩ := A.started
  obtain ⟨planned, hse, P', hcu', hac', her'⟩ := newSession_within r.election
    (s.currentIndex + 1 + 1) hN P (hcu.trans hfl) (by omega) (by omega)
  rw [rotateSession_eq hst hse]
  have hne : e ≠ s.currentIndex + 1 + 1 := fun h => by
    rw [h] at hbe
    omega
  obtain ⟨hke, hnk⟩ := onNewSession_keys (sessionEnv planned r.env)
    (onBeforeSessionEnding (sessionEnv s.eras r.env) s.bridge) (s.queuedKeys.map Prod.snd)
    ((queue r none (s.queuedKeys.map Prod.fst)).map Prod.snd)
  have hro' : (s.currentIndex + 1).toNat + 1 < 2 ^ 32 := by omega
  have hfi' : (s.currentIndex + 1 + 1).toNat + 1 = (s.currentIndex + 1).toNat + 2 := by omega
  refine ⟨P', hro', hcu'.trans (by rw [hfi']), hac'.trans (decide_eq_false hne).symm,
    Or.inr ⟨hne, her'.trans hera⟩, fun h => ?_, fun h => absurd h hne, fun era hae hpos => ?_⟩
  · have hfi : (sessionEnv planned r.env).isNextSessionFinal = true := h
    rw [hnk, if_pos hfi]
    exact Or.inl rfl
  · obtain rfl : c = era := Option.some.inj ((her'.trans hera).symm.trans hae)
    rw [recordEra_of_eq P.era P'.era, A.ended (r := r) hpos, hke]

theorem Agreed.plansEra_iff (A : Agreed spe s c e) (hr : s.currentIndex.toNat + 2 < 2 ^ 32) :
    s.plansEra spe = true ↔ s.currentIndex.toNat + 2 = e.toNat + spe.toNat := by
  have hx : (s.currentIndex + 1 + 1).toNat = s.currentIndex.toNat + 2 := by bv_omega
  have hix : (s.currentIndex + 1).toNat = s.currentIndex.toNat + 1 := by bv_omega
  have hbe := A.planned.begun
  have hle := A.planned.length
  have hera := toNat_eraLength (s.currentIndex + 1 + 1) A.planned.start (by omega)
  simp only [Chain.plansEra, A.planned.era, decide_eq_true_eq]
  omega

theorem Agreed.rotate (hN : 2 ≤ spe.toNat) (A : Agreed spe s c e)
    (hr : s.currentIndex.toNat + 2 < 2 ^ 32) (hke : KeepsKeys spe s r) :
    ∃ c' e', Agreed spe (rotateSession spe r s) c' e' := by
  by_cases hl : s.currentIndex.toNat + 2 = e.toNat + spe.toNat
  · exact ⟨_, _, A.rotate_last hN hr hl (hke ((A.plansEra_iff hr).mpr hl))⟩
  · exact ⟨c, e, A.rotate_within hN hr hl⟩

theorem Agreed.bridge {b : EthBridge.State K A} (A : Agreed spe s c e) (hke : b.notaryKeys = s.bridge.notaryKeys)
    (hx : b.nextNotaryKeys = s.bridge.nextNotaryKeys) :
    Agreed spe { s with bridge := b } c e := by
  refine ⟨A.planned, A.room, A.final, A.active, A.activeEra, fun h => ?_, fun h => ?_, fun era hera hpos => ?_⟩
  · show b.nextNotaryKeys = _ ∨ b.nextNotaryKeys = []
    rw [hx]
    exact A.announced h
  · show s.electedKeys.get? c = some b.nextNotaryKeys
    rw [hx]
    exact A.elected h
  · show s.electedKeys.get? era = some b.notaryKeys
    rw [hke]
    exact A.notaries era hera hpos

theorem newSession_first (hN : 2 ≤ spe.toNat) {historyDepth : EraIndex} (hde : historyDepth.toNat + 1 < 2 ^ 32)
    (election : Option (List A)) :
    ∃ first : Eras, (Eras.empty historyDepth).newSession spe election 0 = (first, election) ∧
      first.Planned spe 0 0 0 ∧ first.isCurrentSessionFinal = false ∧ first.activeEra = none := by
  -- no era is old enough to be cleared
  have hn : Word.checkedSub (0 : EraIndex) (historyDepth + 1) = none := by
    cases hsub : Word.checkedSub (0 : EraIndex) (historyDepth + 1) with
    | none => rfl
    | some k =>
      have hsum := Word.checkedSub_eq_some.mp hsub
      have hz : (0 : EraIndex).toNat = 0 := rfl
      bv_omega
  refine ⟨{ Eras.empty historyDepth with
    currentEra := some 0, erasStartSessionIndex := (∅ : StorageMap _ _).insert 0 0 }, ?_, ⟨rfl,
    get?_insert_self, fun {k} hk => ?_, rfl, hde, Nat.le_refl _, Nat.le_refl _, by simpa using by omega⟩,
    rfl, rfl⟩
  · cases election <;>
      simp only [Eras.newSession, Eras.newEra, Eras.empty, Option.map_none, Option.getD_none, hn,
        Eras.closeElectionWindow]
  · exact (get?_insert_ne (Word.toNat_pos.mp hk)).trans get?_empty

theorem genesis_agreed (hN : 2 ≤ spe.toNat) {historyDepth : EraIndex} (hde : historyDepth.toNat + 1 < 2 ^ 32)
    (r : Rotation K A) (vs : List A) (dl : Seconds) :
    Agreed spe (Chain.genesis spe historyDepth r vs dl) 0 0 := by
  obtain ⟨first, hfi, P, hfn, hie⟩ := newSession_first hN hde r.election
  obtain ⟨second, hse, P', hcu, hac, hera⟩ := newSession_within r.election 1 hN P hfn rfl
    (by simpa using by omega)
  have hst : second.startSession 0 = { second with activeEra := some 0 } := by
    simp only [Eras.startSession, hera, hie, Option.map_none, Option.getD_none, P'.start, if_true, Eras.startEra]
  have hge : Chain.genesis spe historyDepth r vs dl =
      { eras := { second with activeEra := some 0 }
        currentIndex := 0
        validators := r.election.getD vs
        queuedKeys := queue r none (r.election.getD vs)
        bridge := EthBridge.State.genesis ((queue r none (r.election.getD vs)).map Prod.snd) dl
        electedKeys := (Chain.genesis spe historyDepth r vs dl).electedKeys } := by
    simp only [Chain.genesis, hfi, hse, hst]
  have hr : (0 : SessionIndex).toNat + 1 < 2 ^ 32 := by decide
  have hne : (0 : SessionIndex) ≠ 0 + 1 := by decide
  rw [hge]
  exact ⟨P'.started (some 0) _, hr, hcu, hac,
    Or.inr ⟨hne, rfl⟩, fun _ => Or.inr rfl, fun h => absurd h hne,
    fun era hera hpos => absurd (Option.some.inj hera).symm hpos⟩

end

/-! ### Runs -/

def ChainOp.forces : ChainOp K A → Bool
  | .forceNoEras | .forceNewEra | .forceNewEraAlways => true
  | .rotateSession _ | .bridge _ => false

def ChainOp.rotation? : ChainOp K A → Option (Rotation K A)
  | .rotateSession r => some r
  | _ => none

/-- A rotation that plans an era keeps the keys of the validators, and session indices do not run out. -/
def KeepsNotaries (spe : SessionIndex) (s : Chain K A) (op : ChainOp K A) : Prop :=
  ∀ r ∈ op.rotation?, KeepsKeys spe s r ∧ s.currentIndex.toNat + 2 < 2 ^ 32

variable [DecidableEq K]

instance (spe : SessionIndex) (s : Chain K A) (r : Rotation K A) :
    Decidable (KeepsKeys spe s r) :=
  inferInstanceAs (Decidable (_ → _))

instance (spe : SessionIndex) (s : Chain K A) (op : ChainOp K A) :
    Decidable (KeepsNotaries spe s op) :=
  Option.decidableForallMem op.rotation?

theorem bridgeStep_cases (cfg : EthBridge.Config) (b : EthBridge.State K A) (op : Op K A) :
    bridgeStep cfg b op = b ∨ op.isSession = false ∧ bridgeStep cfg b op = step cfg b op := by
  unfold bridgeStep
  split
  · exact Or.inl rfl
  · exact Or.inl rfl
  · rename_i hnew hbe
    refine Or.inr ⟨?_, rfl⟩
    unfold Op.isSession
    split
    · rename_i vs queued hc
      exact absurd hc (hnew vs queued)
    · rename_i hc
      exact absurd hc hbe
    · rfl

theorem bridgeStep_keys (cfg : EthBridge.Config) (b : EthBridge.State K A) (op : Op K A) :
    (bridgeStep cfg b op).notaryKeys = b.notaryKeys ∧ (bridgeStep cfg b op).nextNotaryKeys = b.nextNotaryKeys := by
  rcases bridgeStep_cases cfg b op with hs | ⟨hse, hst⟩
  · rw [hs]
    exact ⟨rfl, rfl⟩
  · rw [hst]
    exact step_keys cfg b hse

theorem chainStep_agreed {cfg : EthBridge.Config} {spe : SessionIndex} (hN : 2 ≤ spe.toNat) {s : Chain K A}
    {op : ChainOp K A} (hop : op.forces = false ∧ KeepsNotaries spe s op) (h : ∃ c e, Agreed spe s c e) :
    ∃ c e, Agreed spe (chainStep cfg spe s op) c e := by
  obtain ⟨c, e, A⟩ := h
  obtain ⟨hun, hke⟩ := hop
  cases op with
  | rotateSession r =>
    obtain ⟨hky, hr⟩ := hke r rfl
    exact A.rotate hN hr hky
  | bridge op =>
    obtain ⟨hky, hx⟩ := bridgeStep_keys cfg s.bridge op
    exact ⟨c, e, A.bridge hky hx⟩
  | forceNoEras => cases hun
  | forceNewEra => cases hun
  | forceNewEraAlways => cases hun

/-- In a run without forced eras whose elections keep the bridge keys of the validators, the notaries of every era after
the first are the validators elected for it. -/
theorem notaries_elected (cfg : EthBridge.Config) {sessionsPerEra : SessionIndex} (hN : 2 ≤ sessionsPerEra.toNat)
    {historyDepth : EraIndex} (hdepth : historyDepth.toNat + 1 < 2 ^ 32) (first : Rotation K A)
    (initialValidators : List A) (deadline : Seconds) (ops : List (ChainOp K A))
    (hrun : Steps.Each (chainStep cfg sessionsPerEra) (fun s op => op.forces = false ∧ KeepsNotaries sessionsPerEra s op)
      (Chain.genesis sessionsPerEra historyDepth first initialValidators deadline) ops)
    (done : List (ChainOp K A)) (hdone : done <+: ops) :
    NotariesElected (Steps.execute (chainStep cfg sessionsPerEra)
      (Chain.genesis sessionsPerEra historyDepth first initialValidators deadline) done) := by
  obtain ⟨c, e, A⟩ := hrun.throughout (I := fun s => ∃ c e, Agreed sessionsPerEra s c e)
    (fun _ _ hop h => chainStep_agreed hN hop h) ⟨0, 0, genesis_agreed hN hdepth first initialValidators deadline⟩ hdone
  exact A.notaries

def electing (elected : List Nat) : ChainOp Nat Nat :=
  .rotateSession { env := { now := 0, validators := [] }, election := some elected, loadKeys := (10 * ·) }

def sampleChain : Chain Nat Nat :=
  Chain.genesis 3 84 { env := { now := 0, validators := [] }, election := some [1, 2], loadKeys := (10 * ·) } []

theorem reelected_notaries :
    let ops := List.replicate 3 (electing [1, 2])
    let s := Steps.execute (chainStep runtimeConfig 3) sampleChain ops
    s.eras.activeEra = some 1 ∧ s.bridge.notaryKeys = [10, 20] ∧ NotariesElected s := by
  intro ops s
  refine ⟨by decide +kernel, by decide +kernel, ?_⟩
  exact notaries_elected runtimeConfig (by decide) (by decide) _ [] _ ops (by decide +kernel) ops List.prefix_rfl

/-- Validators 3 and 4 are elected for era 1, and 5 and 6 for era 2. The notaries of era 1 are 1 and 2, and those of era
2 are 3 and 4. -/
theorem notaries_lag :
    let era1 := Steps.execute (chainStep runtimeConfig 3) sampleChain (List.replicate 3 (electing [3, 4]))
    let era2 := Steps.execute (chainStep runtimeConfig 3) era1 (List.replicate 3 (electing [5, 6]))
    (era1.eras.activeEra = some 1 ∧ era1.validators = [3, 4] ∧ era1.electedKeys.get? 1 = some [30, 40] ∧
        era1.bridge.notaryKeys = [10, 20] ∧ ¬NotariesElected era1) ∧
      (era2.eras.activeEra = some 2 ∧ era2.validators = [5, 6] ∧ era2.electedKeys.get? 2 = some [50, 60] ∧
        era2.bridge.notaryKeys = [30, 40] ∧ ¬NotariesElected era2) := by
  intro era1 era2
  refine ⟨⟨by decide +kernel, by decide +kernel, by decide +kernel, by decide +kernel, fun h => ?_⟩,
    by decide +kernel, by decide +kernel, by decide +kernel, by decide +kernel, fun h => ?_⟩
  · have hke := h 1 (by decide +kernel) (by decide)
    revert hke
    decide +kernel
  · have hke := h 2 (by decide +kernel) (by decide)
    revert hke
    decide +kernel

end Staking
