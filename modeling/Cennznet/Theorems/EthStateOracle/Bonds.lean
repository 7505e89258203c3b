import Cennznet.Theorems.EthStateOracle.Callbacks
import Cennznet.Theorems.GenericAsset.Reserves

/-! # Relayers and challengers are bonded -/

namespace EthStateOracle

open GenericAsset (AssetId Balance MultiCurrency.reserve MultiCurrency.unreserve)
open Result StorageMap Steps

variable {A : Type} [DecidableEq A]

/-! ### Bonds of one kind -/

structure Secured (bond : Balance) (bonds : StorageMap A Balance) (liable : A → Prop) : Prop where
  exact : ∀ {who b}, bonds.get? who = some b → b = bond
  held : ∀ {who}, liable who → bonds.get? who = some bond

section
variable {bond : Balance} {bonds : StorageMap A Balance} {liable liable' : A → Prop} {o who : A}

theorem Secured.mono (h : Secured bond bonds liable) (hle : ∀ who, liable' who → liable who) :
    Secured bond bonds liable' :=
  ⟨h.exact, fun hwho => h.held (hle _ hwho)⟩

theorem Secured.insert (h : Secured bond bonds liable) : Secured bond (bonds.insert o bond) liable := by
  refine ⟨fun {who b} hget => ?_, fun {who} hwho => ?_⟩
  · rcases get?_insert_eq_some.mp hget with ⟨-, rfl⟩ | ⟨-, hold⟩
    · rfl
    · exact h.exact hold
  · rw [get?_insert, h.held hwho]
    exact ite_self _

theorem Secured.remove (h : Secured bond bonds liable) (hf : ¬liable o) : Secured bond (bonds.remove o) liable := by
  refine ⟨fun hget => h.exact (get?_remove_eq_some.mp hget).2, fun {who} hwho => ?_⟩
  refine get?_remove_eq_some.mpr ⟨?_, h.held hwho⟩
  rintro rfl
  exact hf hwho

theorem Secured.become (h : Secured bond bonds liable) (hb : 0 < bond.toNat)
    (hte : bond.toNat ≤ (bonds.getD o 0).toNat) (hmo : ∀ who, liable' who → who = o ∨ liable who) :
    Secured bond bonds liable' := by
  refine ⟨h.exact, fun {who} hwho => ?_⟩
  rcases hmo who hwho with rfl | hold
  · cases hget : bonds.get? who with
    | none =>
      rw [StorageMap.getD, hget] at hte
      exact absurd hte (Nat.not_le.mpr hb)
    | some b => rw [h.exact hget]
  · exact h.held hold

end

/-! ### Both kinds -/

abbrev Responded (responses : StorageMap RequestId (CallResponse A)) (who : A) : Prop :=
  ∃ id response, responses.get? id = some response ∧ response.relayer = who

abbrev Challenged (challenged : StorageMap RequestId A) (who : A) : Prop :=
  ∃ id, challenged.get? id = some who

def Covered (relayers challengers : StorageMap A Balance) (reserved : A → Nat) : Prop :=
  ∀ who, (relayers.getD who 0).toNat + (challengers.getD who 0).toNat ≤ reserved who

structure Bonded (bond : Balance) (relayers challengers : StorageMap A Balance)
    (responses : StorageMap RequestId (CallResponse A)) (challenged : StorageMap RequestId A)
    (reserved : A → Nat) : Prop where
  relayer : Secured bond relayers (Responded responses)
  challenger : Secured bond challengers (Challenged challenged)
  covered : Covered relayers challengers reserved

abbrev State.Bonded (cfg : Config A) (s : State A) : Prop :=
  EthStateOracle.Bonded cfg.relayerBondAmount s.relayerBonds s.challengerBonds s.responses s.responsesChallenged
    (s.assets.reservedOf cfg.feeCurrency)

section
variable {relayers challengers : StorageMap A Balance} {reserved reserved' : A → Nat} {o : A}

theorem Covered.symm (h : Covered relayers challengers reserved) : Covered challengers relayers reserved :=
  fun who => (Nat.add_comm _ _).trans_le (h who)

theorem Covered.insert {bond : Balance} (h : Covered relayers challengers reserved) (hn : relayers.getD o 0 = 0)
    (hre : ∀ who, reserved who + (if o = who then bond.toNat else 0) = reserved' who) :
    Covered (relayers.insert o bond) challengers reserved' := by
  intro who
  have hwho := h who
  have hmo := hre who
  have hz : (0 : Balance).toNat = 0 := rfl
  rw [getD_insert]
  grind

theorem Covered.remove (h : Covered relayers challengers reserved)
    (hre : ∀ who, reserved' who + (if o = who then (relayers.getD o 0).toNat else 0) = reserved who) :
    Covered (relayers.remove o) challengers reserved' := by
  intro who
  have hwho := h who
  have hmo := hre who
  have hz : (0 : Balance).toNat = 0 := rfl
  rw [getD_remove]
  grind

end

/-- Contracts leave the reserved balances of the fee currency alone. -/
def Env.Spares (cfg : Config A) (env : Env A) : Prop :=
  ∀ a call, (env.execute a call).assets.reservedOf cfg.feeCurrency = a.reservedOf cfg.feeCurrency

def Call.bonder : Call A → Option A
  | .bondRelayer o | .bondChallenger o => some o
  | _ => none

/-- A bond is reserved in full: the reserved balance has room for it. -/
abbrev ReservesExactly (cfg : Config A) (s : State A) (op : Op A) : Prop :=
  ∀ who ∈ op.call.bonder, s.assets.reservedOf cfg.feeCurrency who + cfg.relayerBondAmount.toNat < 2 ^ 128

section
variable {cfg : Config A} {env : Env A} {s s' : State A} {o : A}

theorem onIdle_bonded {rem used : Weight} (henv : env.Spares cfg) (h : onIdle cfg env s rem = .ok (s', used))
    (hs : s.Bonded cfg) : s'.Bonded cfg := by
  unfold onIdle at h
  split at h
  · cases h
    exact hs
  simp only [bind_eq_ok, pure_eq_ok, Prod.mk.injEq] at h
  obtain ⟨⟨t, consumed, n⟩, hrun, rfl, -⟩ := h
  have hke : ∃ _ : List RequestId, t.Bonded cfg := by
    refine runCallbacks_keeps (I := fun t _ _ => t.Bonded cfg) (fun _ ht => ht) ?_ hrun hs
    intro t n id rest rq resp t' error w htry ht
    have hta : (taken t id).Bonded cfg := by
      refine ⟨ht.relayer.mono ?_, ht.challenger, ht.covered⟩
      rintro who ⟨x, r, hget, hr⟩
      exact ⟨x, r, (get?_remove_eq_some.mp hget).2, hr⟩
    have hca : t'.Bonded cfg := by
      refine (tryCallback_keeps (P := fun t => t.Bonded cfg) ?_ ?_ ?_ id rq resp hta).ok htry
      · intro s s' r id hnew hs
        simp only [newRequest, bind_eq_ok, okOr_eq_ok, pure_eq_ok, Prod.mk.injEq] at hnew
        obtain ⟨-, -, -, -, next, -, rfl, -⟩ := hnew
        exact hs
      · intro s assets who dest aid n htr hs
        exact ⟨hs.relayer, hs.challenger, GenericAsset.transfer_reservedOf htr ▸ hs.covered⟩
      · intro s call hs
        exact ⟨hs.relayer, hs.challenger, henv s.assets call ▸ hs.covered⟩
    exact hca
  obtain ⟨-, hbo⟩ := hke
  exact hbo

theorem dispatch_bonded {call : Call A} (hb : 0 < cfg.relayerBondAmount.toNat) (henv : env.Spares cfg)
    (hr : ReservesExactly cfg s ⟨env, call⟩) (h : dispatch cfg env s call = .ok s') (hs : s.Bonded cfg) :
    s'.Bonded cfg := by
  cases call with
  | newRequest rq =>
    obtain ⟨⟨t, id⟩, hnew, rfl⟩ := map_eq_ok.mp h
    simp only [newRequest, bind_eq_ok, okOr_eq_ok, pure_eq_ok, Prod.mk.injEq] at hnew
    obtain ⟨-, -, -, -, next, -, rfl, -⟩ := hnew
    exact hs
  | bondRelayer o =>
    simp only [dispatch, bondRelayer, bind_eq_ok, ensure_eq_ok, mapError_eq_ok, pure_eq_ok] at h
    obtain ⟨-, hn, -, -, assets, hrs, rfl⟩ := h
    have hre := (GenericAsset.reserve_reserved (hr o rfl) hrs).of_asset
    exact ⟨hs.relayer.insert, hs.challenger, hs.covered.insert hn hre⟩
  | unbondRelayer o =>
    simp only [dispatch, unbondRelayer, bind_eq_ok, ensure_eq_ok, pure_eq_ok] at h
    obtain ⟨-, -, -, hf, rfl⟩ := h
    have hle := (Nat.le_add_right _ _).trans (hs.covered o)
    refine ⟨hs.relayer.remove ?_, hs.challenger, hs.covered.remove (GenericAsset.unreserve_released hle).of_asset⟩
    rintro ⟨id, resp, hget, hrl⟩
    exact hf (id, resp) (mem_entries.mpr hget) hrl
  | setMaxResponseDrift n =>
    cases h
    exact hs
  | submitCallResponse o id returnData number ts =>
    simp only [dispatch, submitCallResponse, bind_eq_ok, ensure_eq_ok, okOr_eq_ok, pure_eq_ok] at h
    obtain ⟨-, hte, rq, -, -, -, -, -, rfl⟩ := h
    refine ⟨hs.relayer.become hb hte ?_, hs.challenger, hs.covered⟩
    rintro who ⟨x, r, hget, rfl⟩
    rcases get?_insert_eq_some.mp hget with ⟨-, rfl⟩ | ⟨-, hold⟩
    · exact Or.inl rfl
    · exact Or.inr ⟨x, r, hold, rfl⟩
  | bondChallenger o =>
    simp only [dispatch, bondChallenger, bind_eq_ok, ensure_eq_ok, mapError_eq_ok, pure_eq_ok] at h
    obtain ⟨-, hn, assets, hrs, rfl⟩ := h
    have hre := (GenericAsset.reserve_reserved (hr o rfl) hrs).of_asset
    exact ⟨hs.relayer, hs.challenger.insert, (hs.covered.symm.insert hn hre).symm⟩
  | unbondChallenger o =>
    simp only [dispatch, unbondChallenger, bind_eq_ok, ensure_eq_ok, pure_eq_ok] at h
    obtain ⟨-, -, -, hf, rfl⟩ := h
    have hle := (Nat.le_add_left _ _).trans (hs.covered o)
    refine ⟨hs.relayer, hs.challenger.remove ?_,
      (hs.covered.symm.remove (GenericAsset.unreserve_released hle).of_asset).symm⟩
    rintro ⟨id, hget⟩
    exact hf (id, o) (mem_entries.mpr hget) rfl
  | submitResponseChallenge o id =>
    simp only [dispatch, submitResponseChallenge, bind_eq_ok, ensure_eq_ok, okOr_eq_ok, pure_eq_ok] at h
    obtain ⟨rq, -, -, -, -, hte, resp, -, rfl⟩ := h
    refine ⟨hs.relayer, hs.challenger.become hb hte ?_, hs.covered⟩
    rintro who ⟨x, hget⟩
    rcases get?_insert_eq_some.mp hget with ⟨-, rfl⟩ | ⟨-, hold⟩
    · exact Or.inl rfl
    · exact Or.inr ⟨x, hold⟩
  | onInitialize now =>
    cases h
    exact hs
  | onIdle rem =>
    obtain ⟨⟨t, used⟩, hdl, rfl⟩ := map_eq_ok.mp h
    exact onIdle_bonded henv hdl hs

end

/-- The relayer of each response and the challenger of each challenge have their bonds, which what is reserved covers.
-/
structure LiableBonded (cfg : Config A) (s : State A) : Prop where
  relayers : ∀ id response, s.responses.get? id = some response →
    s.relayerBonds.get? response.relayer = some cfg.relayerBondAmount
  challengers : ∀ id who, s.responsesChallenged.get? id = some who →
    s.challengerBonds.get? who = some cfg.relayerBondAmount
  covered : ∀ who, (s.relayerBonds.getD who 0).toNat + (s.challengerBonds.getD who 0).toNat ≤
    s.assets.reservedOf cfg.feeCurrency who

/-- In every run that no other module disturbs, relayers and challengers are bonded while they are liable. -/
theorem liable_stay_bonded (cfg : Config A) (hbond : 0 < cfg.relayerBondAmount.toNat) (assets : GenericAsset.State A)
    (ops : List (Op A)) (henv : ∀ op ∈ ops, op.env.Spares cfg)
    (hroom : Each (step cfg) (ReservesExactly cfg) (State.genesis assets) ops) :
    LiableBonded cfg (execute (step cfg) (State.genesis assets) ops) := by
  have hge : (State.genesis assets).Bonded cfg := by
    refine ⟨⟨nofun, ?_⟩, ⟨nofun, ?_⟩, fun who => Nat.zero_le _⟩
    · rintro who ⟨id, resp, hget, -⟩
      cases hget
    · rintro who ⟨id, hget⟩
      cases hget
  have hbo := (each_and.mpr ⟨each_iff_forall.mpr henv, hroom⟩).invariant (I := State.Bonded cfg)
    (fun s op hop hs => getD_cases (fun s' hok => dispatch_bonded hbond hop.1 hop.2 hok hs) hs) hge
  exact ⟨fun id resp hget => hbo.relayer.held ⟨id, resp, hget, rfl⟩,
    fun id who hget => hbo.challenger.held ⟨id, hget⟩, hbo.covered⟩

/-- Account 1 challenges its own response: it can withdraw neither bond, and both are reserved. -/
theorem challenger_of_itself_bonded :
    ∃ s, s = execute (step sampleConfig) sampleGenesis ([.bondRelayer 1, .bondChallenger 1, .newRequest sampleRequest,
        .submitCallResponse 1 0 (.ok 7) 20 100, .submitResponseChallenge 1 0, .unbondRelayer 1, .unbondChallenger 1].map
          fun call => { env := sampleEnv, call := call }) ∧
      s.responses.contains 0 = true ∧ s.responsesChallenged.get? 0 = some 1 ∧ s.relayerBonds.get? 1 = some 10 ∧
        s.assets.reservedOf 16001 1 = 20 ∧ LiableBonded sampleConfig s := by
  refine ⟨_, rfl, by decide +kernel, by decide +kernel, by decide +kernel, by decide +kernel, ?_⟩
  refine liable_stay_bonded sampleConfig (by decide) _ _ (fun op hop => ?_) (by decide +kernel)
  obtain ⟨call, -, rfl⟩ := List.mem_map.mp hop
  exact fun _ _ => rfl

end EthStateOracle
