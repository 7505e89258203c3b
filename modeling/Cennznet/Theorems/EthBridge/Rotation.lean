import Cennznet.Lib.Run
import Cennznet.Theorems.EthBridge.Claims
import Mathlib.Data.List.Dedup
import Mathlib.Data.List.Perm.Subperm

/-! # Votes and the rotation of notaries

Votes of keys that have left count, against the number of current validators. -/

namespace EthBridge

open Steps List

variable {K A : Type} [DecidableEq K]

def State.currentSupport (s : State K A) (id : EventClaimId) : Nat :=
  s.notaryKeys.dedup.countP fun k => s.eventNotarizations.get? (id, k) = some .valid

/-- Whenever the step tells of a success, the current notaries in favour reach the threshold. -/
def SupportedByCurrent (cfg : Config) (s : State K A) (op : Op K A) : Prop :=
  ∀ id contract signature data,
    (step cfg s op).subscriberCalls = s.subscriberCalls ++ [.onSuccess id contract signature data] →
    ∃ i res notary, op.call = .submitNotarization (.event id i res) ∧ s.notaryKeys[i.toNat]? = some notary ∧
      cfg.notarizationThreshold ≤ cfg.fromRational ((s.withVote id notary res).currentSupport id)
        (BitVec.ofNat 32 op.env.validators.length).toNat

def Op.votedClaim (op : Op K A) : Option EventClaimId :=
  match op.call with
  | .submitNotarization (.event id _ _) => some id
  | _ => none

/-- A vote on a claim finds no vote in favour by a key that is no current notary's. -/
def OnlyCurrent (s : State K A) (op : Op K A) : Prop :=
  ∀ id ∈ op.votedClaim, ∀ vote ∈ s.eventNotarizations.iterPrefix id, vote.2 = .valid → vote.1 ∈ s.notaryKeys

instance (s : State K A) (op : Op K A) : Decidable (OnlyCurrent s op) :=
  Option.decidableForallMem op.votedClaim

section
variable {cfg : Config} {s : State K A} {op : Op K A}

theorem yayCount_le_currentSupport {id : EventClaimId}
    (h : ∀ k, s.eventNotarizations.get? (id, k) = some .valid → k ∈ s.notaryKeys) :
    (yayCount s id).toNat ≤ s.currentSupport id := by
  have hwo : (yayCount s id).toNat ≤ (s.eventNotarizations.iterPrefix id).countP fun vote => vote.2 = .valid := by
    unfold yayCount
    rw [BitVec.toNat_ofNat]
    exact Nat.mod_le _ _
  refine hwo.trans ?_
  unfold State.currentSupport
  rw [countP_eq_length_filter, countP_eq_length_filter, ← length_map Prod.fst]
  refine List.Subperm.length_le (List.Nodup.subperm ?_ ?_)
  · exact (s.eventNotarizations.nodup_iterPrefix_keys id).sublist (filter_sublist.map Prod.fst)
  · intro k hk
    obtain ⟨⟨k', r⟩, hmem, rfl⟩ := mem_map.mp hk
    obtain ⟨hey, hva⟩ := mem_filter.mp hmem
    have hget := StorageMap.mem_iterPrefix.mp hey
    rw [show r = .valid from of_decide_eq_true hva] at hget
    exact mem_filter.mpr ⟨mem_dedup.mpr (h k' hget), decide_eq_true hget⟩

theorem supported_of_onlyCurrent (hmo : ∀ p p' q, p ≤ p' → cfg.fromRational p q ≤ cfg.fromRational p' q)
    (h : OnlyCurrent s op) : SupportedByCurrent cfg s op := by
  intro id con sig data hca
  obtain ⟨notary, r, i, tx, ty, bk, hc, hac, -, hacc, -, -⟩ := (step_effect cfg s op).verify_inv hca
  refine ⟨i, r, notary, hc, hac, ?_⟩
  have hvo : id ∈ op.votedClaim := by
    unfold Op.votedClaim
    rw [hc]
    rfl
  have hcu : ∀ k, (s.withVote id notary r).eventNotarizations.get? (id, k) = some .valid → k ∈ s.notaryKeys := by
    intro k hk
    rcases StorageMap.get?_insert_eq_some.mp hk with ⟨heq, -⟩ | ⟨-, hold⟩
    · have hkey : k = notary := (Prod.ext_iff.mp heq).2
      rw [hkey]
      exact mem_of_getElem? hac
    · exact h id hvo (k, .valid) (StorageMap.mem_iterPrefix.mpr hold) rfl
  exact (of_decide_eq_true hacc).trans (hmo _ _ _ (yayCount_le_currentSupport hcu))

end

/-- In a run whose votes find no vote in favour by a departed key, every success is supported by the current notaries.
-/
theorem successes_supported (cfg : Config) (hmono : ∀ p p' q, p ≤ p' → cfg.fromRational p q ≤ cfg.fromRational p' q)
    (s : State K A) (ops : List (Op K A)) (hcurrent : Each (step cfg) OnlyCurrent s ops) :
    Each (step cfg) (SupportedByCurrent cfg) s ops :=
  hcurrent.imp (I := fun _ => True) (fun _ _ _ _ => trivial) (fun _ _ _ h => supported_of_onlyCurrent hmono h) trivial

def verifiedByTwo : List (Op Nat Nat) :=
  [plainOp 100 [7, 8, 9] (.submitEventClaim 1 2 5 []), plainOp 100 [7, 8, 9] (.submitNotarization (.event 0 0 .valid)),
    plainOp 100 [7, 8, 9] (.submitNotarization (.event 0 1 .valid))]

theorem verifiedByTwo_supported :
    (execute (step runtimeConfig) (State.genesis [11, 12, 13]) verifiedByTwo).subscriberCalls = [.onSuccess 0 1 2 []] ∧
      Each (step runtimeConfig) (SupportedByCurrent runtimeConfig) (State.genesis [11, 12, 13]) verifiedByTwo :=
  ⟨by decide, successes_supported runtimeConfig (fun _ _ _ h => Percent.ofRatio_mono h) _ _ (by decide +kernel)⟩

def verifiedAcrossRotation : List (Op Nat Nat) :=
  [plainOp 100 [7, 8, 9] (.submitEventClaim 1 2 5 []), plainOp 100 [7, 8, 9] (.submitNotarization (.event 0 0 .valid)),
    ⟨{ now := 100, validators := [7, 8, 9], isNextSessionFinal := true }, .onNewSession [11, 12, 13] [21, 22, 23]⟩,
    ⟨{ now := 100, validators := [7, 8, 9], isActiveSessionFinal := true }, .onBeforeSessionEnding⟩,
    plainOp 100 [7, 8, 9] (.submitNotarization (.event 0 0 .valid))]

theorem verifiedAcrossRotation_not_supported :
    (execute (step runtimeConfig) (State.genesis [11, 12, 13]) verifiedAcrossRotation).subscriberCalls =
        [.onSuccess 0 1 2 []] ∧
      ¬Each (step runtimeConfig) (SupportedByCurrent runtimeConfig) (State.genesis [11, 12, 13])
        verifiedAcrossRotation := by
  refine ⟨by decide, fun h => ?_⟩
  obtain ⟨i, r, nt, hc, hac, hsu⟩ := h.2.2.2.2.1 0 1 2 [] (by decide)
  cases hc
  cases hac
  revert hsu
  decide

end EthBridge
