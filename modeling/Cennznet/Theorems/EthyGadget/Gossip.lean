import Cennznet.Lib.Run
import Cennznet.Theorems.EthyGadget.Votes

/-! # Votes in the name of another

The signature of a message is on the digest and not on the event id. -/

namespace EthyGadget.GossipValidator

open Steps

variable {Au Sig : Type}

/-- A message, that an event is complete, or the new validators. -/
inductive Input (Au Sig : Type) where
  | message (data : Option (Witness Au Sig))
  | complete (eventId : EventId)
  | activeValidators (vals : List Au)

section
variable [LinearOrder Au]

def receive (verifyPrehashed : Au → Sig → Hash → Bool) (g : GossipValidator Au) :
    Input Au Sig → GossipValidator Au
  | .message data => (g.validate verifyPrehashed data).1
  | .complete eventId => g.markComplete eventId
  | .activeValidators vals => g.setActiveValidators vals

variable {verifyPrehashed : Au → Sig → Hash → Bool} {g : GossipValidator Au}
  {w : Witness Au Sig} {data : Option (Witness Au Sig)} {e : EventId} {a : Au}

theorem validate_cases (verifyPrehashed : Au → Sig → Hash → Bool) (g : GossipValidator Au)
    (data : Option (Witness Au Sig)) :
    g.validate verifyPrehashed data = (g, .discard) ∨
    ∃ w, data = some w ∧ g.knownVotes.has w.eventId w.authorityId = false ∧ w.authorityId ∈ g.activeValidators ∧
      verifyPrehashed w.authorityId w.signature w.digest = true ∧
      g.validate verifyPrehashed data =
        ({ g with knownVotes := g.knownVotes.mark w.eventId w.authorityId }, .processAndKeep) := by
  cases data with
  | none => exact Or.inl rfl
  | some w =>
    simp only [validate]
    split
    · exact Or.inl rfl
    · rename_i hnew
      split
      · exact Or.inl rfl
      · rename_i hac
        split_ifs with hve
        · have hmem : w.authorityId ∈ g.activeValidators := by simpa using hac
          exact Or.inr ⟨w, rfl, eq_false_of_ne_true hnew, hmem, hve, rfl⟩
        · exact Or.inl rfl

/-- The witnesses `issued` are all that were issued, and a signature valid for a digest was issued by its authority in a
witness of it. -/
def Unforgeable (verifyPrehashed : Au → Sig → Hash → Bool) (issued : Au → EventId → Hash → Prop) :
    Prop :=
  ∀ a signature digest, verifyPrehashed a signature digest = true → ∃ e, issued a e digest

/-- The event of a message is the one under which its authority has issued its digest, if it has. -/
def Authentic (issued : Au → EventId → Hash → Prop) : Input Au Sig → Prop
  | .message (some w) => ∀ e, issued w.authorityId e w.digest → e = w.eventId
  | _ => True

structure Cast (issued : Au → EventId → Hash → Prop) (g : GossipValidator Au) : Prop where
  sorted : g.knownVotes.Sorted
  votes : ∀ a e, a ∈ g.knownVotes.on e → ∃ digest, issued a e digest

variable {issued : Au → EventId → Hash → Prop}

theorem Cast.receive (hun : Unforgeable verifyPrehashed issued) {input : Input Au Sig} (hinp : Authentic issued input)
    (h : g.Cast issued) : (g.receive verifyPrehashed input).Cast issued := by
  cases input with
  | complete e =>
    refine ⟨fun e' => ?_, fun a e' ha => ?_⟩
    · show (Votes.on (g.knownVotes.remove e) e').Pairwise (· < ·)
      rw [Votes.on_remove]
      split
      · exact List.Pairwise.nil
      · exact h.sorted e'
    · have hvo : a ∈ Votes.on (g.knownVotes.remove e) e' := ha
      rw [Votes.on_remove] at hvo
      split at hvo
      · cases hvo
      · exact h.votes a e' hvo
  | activeValidators vs => exact ⟨h.sorted, h.votes⟩
  | message data =>
    rcases validate_cases verifyPrehashed g data with hs | ⟨w, rfl, hnew, -, hve, hma⟩
    · simp only [GossipValidator.receive, hs]
      exact h
    · have hnot : w.authorityId ∉ g.knownVotes.on w.eventId := by
        rw [← Votes.has_iff h.sorted, hnew]
        exact Bool.false_ne_true
      obtain ⟨e, hiss⟩ := hun _ _ _ hve
      have hev : e = w.eventId := hinp e hiss
      simp only [GossipValidator.receive, hma]
      refine ⟨Votes.sorted_mark h.sorted hnot, fun a e' ha => ?_⟩
      rcases (Votes.mem_on_mark h.sorted hnot).mp ha with ha | ⟨rfl, rfl⟩
      · exact h.votes a e' ha
      · exact ⟨w.digest, hev ▸ hiss⟩

/-- As long as every message carries its digest under the event it was issued for, an authority counts as a voter only
on events for which it has issued a witness. -/
theorem run_votes_cast (hunforgeable : Unforgeable verifyPrehashed issued) {validators : List Au}
    {inputs done : List (Input Au Sig)} (hinputs : ∀ input ∈ inputs, Authentic issued input) (hdone : done <+: inputs)
    (a : Au) (e : EventId) (hvote : a ∈ (execute (receive verifyPrehashed) (new validators) done).knownVotes.on e) :
    ∃ digest, issued a e digest := by
  have hca : (execute (receive verifyPrehashed) (new validators) done).Cast issued := by
    refine execute_invariant (I := Cast issued) (fun input hinp g h => ?_) ⟨Votes.sorted_empty, fun _ _ h => nomatch h⟩
    exact h.receive hunforgeable (hinputs input (hdone.subset hinp))
  exact hca.votes a e hvote

end

/-! ### A replayed signature -/

def sampleVerify (a : Nat) (signature : Nat) (digest : Hash) : Bool := a = 1 ∧ signature = 55 ∧ digest = 9

def sampleIssued (a : Nat) (e : EventId) (digest : Hash) : Prop := a = 1 ∧ e = 7 ∧ digest = 9

theorem sample_unforgeable : Unforgeable sampleVerify sampleIssued := by
  intro a sig digest h
  simp only [sampleVerify, decide_eq_true_eq] at h
  exact ⟨7, h.1, rfl, h.2.2⟩

theorem run_votes_cast_of_one_witness :
    1 ∈ (execute (receive sampleVerify) (new [1, 2]) [.message (some ⟨9, 7, 0, 1, 55⟩)]).knownVotes.on 7 ∧
    ∃ digest, sampleIssued 1 7 digest := by
  have hvo : 1 ∈ (execute (receive sampleVerify) (new [1, 2]) [.message (some ⟨9, 7, 0, 1, 55⟩)]).knownVotes.on 7 := by
    decide +kernel
  have hinp : ∀ input ∈ [Input.message (some (⟨9, 7, 0, 1, 55⟩ : Witness Nat Nat))], Authentic sampleIssued input := by
    intro input hinput
    cases List.mem_singleton.mp hinput
    exact fun e he => he.2.1
  exact ⟨hvo, run_votes_cast sample_unforgeable hinp (List.prefix_refl _) 1 7 hvo⟩

/-- Sent again under event 8, the signature makes authority 1 a voter there. The witness that it then issues, which is
kept by those who have not seen the replay, is discarded. -/
theorem replayed_signature :
    let g := execute (receive sampleVerify) (new [1, 2]) [.message (some ⟨9, 8, 0, 1, 55⟩)]
    let verify a signature digest := sampleVerify a signature digest || decide (a = 1 ∧ signature = 66 ∧ digest = 10)
    Unforgeable sampleVerify sampleIssued ∧ 1 ∈ g.knownVotes.on 8 ∧ (¬∃ digest, sampleIssued 1 8 digest) ∧
    ((new [1, 2]).validate verify (some ⟨10, 8, 0, 1, 66⟩)).2 = .processAndKeep ∧
    (g.validate verify (some ⟨10, 8, 0, 1, 66⟩)).2 = .discard := by
  refine ⟨sample_unforgeable, by decide +kernel, fun ⟨digest, h⟩ => ?_, by decide +kernel, by decide +kernel⟩
  exact absurd h.2.1 (by decide)

end EthyGadget.GossipValidator
