import Cennznet.Theorems.Governance.Effects

/-! # The status of a proposal

No call that writes the status of a proposal checks it. -/

namespace Governance

open Result StorageMap

def ProposalStatusInfo.Next : ProposalStatusInfo → ProposalStatusInfo → Prop
  | .deliberation, .referendumDeliberation => True
  | .deliberation, .disapproved => True
  | .referendumDeliberation, .approvedWaitingEnactment => True
  | .referendumDeliberation, .referendumVetoed => True
  | .approvedWaitingEnactment, .approvedEnacted _ => True
  | .approvedWaitingEnactment, .approvedEnactmentCancelled => True
  | _, _ => False

inductive Forward : Option ProposalStatusInfo → Option ProposalStatusInfo → Prop where
  | same (st : Option ProposalStatusInfo) : Forward st st
  | submitted : Forward none (some .deliberation)
  | next {a b : ProposalStatusInfo} (h : a.Next b) : Forward (some a) (some b)

variable {A : Type}

/-! ### The order of things -/

structure Tidy (s : State A) : Prop where
  scheduled : ∀ {id}, s.scheduled.contains id = true → s.proposals.contains id = true →
    s.proposalStatus.get? id = some .approvedWaitingEnactment
  known : ∀ {id}, s.scheduled.contains id = true → s.proposalStatus.contains id = true
  call : ∀ {id}, s.proposalStatus.get? id = some .deliberation ∨ s.proposalStatus.get? id = some .referendumDeliberation →
    s.proposalCalls.contains id = true

section
variable {s s' t : State A} {id : ProposalId} {st : ProposalStatusInfo}

theorem Tidy.of_same (T : Tidy s) (hpr : s'.proposals = s.proposals) (hca : s'.proposalCalls = s.proposalCalls)
    (hst : s'.proposalStatus = s.proposalStatus) (hsc : s'.scheduled = s.scheduled) : Tidy s' := by
  refine ⟨?_, ?_, ?_⟩
  · rw [hpr, hst, hsc]
    exact T.scheduled
  · rw [hst, hsc]
    exact T.known
  · rw [hca, hst]
    exact T.call

theorem Tidy.close (T : Tidy s) (hde : st ≠ .deliberation) (hre : st ≠ .referendumDeliberation)
    (hpr : s'.proposals = s.proposals.remove id) (hca : s'.proposalCalls = s.proposalCalls.remove id)
    (hst : s'.proposalStatus = s.proposalStatus.insert id st) (hsc : s'.scheduled = s.scheduled) :
    Tidy s' := by
  refine ⟨fun {p} hp hq => ?_, fun {p} hp => ?_, fun {p} hp => ?_⟩
  · rw [hpr, contains_remove] at hq
    rw [hsc] at hp
    rw [hst, get?_insert, if_neg hq.1]
    exact T.scheduled hp hq.2
  · rw [hsc] at hp
    rw [hst, contains_insert]
    exact Or.inr (T.known hp)
  · rw [hst] at hp
    rw [hca, contains_remove]
    rcases hp with hp | hp
    · obtain ⟨hne, hp⟩ := get?_of_insert hp hde
      exact ⟨hne, T.call (Or.inl hp)⟩
    · obtain ⟨hne, hp⟩ := get?_of_insert hp hre
      exact ⟨hne, T.call (Or.inr hp)⟩

theorem forward_insert {m : StorageMap ProposalId ProposalStatusInfo} (h : Forward (m.get? id) (some st))
    (p : ProposalId) : Forward (m.get? p) ((m.insert id st).get? p) := by
  rw [get?_insert]
  split_ifs with heq
  · rw [heq]
    exact h
  · exact .same _

def Advances (s s' : State A) : Prop :=
  Tidy s' ∧ ∀ id, Forward (s.proposalStatus.get? id) (s'.proposalStatus.get? id)

theorem Tidy.advances_of_same (T : Tidy s) (hpr : s'.proposals = s.proposals)
    (hca : s'.proposalCalls = s.proposalCalls) (hst : s'.proposalStatus = s.proposalStatus)
    (hsc : s'.scheduled = s.scheduled) : Advances s s' :=
  ⟨T.of_same hpr hca hst hsc, fun _ => hst ▸ .same _⟩

theorem Verdict.tidy {cfg : Config A} {env : Env A} (T : Tidy s) (hst : s.proposalStatus.get? id = some .referendumDeliberation)
    (h : Verdict cfg env s id s') : Tidy s' ∧ (s' = s ∨ ∃ st, ProposalStatusInfo.referendumDeliberation.Next st ∧
        s'.proposalStatus = s.proposalStatus.insert id st) := by
  cases h with
  | missing hpr => exact ⟨T, Or.inl rfl⟩
  | vetoed assets events hpr hta =>
    refine ⟨T.close (show ProposalStatusInfo.referendumVetoed ≠ _ by decide) (by decide) rfl rfl rfl rfl, ?_⟩
    exact Or.inr ⟨.referendumVetoed, trivial, rfl⟩
  | approved scheduled events hpr hta hc hsc =>
    have hkn : ∀ {p}, scheduled.contains p = true → p = id ∨ s.scheduled.contains p = true := by
      intro p hp
      rcases hsc with rfl | ⟨bl, rfl⟩
      · exact Or.inr hp
      · exact contains_insert.mp hp
    refine ⟨⟨fun {p} hp hq => ?_, fun {p} hp => ?_, fun {p} hp => ?_⟩, Or.inr ⟨.approvedWaitingEnactment, trivial, rfl⟩⟩
    · rw [get?_insert]
      split_ifs with hne
      · rfl
      · exact T.scheduled ((hkn hp).resolve_left hne) hq
    · exact contains_insert.mpr ((hkn hp).imp_right T.known)
    · by_cases hne : p = id
      · subst hne
        simp at hp
      · simp only [get?_insert, if_neg hne] at hp
        exact T.call hp
  | enacted hpr hta hc =>
    have := T.call (Or.inr hst)
    rw [this] at hc
    cases hc

theorem genesis_tidy (assets : GenericAsset.State A) : Tidy (State.genesis assets) where
  scheduled h := by cases h
  known h := by cases h
  call h := by rcases h with h | h <;> cases h

end

section
variable [LinearOrder A] {cfg : Config A} {env : Env A} {s s' t : State A}
  {o : A} {id : ProposalId}

theorem submitProposal_advances {call uri : Bytes} {delay : BlockNumber} (T : Tidy s)
    (hfr : s.proposalStatus.get? s.nextProposalId = none)
    (h : submitProposal cfg env s o call uri delay = .ok s') : Advances s s' := by
  obtain ⟨idx, pr, assets, -, rfl⟩ := submitProposal_inv h
  refine ⟨⟨fun {p} hp hq => ?_, fun {p} hp => ?_, fun {p} hp => ?_⟩, forward_insert (hfr ▸ .submitted)⟩
  · have hne : p ≠ s.nextProposalId := by
      rintro rfl
      obtain ⟨st, hst⟩ := contains_iff.mp (T.known hp)
      rw [hfr] at hst
      cases hst
    rcases contains_insert.mp hq with heq | hq
    · exact absurd heq hne
    · exact (get?_insert_ne hne).trans (T.scheduled hp hq)
  · exact contains_insert.mpr (Or.inr (T.known hp))
  · refine contains_insert.mpr ?_
    by_cases hne : p = s.nextProposalId
    · exact Or.inl hne
    · simp only [get?_insert, if_neg hne] at hp
      exact Or.inr (T.call hp)

theorem voteOnProposal_advances {vote : Bool} (T : Tidy s)
    (hvo : s.proposals.contains id = true → s.proposalStatus.get? id = some .deliberation)
    (h : voteOnProposal cfg env s o id vote = .ok s') : Advances s s' := by
  obtain ⟨idx, -, hpr, -, decision⟩ := voteOnProposal_inv h
  have hst := hvo hpr
  cases decision with
  | undecided => exact T.advances_of_same rfl rfl rfl rfl
  | started events hca hc =>
    refine ⟨⟨fun {p} hp hq => ?_, fun {p} hp => ?_, fun {p} hp => ?_⟩,
      forward_insert (hst ▸ .next (a := .deliberation) trivial)⟩
    · have hwa := T.scheduled hp hq
      have hne : p ≠ id := by
        rintro rfl
        rw [hst] at hwa
        cases hwa
      exact (get?_insert_ne hne).trans hwa
    · exact contains_insert.mpr (Or.inr (T.known hp))
    · by_cases hne : p = id
      · rw [hne]
        exact hc
      · simp only [get?_insert, if_neg hne] at hp
        exact T.call hp
  | enacted hc =>
    have := T.call (Or.inl hst)
    rw [this] at hc
    cases hc
  | disapproved assets events =>
    refine ⟨T.close (show ProposalStatusInfo.disapproved ≠ _ by decide) (by decide) rfl rfl rfl rfl, ?_⟩
    exact forward_insert (hst ▸ .next (a := .deliberation) trivial)

theorem cancelEnactment_advances (T : Tidy s) (h : cancelEnactment cfg s id = .ok s') : Advances s s' := by
  obtain ⟨hpr, hsc, assets, rfl⟩ := cancelEnactment_inv h
  have hst := T.scheduled hsc hpr
  refine ⟨⟨fun {p} hp hq => ?_, fun {p} hp => ?_, fun {p} hp => ?_⟩,
    forward_insert (hst ▸ .next (a := .approvedWaitingEnactment) trivial)⟩
  · obtain ⟨hne, hp⟩ := contains_remove.mp hp
    exact (get?_insert_ne hne).trans (T.scheduled hp hq)
  · exact contains_insert.mpr (Or.inr (T.known (contains_remove.mp hp).2))
  · by_cases hne : p = id
    · subst hne
      simp at hp
    · simp only [get?_insert, if_neg hne] at hp
      exact contains_remove.mpr ⟨hne, T.call hp⟩

theorem Advances.finish (h : Advances s t) (hst : s.proposalStatus.get? id = some .approvedWaitingEnactment)
    (sponsor : A) (ok : Bool) : Advances s (finishEnactment cfg t id sponsor ok) := by
  obtain ⟨T, forward⟩ := h
  refine ⟨T.close (show ProposalStatusInfo.approvedEnacted ok ≠ _ by simp) (by simp) rfl rfl rfl rfl, fun p => ?_⟩
  show Forward _ ((t.proposalStatus.insert id (.approvedEnacted ok)).get? p)
  rw [get?_insert]
  split_ifs with heq
  · rw [heq, hst]
    exact .next trivial
  · exact forward p

theorem RootStep.advances {call : RootCall A} {ids : List ProposalId} (h : RootStep cfg env s call ids s')
    (T : Tidy s) (hids : ∀ id ∈ ids, s.proposalStatus.get? id = some .approvedWaitingEnactment) : Advances s s' := by
  induction h with
  | add h =>
    rcases (addCouncilMember_inv h).2 with rfl | ⟨idx, -, rfl⟩ <;> exact T.advances_of_same rfl rfl rfl rfl
  | remove h =>
    rcases removeCouncilMember_inv h with rfl | ⟨idx, -, rfl⟩ <;> exact T.advances_of_same rfl rfl rfl rfl
  | cancel h => exact cancelEnactment_advances T h
  | set call bond councilStake voterStake threshold => exact T.advances_of_same rfl rfl rfl rfl
  | undecoded id => exact T.advances_of_same rfl rfl rfl rfl
  | enactOther hpr run =>
    refine Advances.finish ?_ (hids _ List.mem_cons_self) _ _
    exact T.advances_of_same rfl rfl rfl rfl
  | enactRoot hpr dispatched ih =>
    exact (ih fun id hid => hids id (List.mem_cons_of_mem _ hid)).finish (hids _ List.mem_cons_self) _ _
  | enactFailed hpr ids =>
    exact (T.advances_of_same rfl rfl rfl rfl).finish (hids _ List.mem_cons_self) _ _

theorem runScheduled_advances (T : Tidy s) (hids : ∀ q ∈ (enactions cfg s cfg.depth (.enactReferendum id)).tail,
      s.proposalStatus.get? q = some .approvedWaitingEnactment)
    (h : runScheduled cfg env s id = .ok s') : Advances s s' := by
  rcases runScheduled_inv h with rfl | ⟨hsc, t, ht, rfl⟩
  · exact T.advances_of_same rfl rfl rfl rfl
  · have hs : Advances s t := by
      rcases ht with rfl | hs
      · exact T.advances_of_same rfl rfl rfl rfl
      · refine hs.advances T fun q hq => ?_
        rcases enactions_cases cfg s cfg.depth id with hn | ⟨hpr, rest, heq⟩
        · rw [hn] at hq
          cases hq
        · rw [heq] at hq hids
          rcases List.mem_cons.mp hq with rfl | hq
          · exact T.scheduled hsc hpr
          · exact hids q hq
    exact ⟨⟨fun hp hq => hs.1.scheduled (contains_remove.mp hp).2 hq,
      fun hp => hs.1.known (contains_remove.mp hp).2, hs.1.call⟩, hs.2⟩

theorem onInitialize_advances (cfg : Config A) (env : Env A) (T : Tidy s) : Advances s (onInitialize cfg env s) := by
  rcases onInitialize_cases cfg env s with heq | heq <;> rw [heq]
  · exact T.advances_of_same rfl rfl rfl rfl
  · -- a referendum that is found running was running before the loop, since it leaves that status for good
    obtain ⟨T', hmo⟩ := endReferenda_invariant cfg env (s.referendumStartTime.iterBy cfg.startTimeOrder)
      (I := fun t => Tidy t ∧ ∀ p, t.proposalStatus.get? p = s.proposalStatus.get? p ∨
        s.proposalStatus.get? p = some .referendumDeliberation ∧
          ∃ st, ProposalStatusInfo.referendumDeliberation.Next st ∧ t.proposalStatus.get? p = some st)
      (fun t id t' _ ht hst verdict => by
        obtain ⟨T, hmo⟩ := ht
        obtain ⟨T', rfl | ⟨st, hx, heq⟩⟩ := verdict.tidy T hst
        · exact ⟨T', hmo⟩
        · refine ⟨T', fun p => ?_⟩
          rw [heq, get?_insert]
          split_ifs with hp
          · subst hp
            refine Or.inr ⟨?_, st, hx, rfl⟩
            rcases hmo p with hs | ⟨hru, -⟩
            · exact hs.symm.trans hst
            · exact hru
          · exact hmo p)
      ⟨T, fun _ => Or.inl rfl⟩
    refine ⟨T', fun p => ?_⟩
    rcases hmo p with hs | ⟨hru, st, hx, hst⟩
    · rw [hs]
      exact .same _
    · rw [hru, hst]
      exact .next hx

end

section
variable [LinearOrder A]

def MovesForward (cfg : Config A) (s : State A) (op : Op A) : Prop :=
  ∀ id, Forward (s.proposalStatus.get? id) ((step cfg s op).proposalStatus.get? id)

/-- A proposal is submitted under a new id, the council votes on what it deliberates, and only what waits for it is
enacted; what the scheduler runs may do all but enact another. -/
def Orderly (cfg : Config A) (s : State A) (op : Op A) : Prop :=
  match op.call with
  | .submitProposal _ _ _ _ => s.proposalStatus.get? s.nextProposalId = none
  | .voteOnProposal _ id _ => s.proposals.contains id = true → s.proposalStatus.get? id = some .deliberation
  | .root call => ∀ id ∈ enactions cfg s cfg.depth call, s.proposalStatus.get? id = some .approvedWaitingEnactment
  | .runScheduled id => ∀ q ∈ (enactions cfg s cfg.depth (.enactReferendum id)).tail,
    s.proposalStatus.get? q = some .approvedWaitingEnactment
  | .voteAgainstReferendum _ _ | .onInitialize | .ledger _ => True

theorem step_advances {cfg : Config A} {s : State A} {op : Op A} (T : Tidy s)
    (hor : Orderly cfg s op) : Advances s (step cfg s op) := by
  obtain ⟨env, call⟩ := op
  refine getD_cases (fun s' hpe => ?_) (T.advances_of_same rfl rfl rfl rfl)
  cases call with
  | submitProposal o call uri delay => exact submitProposal_advances T hor hpe
  | voteOnProposal o id vote => exact voteOnProposal_advances T hor hpe
  | voteAgainstReferendum o id =>
    obtain ⟨-, -, -, rfl⟩ := voteAgainstReferendum_inv hpe
    exact T.advances_of_same rfl rfl rfl rfl
  | root call => exact (dispatchRoot_step hpe).advances T hor
  | onInitialize =>
    cases hpe
    exact onInitialize_advances cfg env T
  | runScheduled id => exact runScheduled_advances T hor hpe
  | ledger assets =>
    cases hpe
    exact T.advances_of_same rfl rfl rfl rfl

/-- In a run in which the council votes only on what it deliberates and only what waits for it is enacted, the status of
every proposal only moves forward. -/
theorem status_moves_forward (cfg : Config A) (assets : GenericAsset.State A) (ops : List (Op A))
    (horderly : Steps.Each (step cfg) (Orderly cfg) (State.genesis assets) ops) :
    Steps.Each (step cfg) (MovesForward cfg) (State.genesis assets) ops :=
  horderly.imp (fun _ _ hop T => (step_advances T hop).1) (fun _ _ T hop => (step_advances T hop).2) (genesis_tidy assets)

instance (cfg : Config A) (s : State A) : ∀ op : Op A, Decidable (Orderly cfg s op)
  | ⟨_, .submitProposal _ _ _ _⟩ => inferInstanceAs (Decidable (_ = _))
  | ⟨_, .voteOnProposal _ _ _⟩ => inferInstanceAs (Decidable (_ = _ → _ = _))
  | ⟨_, .root call⟩ =>
    List.decidableBAll (s.proposalStatus.get? · = some .approvedWaitingEnactment) (enactions cfg s cfg.depth call)
  | ⟨_, .runScheduled id⟩ => List.decidableBAll (s.proposalStatus.get? · = some .approvedWaitingEnactment)
    (enactions cfg s cfg.depth (.enactReferendum id)).tail
  | ⟨_, .voteAgainstReferendum _ _⟩ | ⟨_, .onInitialize⟩ | ⟨_, .ledger _⟩ => inferInstanceAs (Decidable True)

end

def enactedProposal : List (Op Nat) := sampleOps (approvedByCouncil ++ [(22000, .onInitialize), (22010, .runScheduled 0)])

theorem enactedProposal_forward :
    Steps.Each (step sampleConfig) (MovesForward sampleConfig) sampleGenesis enactedProposal ∧
      (Steps.execute (step sampleConfig) sampleGenesis enactedProposal).proposalStatus.get? 0 =
        some (.approvedEnacted true) := by
  refine ⟨?_, by decide +kernel⟩
  exact status_moves_forward sampleConfig (GenericAsset.State.genesis 17000) enactedProposal (by decide +kernel)

def revotedProposal : List (Op Nat) := sampleOps (approvedByCouncil ++ [(5, .voteOnProposal 1 0 false)])

theorem revotedProposal_disapproved :
    let s := Steps.execute (step sampleConfig) sampleGenesis revotedProposal
    s.proposalStatus.get? 0 = some .referendumDeliberation ∧
      (step sampleConfig s ⟨sampleEnv 6, .voteOnProposal 2 0 false⟩).proposalStatus.get? 0 = some .disapproved ∧
      ¬MovesForward sampleConfig s ⟨sampleEnv 6, .voteOnProposal 2 0 false⟩ := by
  intro s
  have hbe : s.proposalStatus.get? 0 = some .referendumDeliberation := by decide +kernel
  have haf : (step sampleConfig s ⟨sampleEnv 6, .voteOnProposal 2 0 false⟩).proposalStatus.get? 0 =
      some .disapproved := by decide +kernel
  refine ⟨hbe, haf, fun hfo => ?_⟩
  have hmo := hfo 0
  rw [hbe, haf] at hmo
  cases hmo with
  | next h => exact h

end Governance
