import Cennznet.Governance

/-! # What the calls of governance do

Root calls nest: `RootStep` is their big-step semantics. -/

namespace Governance

open Result StorageMap List

variable {A : Type}

theorem scheduleNamed_getD (env : Env A) (s : State A) (id : ProposalId) (bl : BlockNumber) :
    ∃ scheduled, (scheduleNamed env s id bl).getD s = { s with scheduled := scheduled } ∧
      (scheduled = s.scheduled ∨ ∃ bl, scheduled = s.scheduled.insert id bl) := by
  unfold scheduleNamed
  split
  · exact ⟨s.scheduled, rfl, Or.inl rfl⟩
  · split
    · exact ⟨_, rfl, Or.inr ⟨bl, rfl⟩⟩
    · exact ⟨s.scheduled, rfl, Or.inl rfl⟩

theorem isOver_status {env : Env A} {s : State A} {id : ProposalId} {bl : BlockNumber} (h : isOver env s id bl = true) :
    s.proposalStatus.get? id = some .referendumDeliberation := by
  simp only [isOver, decide_eq_true_eq] at h
  exact h.2

def enactions (cfg : Config A) (s : State A) : Nat → RootCall A → List ProposalId
  | depth + 1, .enactReferendum id =>
    match s.proposalCalls.get? id, s.proposals.get? id with
    | some bytes, some _ =>
      match cfg.decode bytes with
      | some (.governance call) => id :: enactions cfg s depth call
      | some (.other _) => [id]
      | none => []
    | _, _ => []
  | _, _ => []

theorem enactions_cases (cfg : Config A) (s : State A) (depth : Nat) (id : ProposalId) :
    enactions cfg s depth (.enactReferendum id) = [] ∨ s.proposals.contains id = true ∧
      ∃ rest, enactions cfg s depth (.enactReferendum id) = id :: rest := by
  cases depth with
  | zero => exact Or.inl rfl
  | succ depth =>
    simp only [enactions]
    split
    · rename_i bytes p hc hpr
      have hco := contains_iff.mpr ⟨_, hpr⟩
      split
      · exact Or.inr ⟨hco, _, rfl⟩
      · exact Or.inr ⟨hco, [], rfl⟩
      · exact Or.inl rfl
    · exact Or.inl rfl

variable [LinearOrder A] {cfg : Config A} {env : Env A} {s s' : State A}
  {o : A} {id : ProposalId}

theorem submitProposal_inv {call uri : Bytes} {delay : BlockNumber}
    (h : submitProposal cfg env s o call uri delay = .ok s') :
    ∃ idx p assets, Search.binarySearch s.council o = .ok idx ∧ s' = { s with
      assets := assets
      proposals := s.proposals.insert s.nextProposalId p
      proposalCalls := s.proposalCalls.insert s.nextProposalId call
      proposalVotes := s.proposalVotes.insert s.nextProposalId
        ((default : ProposalVoteInfo).recordVote (BitVec.ofNat 8 idx) true)
      proposalStatus := s.proposalStatus.insert s.nextProposalId .deliberation
      nextProposalId := Word.saturatingAdd s.nextProposalId 1 } := by
  simp only [submitProposal, bind_eq_ok, mapError_eq_ok, pure_eq_ok] at h
  obtain ⟨-, -, idx, hidx, assets, -, rfl⟩ := h
  exact ⟨idx, _, assets, hidx, rfl⟩

/-- What a vote of the council decides, once it is recorded in `s` and counted. -/
inductive Decision (env : Env A) (s : State A) (id : ProposalId) (tally : CouncilVoteCount) :
    State A → Prop where
  | undecided : Decision env s id tally s
  | started (events : List Event) (hcarried : (threshold s).toNat < tally.yes.toNat)
    (hcall : s.proposalCalls.contains id = true) : Decision env s id tally { s with
      events := events
      proposalStatus := s.proposalStatus.insert id .referendumDeliberation
      proposalVotes := s.proposalVotes.remove id
      referendumStartTime := s.referendumStartTime.insert id env.blockNumber
      referendumVetoSum := s.referendumVetoSum.insert id 0 }
  | enacted (hcall : s.proposalCalls.contains id = false) : Decision env s id tally { s with
      proposalStatus := s.proposalStatus.insert id (.approvedEnacted true) }
  | disapproved (assets : GenericAsset.State A) (events : List Event) : Decision env s id tally { s with
      assets := assets
      events := events
      proposals := s.proposals.remove id
      proposalCalls := s.proposalCalls.remove id
      proposalVotes := s.proposalVotes.remove id
      proposalStatus := s.proposalStatus.insert id .disapproved }

theorem applyTally_decision {sponsor : A} {tally : CouncilVoteCount} :
    Decision env s id tally (applyTally cfg env s id sponsor tally) := by
  unfold applyTally
  split
  · rename_i hca
    split_ifs with hc
    · exact .started _ hca hc
    · exact .enacted (Bool.not_eq_true _ ▸ hc)
  · split
    · exact .disapproved _ _
    · exact .undecided

def votesWith (s : State A) (id : ProposalId) (idx : Nat) (vote : Bool) : ProposalVoteInfo :=
  (s.proposalVotes.getD id default).recordVote (BitVec.ofNat 8 idx) vote

theorem voteOnProposal_inv {vote : Bool} (h : voteOnProposal cfg env s o id vote = .ok s') :
    ∃ idx, Search.binarySearch s.council o = .ok idx ∧ s.proposals.contains id = true ∧
      (s.proposalVotes.getD id default).getVote (BitVec.ofNat 8 idx) = none ∧
      Decision env { s with proposalVotes := s.proposalVotes.insert id (votesWith s id idx vote) } id
        (votesWith s id idx vote).countVotes s' := by
  simp only [voteOnProposal, bind_eq_ok, mapError_eq_ok, okOr_eq_ok, ensure_eq_ok, pure_eq_ok] at h
  obtain ⟨idx, hidx, p, hpr, -, hn, rfl⟩ := h
  exact ⟨idx, hidx, contains_iff.mpr ⟨p, hpr⟩, hn, applyTally_decision⟩

theorem addCouncilMember_inv {m : A} (h : addCouncilMember cfg env s m = .ok s') :
    s.council.length < cfg.maxCouncilSize.toNat ∧ (s' = s ∨ ∃ idx, Search.binarySearch s.council m = .error idx ∧
      s' = { s with
        proposalVotes := s.proposalVotes.mapValues fun votes => votes.insertVoter (BitVec.ofNat 8 idx)
        council := s.council.insertIdx idx m }) := by
  simp only [addCouncilMember, bind_eq_ok, ensure_eq_ok] at h
  obtain ⟨-, -, -, hr, h⟩ := h
  refine ⟨hr, ?_⟩
  split at h <;> rename_i idx hidx <;> rw [pure_eq_ok] at h
  · exact Or.inr ⟨idx, hidx, h.symm⟩
  · exact Or.inl h.symm

theorem removeCouncilMember_inv {m : A} (h : removeCouncilMember s m = .ok s') :
    s' = s ∨ ∃ idx, Search.binarySearch s.council m = .ok idx ∧ s' = { s with
      proposalVotes := s.proposalVotes.mapValues fun votes => votes.removeVoter (BitVec.ofNat 8 idx)
      council := s.council.eraseIdx idx } := by
  simp only [removeCouncilMember, bind_eq_ok] at h
  obtain ⟨-, -, h⟩ := h
  split at h <;> rename_i idx hidx <;> rw [pure_eq_ok] at h
  · exact Or.inr ⟨idx, hidx, h.symm⟩
  · exact Or.inl h.symm

theorem voteAgainstReferendum_inv (h : voteAgainstReferendum env s o id = .ok s') :
    s.proposalStatus.get? id = some .referendumDeliberation ∧ s.referendumVotes.get? (id, o) = none ∧
      s.minVoterStakedAmount.toNat < (env.activeBalance o).toNat ∧ s' = { s with
        referendumVotes := s.referendumVotes.insert (id, o) (env.activeBalance o)
        referendumVetoSum := s.referendumVetoSum.insert id (s.referendumVetoSum.getD id 0 + env.activeBalance o) } := by
  simp only [voteAgainstReferendum, checkVoterAccountValidity, bind_eq_ok, okOr_eq_ok, ensure_eq_ok, pure_eq_ok] at h
  obtain ⟨startTime, -, -, hst, -, hn, -, ⟨-, hsd, -⟩, -, -, rfl⟩ := h
  exact ⟨hst, not_contains_iff.mp hn, hsd, rfl⟩

/-- What the end of a referendum leaves: it is vetoed if the tally reaches the threshold. -/
inductive Verdict (cfg : Config A) (env : Env A) (s : State A) (id : ProposalId) :
    State A → Prop where
  | missing (hproposal : s.proposals.get? id = none) : Verdict cfg env s id s
  | vetoed (assets : GenericAsset.State A) (events : List Event)
    (hproposal : s.proposals.contains id = true)
    (htally : s.referendumThreshold ≤ cfg.permillFromRational (s.referendumVetoSum.getD id 0) env.totalStaked) :
    Verdict cfg env s id { s with
      referendumVotes := s.referendumVotes.removePrefix id
      assets := assets
      events := events
      proposals := s.proposals.remove id
      proposalCalls := s.proposalCalls.remove id
      referendumStartTime := s.referendumStartTime.remove id
      referendumVetoSum := s.referendumVetoSum.remove id
      proposalStatus := s.proposalStatus.insert id .referendumVetoed }
  | approved (scheduled : StorageMap ProposalId BlockNumber) (events : List Event)
    (hproposal : s.proposals.contains id = true)
    (htally : ¬s.referendumThreshold ≤ cfg.permillFromRational (s.referendumVetoSum.getD id 0) env.totalStaked)
    (hcall : s.proposalCalls.contains id = true)
    (hscheduled : scheduled = s.scheduled ∨ ∃ bl, scheduled = s.scheduled.insert id bl) :
    Verdict cfg env s id { s with
      referendumVotes := s.referendumVotes.removePrefix id
      scheduled := scheduled
      events := events
      proposalStatus := s.proposalStatus.insert id .approvedWaitingEnactment }
  | enacted (hproposal : s.proposals.contains id = true)
    (htally : ¬s.referendumThreshold ≤ cfg.permillFromRational (s.referendumVetoSum.getD id 0) env.totalStaked)
    (hcall : s.proposalCalls.contains id = false) :
    Verdict cfg env s id { s with
      referendumVotes := s.referendumVotes.removePrefix id
      proposalStatus := s.proposalStatus.insert id (.approvedEnacted true) }

theorem endReferendum_verdict (cfg : Config A) (env : Env A) (s : State A) (id : ProposalId) :
    Verdict cfg env s id (endReferendum cfg env s id) := by
  unfold endReferendum
  split
  · rename_i hpr
    exact .missing hpr
  · rename_i p hpr
    have hco := contains_iff.mpr ⟨p, hpr⟩
    simp only
    split_ifs with hta
    · exact .vetoed _ _ hco hta
    · unfold approveReferendum
      split_ifs with hc
      · obtain ⟨scheduled, heq, hsc⟩ := scheduleNamed_getD env
          { s with referendumVotes := s.referendumVotes.removePrefix id } id (env.blockNumber + p.enactmentDelay)
        rw [heq]
        exact .approved scheduled _ hco hta hc hsc
      · exact .enacted hco hta (Bool.not_eq_true _ ▸ hc)

theorem endReferenda_cons {bl : BlockNumber} {started : List (ProposalId × BlockNumber)} :
    endReferenda cfg env s ((id, bl) :: started) =
      endReferenda cfg env (if isOver env s id bl then endReferendum cfg env s id else s) started := by
  simp only [endReferenda, foldl_cons]

theorem endReferenda_append {started started' : List (ProposalId × BlockNumber)} :
    endReferenda cfg env s (started ++ started') = endReferenda cfg env (endReferenda cfg env s started) started' := by
  simp only [endReferenda, foldl_append]

theorem endReferenda_induction {I : State A → Prop} (cfg : Config A) (env : Env A)
    (started : List (ProposalId × BlockNumber))
    (keep : ∀ s id bl, (id, bl) ∈ started → isOver env s id bl = true → I s → I (endReferendum cfg env s id))
    (init : I s) : I (endReferenda cfg env s started) := by
  induction started generalizing s with
  | nil => exact init
  | cons entry started ih =>
    obtain ⟨id, bl⟩ := entry
    rw [endReferenda_cons]
    apply ih fun s p bl hmem => keep s p bl (mem_cons_of_mem _ hmem)
    split_ifs with hov
    · exact keep s id bl mem_cons_self hov init
    · exact init

theorem endReferenda_invariant {I : State A → Prop} (cfg : Config A) (env : Env A)
    (started : List (ProposalId × BlockNumber))
    (keep : ∀ s id t, id ∈ started.map Prod.fst → I s → s.proposalStatus.get? id = some .referendumDeliberation →
      Verdict cfg env s id t → I t)
    (init : I s) : I (endReferenda cfg env s started) := by
  refine endReferenda_induction cfg env started (fun s id bl hmem hov hI => ?_) init
  exact keep s id _ (mem_map_of_mem hmem) hI (isOver_status hov) (endReferendum_verdict cfg env s id)

theorem onInitialize_cases (cfg : Config A) (env : Env A) (s : State A) : onInitialize cfg env s = s ∨
    onInitialize cfg env s = endReferenda cfg env s (s.referendumStartTime.iterBy cfg.startTimeOrder) := by
  unfold onInitialize
  split
  · exact Or.inr rfl
  · exact Or.inl rfl

theorem cancelEnactment_inv (h : cancelEnactment cfg s id = .ok s') :
    s.proposals.contains id = true ∧ s.scheduled.contains id = true ∧ ∃ assets, s' = { s with
      assets := assets
      scheduled := s.scheduled.remove id
      proposalStatus := s.proposalStatus.insert id .approvedEnactmentCancelled
      proposalCalls := s.proposalCalls.remove id
      proposalVotes := s.proposalVotes.remove id
      referendumStartTime := s.referendumStartTime.remove id } := by
  simp only [cancelEnactment, cancelNamed, bind_eq_ok, okOr_eq_ok, pure_eq_ok] at h
  obtain ⟨p, hpr, t, ht, rfl⟩ := h
  split at ht
  · rename_i hsc
    cases ht
    exact ⟨contains_iff.mpr ⟨p, hpr⟩, hsc, _, rfl⟩
  · cases ht

/-- Dispatching a root call in `s`, with the proposals that it enacts. -/
inductive RootStep (cfg : Config A) (env : Env A) (s : State A) :
    RootCall A → List ProposalId → State A → Prop where
  | add {m : A} {t : State A} (h : addCouncilMember cfg env s m = .ok t) :
    RootStep cfg env s (.addCouncilMember m) [] t
  | remove {m : A} {t : State A} (h : removeCouncilMember s m = .ok t) :
    RootStep cfg env s (.removeCouncilMember m) [] t
  | cancel {id : ProposalId} {t : State A} (h : cancelEnactment cfg s id = .ok t) :
    RootStep cfg env s (.cancelEnactment id) [] t
  | set (call : RootCall A) (bond councilStake voterStake : GenericAsset.Balance) (threshold : Permill) :
    RootStep cfg env s call [] { s with
      proposalBond := bond
      minimumCouncilStake := councilStake
      minVoterStakedAmount := voterStake
      referendumThreshold := threshold }
  | undecoded (id : ProposalId) : RootStep cfg env s (.enactReferendum id) [] s
  | enactOther {id : ProposalId} {proposal : Proposal A} (hproposal : s.proposals.get? id = some proposal)
    (run : GenericAsset.State A → GenericAsset.State A × Bool) :
    RootStep cfg env s (.enactReferendum id) [id]
      (finishEnactment cfg { s with assets := (run s.assets).1 } id proposal.sponsor (run s.assets).2)
  | enactRoot {id : ProposalId} {proposal : Proposal A} {call : RootCall A} {ids : List ProposalId}
    {t : State A} (hproposal : s.proposals.get? id = some proposal)
    (dispatched : RootStep cfg env s call ids t) :
    RootStep cfg env s (.enactReferendum id) (id :: ids) (finishEnactment cfg t id proposal.sponsor true)
  | enactFailed {id : ProposalId} {proposal : Proposal A} (hproposal : s.proposals.get? id = some proposal)
    (ids : List ProposalId) :
    RootStep cfg env s (.enactReferendum id) (id :: ids) (finishEnactment cfg s id proposal.sponsor false)

theorem enactReferendum_step {depth : Nat} {dispatch : State A → RootCall A → Except Error (State A)}
    (hdi : ∀ {call t}, dispatch s call = .ok t → RootStep cfg env s call (enactions cfg s depth call) t)
    (h : enactReferendum cfg dispatch s id = .ok s') :
    RootStep cfg env s (.enactReferendum id) (enactions cfg s (depth + 1) (.enactReferendum id)) s' := by
  simp only [enactReferendum, bind_eq_ok, okOr_eq_ok] at h
  obtain ⟨bytes, hc, p, hpr, h⟩ := h
  simp only [enactions, hc, hpr]
  split at h
  · rename_i call hde
    rw [bind_eq_ok] at h
    obtain ⟨⟨t, ok⟩, hcs, h⟩ := h
    rw [pure_eq_ok] at h
    subst h
    rw [hde]
    cases call with
    | other run =>
      cases hcs
      exact .enactOther hpr run
    | governance call =>
      simp only [dispatchCall] at hcs
      split at hcs
      · rename_i hok
        cases hcs
        exact .enactRoot hpr (hdi hok)
      · cases hcs
      · cases hcs
        exact .enactFailed hpr _
  · rename_i hde
    rw [pure_eq_ok] at h
    subst h
    rw [hde]
    exact .undecoded id

theorem dispatchRoot_step {depth : Nat} {call : RootCall A} (h : dispatchRoot cfg env depth s call = .ok s') :
    RootStep cfg env s call (enactions cfg s depth call) s' := by
  induction depth generalizing call s' with
  | zero => cases h
  | succ depth ih =>
    cases call with
    | addCouncilMember m => exact .add h
    | removeCouncilMember m => exact .remove h
    | cancelEnactment id => exact .cancel h
    | enactReferendum id => exact enactReferendum_step ih h
    | setProposalBond bond =>
      cases h
      exact .set _ bond _ _ _
    | setMinimumCouncilStake stake =>
      cases h
      exact .set _ _ stake _ _
    | setReferendumThreshold threshold =>
      cases h
      exact .set _ _ _ _ threshold
    | setMinimumVoterStakedAmount stake =>
      cases h
      exact .set _ _ _ stake _

theorem runScheduled_inv (h : runScheduled cfg env s id = .ok s') :
    s' = s ∨ s.scheduled.contains id = true ∧ ∃ t, (t = s ∨
        RootStep cfg env s (.enactReferendum id) (enactions cfg s cfg.depth (.enactReferendum id)) t) ∧
      s' = { t with scheduled := t.scheduled.remove id } := by
  unfold runScheduled at h
  split_ifs at h with hdue
  · simp only [dispatchCall, bind_eq_ok, pure_eq_ok] at h
    obtain ⟨⟨t, ok⟩, ht, rfl⟩ := h
    obtain ⟨bl, hsc, -⟩ := (Option.any_eq_true _ _).mp hdue
    refine Or.inr ⟨contains_iff.mpr ⟨bl, hsc⟩, t, ?_, rfl⟩
    split at ht
    · rename_i hok
      cases ht
      exact Or.inr (dispatchRoot_step hok)
    · cases ht
    · cases ht
      exact Or.inl rfl
  · cases h
    exact Or.inl rfl

/-! ### A small chain -/

def sampleConfig : Config Nat where
  maxCouncilSize := 128
  assets := ⟨0⟩
  spendingAssetId := 1
  decode _ := some (.other fun assets => (assets, true))
  permillFromRational p q := ⟨1000000 * min p.toNat q.toNat / max q.toNat 1 % 1000001, Nat.mod_lt _ (by decide)⟩
  startTimeOrder a b := a.toNat ≤ b.toNat
  depth := 4

def sampleEnv (bl : BlockNumber) : Env Nat where
  blockNumber := bl
  activeBalance _ := 20000000
  totalStaked := 100000000
  registeredIdentityCount _ := 2
  minimumRegisteredIdentities := 2
  takesTask _ _ := true

def sampleGenesis : State Nat := State.genesis (GenericAsset.State.genesis 17000)

def sampleOps (calls : List (BlockNumber × Call Nat)) : List (Op Nat) := calls.map fun c => ⟨sampleEnv c.1, c.2⟩

def approvedByCouncil : List (BlockNumber × Call Nat) :=
  [(1, .root (.addCouncilMember 1)), (1, .root (.addCouncilMember 2)), (2, .submitProposal 1 [] [] 10),
    (4, .voteOnProposal 2 0 true)]

end Governance
