import Cennznet.Theorems.Governance.Effects

/-! # The tally of a referendum

A council vote resets the tally and leaves the vetoes. -/

namespace Governance

open Result StorageMap Steps List

variable {A : Type}

def State.vetoes (s : State A) (id : ProposalId) : Nat :=
  s.referendumVotes.sumBy (StorageMap.under BitVec.toNat id)

def Tallied (s : State A) : Prop :=
  ∀ id, s.proposalStatus.get? id = some .referendumDeliberation → (s.referendumVetoSum.getD id 0).toNat = s.vetoes id

/-! ### What leaves the tallies alone -/

def KeepsTallies (s s' : State A) : Prop :=
  ∀ id, s'.proposalStatus.get? id = some .referendumDeliberation →
    s.proposalStatus.get? id = some .referendumDeliberation ∧
      s'.referendumVetoSum.get? id = s.referendumVetoSum.get? id ∧ s'.vetoes id = s.vetoes id

section
variable {cfg : Config A} {env : Env A} {s s' t : State A} {id : ProposalId}

theorem KeepsTallies.of_same (hst : s'.proposalStatus = s.proposalStatus)
    (hsum : s'.referendumVetoSum = s.referendumVetoSum) (hvo : s'.referendumVotes = s.referendumVotes) :
    KeepsTallies s s' := by
  intro p hp
  rw [hst] at hp
  unfold State.vetoes
  rw [hsum, hvo]
  exact ⟨hp, rfl, rfl⟩

theorem KeepsTallies.refl (s : State A) : KeepsTallies s s := .of_same rfl rfl rfl

theorem KeepsTallies.trans (h : KeepsTallies s t) (h' : KeepsTallies t s') : KeepsTallies s s' := by
  intro p hp
  obtain ⟨ht, hsum, hve⟩ := h' p hp
  obtain ⟨hs, hsu', hve'⟩ := h p ht
  exact ⟨hs, hsum.trans hsu', hve.trans hve'⟩

theorem Tallied.keep (T : Tallied s) (h : KeepsTallies s s') : Tallied s' := by
  intro p hp
  obtain ⟨hs, hsum, hve⟩ := h p hp
  unfold StorageMap.getD
  rw [hsum, hve]
  exact T p hs

theorem KeepsTallies.leave {st : ProposalStatusInfo} (hl : st ≠ .referendumDeliberation)
    (hst : s'.proposalStatus = s.proposalStatus.insert id st)
    (hsum : ∀ p, p ≠ id → s'.referendumVetoSum.get? p = s.referendumVetoSum.get? p)
    (hve : ∀ p, p ≠ id → s'.vetoes p = s.vetoes p) : KeepsTallies s s' := by
  intro p hp
  rw [hst] at hp
  obtain ⟨hne, hp⟩ := get?_of_insert hp hl
  exact ⟨hp, hsum p hne, hve p hne⟩

theorem Verdict.keepsTallies (h : Verdict cfg env s id s') : KeepsTallies s s' := by
  have hve : ∀ p, p ≠ id → (s.referendumVotes.removePrefix id).sumBy (StorageMap.under BitVec.toNat p) = s.vetoes p :=
    fun p hne => (sumBy_under_removePrefix ..).trans (if_neg hne)
  cases h with
  | missing hpr => exact .refl s
  | vetoed assets events hpr hta =>
    exact .leave (show ProposalStatusInfo.referendumVetoed ≠ _ by decide) rfl (fun p hne => get?_remove_ne hne) hve
  | approved scheduled events hpr hta hc hsc =>
    exact .leave (show ProposalStatusInfo.approvedWaitingEnactment ≠ _ by decide) rfl (fun _ _ => rfl) hve
  | enacted hpr hta hc =>
    exact .leave (show ProposalStatusInfo.approvedEnacted true ≠ _ by decide) rfl (fun _ _ => rfl) hve

variable [LinearOrder A]

theorem cancelEnactment_keepsTallies (h : cancelEnactment cfg s id = .ok s') : KeepsTallies s s' := by
  obtain ⟨-, -, assets, rfl⟩ := cancelEnactment_inv h
  exact .leave (show ProposalStatusInfo.approvedEnactmentCancelled ≠ _ by decide) rfl (fun _ _ => rfl) fun _ _ => rfl

theorem KeepsTallies.finish (h : KeepsTallies s t) (sponsor : A) (ok : Bool) :
    KeepsTallies s (finishEnactment cfg t id sponsor ok) := by
  refine h.trans (.leave (show ProposalStatusInfo.approvedEnacted ok ≠ _ by simp) rfl (fun p hne => ?_) fun _ _ => rfl)
  exact get?_remove_ne hne

theorem RootStep.keepsTallies {call : RootCall A} {ids : List ProposalId} (h : RootStep cfg env s call ids s') :
    KeepsTallies s s' := by
  induction h with
  | add h => rcases (addCouncilMember_inv h).2 with rfl | ⟨idx, -, rfl⟩ <;> exact .of_same rfl rfl rfl
  | remove h => rcases removeCouncilMember_inv h with rfl | ⟨idx, -, rfl⟩ <;> exact .of_same rfl rfl rfl
  | cancel h => exact cancelEnactment_keepsTallies h
  | set call bond councilStake voterStake threshold => exact .of_same rfl rfl rfl
  | undecoded id => exact .refl s
  | enactOther hpr run =>
    refine KeepsTallies.finish ?_ _ _
    exact .of_same rfl rfl rfl
  | enactRoot hpr dispatched ih => exact ih.finish _ _
  | enactFailed hpr ids => exact (KeepsTallies.refl s).finish _ _

theorem runScheduled_keepsTallies (h : runScheduled cfg env s id = .ok s') : KeepsTallies s s' := by
  rcases runScheduled_inv h with rfl | ⟨-, t, rfl | hs, rfl⟩
  · exact .refl s'
  · exact .of_same rfl rfl rfl
  · exact hs.keepsTallies.trans (.of_same rfl rfl rfl)

theorem onInitialize_keepsTallies (cfg : Config A) (env : Env A) (s : State A) :
    KeepsTallies s (onInitialize cfg env s) := by
  rcases onInitialize_cases cfg env s with heq | heq <;> rw [heq]
  · exact .refl s
  · exact endReferenda_invariant cfg env _ (fun _ _ _ _ ht _ verdict => ht.trans verdict.keepsTallies) (.refl s)

end

/-! ### The end of a referendum -/

structure Untouched (id : ProposalId) (s t : State A) : Prop where
  status : t.proposalStatus.get? id = s.proposalStatus.get? id
  proposal : t.proposals.get? id = s.proposals.get? id
  vetoSum : t.referendumVetoSum.get? id = s.referendumVetoSum.get? id
  threshold : t.referendumThreshold = s.referendumThreshold

section
variable {cfg : Config A} {env : Env A} {s s' t : State A} {id p : ProposalId}

theorem Untouched.refl (id : ProposalId) (s : State A) : Untouched id s s := ⟨rfl, rfl, rfl, rfl⟩

theorem Untouched.trans (h : Untouched id s t) (h' : Untouched id t s') : Untouched id s s' :=
  ⟨h'.status.trans h.status, h'.proposal.trans h.proposal, h'.vetoSum.trans h.vetoSum, h'.threshold.trans h.threshold⟩

theorem Verdict.untouched (h : Verdict cfg env s p s') (hne : id ≠ p) : Untouched id s s' := by
  cases h with
  | missing hpr => exact .refl id s
  | vetoed assets events hpr hta =>
    exact ⟨get?_insert_ne hne, get?_remove_ne hne, get?_remove_ne hne, rfl⟩
  | approved scheduled events hpr hta hc hsc =>
    exact ⟨get?_insert_ne hne, rfl, rfl, rfl⟩
  | enacted hpr hta hc => exact ⟨get?_insert_ne hne, rfl, rfl, rfl⟩

theorem Verdict.vetoed_iff (h : Verdict cfg env s id s') (hpr : s.proposals.contains id = true) :
    s'.proposalStatus.get? id = some .referendumVetoed ↔
      s.referendumThreshold ≤ cfg.permillFromRational (s.referendumVetoSum.getD id 0) env.totalStaked := by
  cases h with
  | missing hmi =>
    obtain ⟨pr, hget⟩ := contains_iff.mp hpr
    rw [hmi] at hget
    cases hget
  | vetoed assets events hpr hta => exact iff_of_true get?_insert_self hta
  | approved scheduled events hpr hta hc hsc =>
    exact iff_of_false (fun h => (get?_of_insert h (by decide)).1 rfl) hta
  | enacted hpr hta hc =>
    exact iff_of_false (fun h => (get?_of_insert h (by decide)).1 rfl) hta

variable [LinearOrder A]

theorem endReferenda_untouched {started : List (ProposalId × BlockNumber)} (h : id ∉ started.map Prod.fst) :
    Untouched id s (endReferenda cfg env s started) :=
  endReferenda_invariant cfg env started
    (fun _ _ _ hmem ht _ verdict => ht.trans (verdict.untouched fun heq => h (heq ▸ hmem))) (.refl id s)

theorem endReferenda_vetoed_iff {started : List (ProposalId × BlockNumber)} {bl : BlockNumber}
    (hdi : (started.map Prod.fst).Nodup) (hmem : (id, bl) ∈ started) (hov : isOver env s id bl = true)
    (hpr : s.proposals.contains id = true) :
    (endReferenda cfg env s started).proposalStatus.get? id = some .referendumVetoed ↔
      s.referendumThreshold ≤ cfg.permillFromRational (s.referendumVetoSum.getD id 0) env.totalStaked := by
  obtain ⟨before, after, rfl⟩ := append_of_mem hmem
  rw [map_append, map_cons, nodup_append] at hdi
  obtain ⟨-, haf, hbe⟩ := hdi
  have hbe' : id ∉ before.map Prod.fst := fun h => hbe id h id mem_cons_self rfl
  -- its turn comes in a state that the earlier ones have not changed for it
  have U : Untouched id s (endReferenda cfg env s before) := endReferenda_untouched hbe'
  have hov' : isOver env (endReferenda cfg env s before) id bl = true := by
    unfold isOver at hov ⊢
    rw [U.status]
    exact hov
  have hsp : endReferenda cfg env s (before ++ (id, bl) :: after) =
      endReferenda cfg env (endReferendum cfg env (endReferenda cfg env s before) id) after := by
    rw [endReferenda_append, endReferenda_cons, if_pos hov']
  have hco : (endReferenda cfg env s before).proposals.contains id = true := by
    unfold StorageMap.contains at hpr ⊢
    rw [U.proposal]
    exact hpr
  have hve := (endReferendum_verdict cfg env (endReferenda cfg env s before) id).vetoed_iff hco
  have hsum : (endReferenda cfg env s before).referendumVetoSum.getD id 0 = s.referendumVetoSum.getD id 0 := by
    unfold StorageMap.getD
    rw [U.vetoSum]
  rw [hsp, (endReferenda_untouched (nodup_cons.mp haf).1).status, hve, U.threshold, hsum]

end

section
variable [LinearOrder A]

def carries (s : State A) (o : A) (id : ProposalId) (vote : Bool) : Bool :=
  match Search.binarySearch s.council o with
  | .ok idx => (threshold s).toNat < (votesWith s id idx vote).countVotes.yes.toNat
  | .error _ => false

/-- A council vote carries a proposal only if no veto is recorded for it. -/
def StartsAfresh (s : State A) (op : Op A) : Prop :=
  match op.call with
  | .voteOnProposal o id vote => carries s o id vote = true → s.referendumVotes.iterPrefix id = []
  | _ => True

def SumFits (s : State A) (op : Op A) : Prop :=
  match op.call with
  | .voteAgainstReferendum o id =>
    (s.referendumVetoSum.getD id 0).toNat + (op.env.activeBalance o).toNat < 2 ^ 128
  | _ => True

/-- Each referendum that ends is vetoed if all its vetoes together reach the threshold. -/
def JudgesBySum (cfg : Config A) (s : State A) (op : Op A) : Prop :=
  op.call = .onInitialize → op.env.blockNumber % referendumCheckInterval = 0 →
    ∀ id bl, s.referendumStartTime.get? id = some bl → isOver op.env s id bl = true → s.proposals.contains id = true →
        ((step cfg s op).proposalStatus.get? id = some .referendumVetoed ↔
          s.referendumThreshold ≤ cfg.permillFromRational (BitVec.ofNat 128 (s.vetoes id)) op.env.totalStaked)

variable {cfg : Config A} {env : Env A} {s s' : State A} {o : A} {id : ProposalId}

theorem vetoes_eq_zero (h : s.referendumVotes.iterPrefix id = []) : s.vetoes id = 0 := by
  refine sumBy_eq_zero fun k v hget => if_neg ?_
  obtain ⟨p, who⟩ := k
  rintro rfl
  have hmem := mem_iterPrefix.mpr hget
  rw [h] at hmem
  cases hmem

theorem voteOnProposal_tallied {vote : Bool} (T : Tallied s)
    (haf : carries s o id vote = true → s.referendumVotes.iterPrefix id = [])
    (h : voteOnProposal cfg env s o id vote = .ok s') : Tallied s' := by
  obtain ⟨idx, hidx, -, -, decision⟩ := voteOnProposal_inv h
  cases decision with
  | undecided => exact T.keep (.of_same rfl rfl rfl)
  | started events hca hc =>
    have hn : s.referendumVotes.iterPrefix id = [] := by
      refine haf ?_
      unfold carries
      rw [hidx]
      exact decide_eq_true hca
    intro p hp
    show ((s.referendumVetoSum.insert id 0).getD p 0).toNat = s.vetoes p
    rw [getD_insert]
    split_ifs with heq
    · rw [heq, vetoes_eq_zero hn]
      rfl
    · exact T p ((get?_insert_ne heq).symm.trans hp)
  | enacted hc =>
    exact T.keep (.leave (show ProposalStatusInfo.approvedEnacted true ≠ _ by decide) rfl (fun _ _ => rfl) fun _ _ => rfl)
  | disapproved assets events =>
    exact T.keep (.leave (show ProposalStatusInfo.disapproved ≠ _ by decide) rfl (fun _ _ => rfl) fun _ _ => rfl)

theorem voteAgainstReferendum_tallied (T : Tallied s)
    (hf : (s.referendumVetoSum.getD id 0).toNat + (env.activeBalance o).toNat < 2 ^ 128)
    (h : voteAgainstReferendum env s o id = .ok s') : Tallied s' := by
  obtain ⟨hst, hn, -, rfl⟩ := voteAgainstReferendum_inv h
  intro p hp
  show ((s.referendumVetoSum.insert id _).getD p 0).toNat =
    (s.referendumVotes.insert (id, o) _).sumBy (StorageMap.under BitVec.toNat p)
  by_cases heq : p = id
  · subst heq
    have hsum := sumBy_under_insert (m := s.referendumVotes) (a := p) (b := o)
      (v := env.activeBalance o) (f := BitVec.toNat) (d := 0) rfl
    have hz : (s.referendumVotes.getD (p, o) 0).toNat = 0 := by
      unfold StorageMap.getD
      rw [hn]
      rfl
    have hold := T p hst
    unfold State.vetoes at hold
    rw [getD_insert, if_pos rfl, BitVec.toNat_add_of_lt hf]
    omega
  · rw [getD_insert, if_neg heq, sumBy_under_insert_ne heq]
    exact T p hp

theorem step_tallied {op : Op A} (T : Tallied s) (haf : StartsAfresh s op) (hf : SumFits s op) :
    Tallied (step cfg s op) := by
  obtain ⟨env, call⟩ := op
  refine getD_cases (fun s' hpe => ?_) T
  cases call with
  | submitProposal o call uri delay =>
    obtain ⟨idx, pr, assets, -, rfl⟩ := submitProposal_inv hpe
    exact T.keep (.leave (show ProposalStatusInfo.deliberation ≠ _ by decide) rfl (fun _ _ => rfl) fun _ _ => rfl)
  | voteOnProposal o id vote => exact voteOnProposal_tallied T haf hpe
  | voteAgainstReferendum o id => exact voteAgainstReferendum_tallied T hf hpe
  | root call => exact T.keep (dispatchRoot_step hpe).keepsTallies
  | onInitialize =>
    cases hpe
    exact T.keep (onInitialize_keepsTallies cfg env s)
  | runScheduled id => exact T.keep (runScheduled_keepsTallies hpe)
  | ledger assets =>
    cases hpe
    exact T.keep (.of_same rfl rfl rfl)

theorem Tallied.judges (T : Tallied s) (op : Op A) : JudgesBySum cfg s op := by
  obtain ⟨env, call⟩ := op
  intro hc hch id bl hst hov hpr
  cases hc
  have hs : step cfg s ⟨env, .onInitialize⟩ =
      endReferenda cfg env s (s.referendumStartTime.iterBy cfg.startTimeOrder) := if_pos hch
  have hsum : s.referendumVetoSum.getD id 0 = BitVec.ofNat 128 (s.vetoes id) := by
    rw [← T id (isOver_status hov), BitVec.ofNat_toNat, BitVec.setWidth_eq]
  rw [hs, ← hsum]
  exact endReferenda_vetoed_iff (nodup_iterBy_keys _ _) (mem_iterBy.mpr hst) hov hpr

/-- In a run in which referenda start without vetoes and no sum reaches `2 ^ 128`, the tally of a referendum is the sum
of its vetoes, by which it is judged when it ends. -/
theorem tally_is_sum_of_vetoes (cfg : Config A) (assets : GenericAsset.State A) (ops : List (Op A))
    (hafresh : Each (step cfg) StartsAfresh (State.genesis assets) ops)
    (hfits : Each (step cfg) SumFits (State.genesis assets) ops) :
    (∀ done, done <+: ops → Tallied (execute (step cfg) (State.genesis assets) done)) ∧
      Each (step cfg) (JudgesBySum cfg) (State.genesis assets) ops := by
  have hrun := each_and.mpr ⟨hafresh, hfits⟩
  have hke : ∀ (s : State A) op, StartsAfresh s op ∧ SumFits s op → Tallied s → Tallied (step cfg s op) :=
    fun _ _ hop T => step_tallied T hop.1 hop.2
  have hge : Tallied (State.genesis assets) := fun _ h => by cases h
  exact ⟨fun done hdo => hrun.throughout hke hge hdo, hrun.imp hke (fun _ op T _ => T.judges op) hge⟩

instance (s : State A) : ∀ op : Op A, Decidable (StartsAfresh s op)
  | ⟨_, .voteOnProposal _ _ _⟩ => inferInstanceAs (Decidable (_ = true → _ = []))
  | ⟨_, .submitProposal _ _ _ _⟩ | ⟨_, .voteAgainstReferendum _ _⟩ | ⟨_, .root _⟩ | ⟨_, .onInitialize⟩
  | ⟨_, .runScheduled _⟩ | ⟨_, .ledger _⟩ => inferInstanceAs (Decidable True)

instance (s : State A) : ∀ op : Op A, Decidable (SumFits s op)
  | ⟨_, .voteAgainstReferendum _ _⟩ => inferInstanceAs (Decidable (_ < _))
  | ⟨_, .submitProposal _ _ _ _⟩ | ⟨_, .voteOnProposal _ _ _⟩ | ⟨_, .root _⟩ | ⟨_, .onInitialize⟩
  | ⟨_, .runScheduled _⟩ | ⟨_, .ledger _⟩ => inferInstanceAs (Decidable True)

end

def vetoedTwice : List (Op Nat) :=
  sampleOps (approvedByCouncil ++ [(5, .voteAgainstReferendum 7 0), (6, .voteAgainstReferendum 8 0)])

theorem vetoedTwice_tallied :
    let s := execute (step sampleConfig) sampleGenesis vetoedTwice
    s.proposalStatus.get? 0 = some .referendumDeliberation ∧ s.referendumVetoSum.getD 0 0 = 40000000 ∧ Tallied s := by
  refine ⟨by decide +kernel, by decide +kernel, ?_⟩
  exact (tally_is_sum_of_vetoes sampleConfig (GenericAsset.State.genesis 17000) vetoedTwice (by decide +kernel)
    (by decide +kernel)).1 vetoedTwice (prefix_refl _)

def approvedAgain : List (Op Nat) := sampleOps (approvedByCouncil ++
  [(5, .voteAgainstReferendum 7 0), (6, .voteOnProposal 1 0 true), (7, .voteOnProposal 2 0 true)])

theorem approvedAgain_tally_lost :
    let s := execute (step sampleConfig) sampleGenesis approvedAgain
    s.proposalStatus.get? 0 = some .referendumDeliberation ∧ s.referendumVotes.get? (0, 7) = some 20000000 ∧
      s.referendumVetoSum.getD 0 0 = 0 ∧ ¬Tallied s := by
  intro s
  have hst : s.proposalStatus.get? 0 = some .referendumDeliberation := by decide +kernel
  have hsum : s.referendumVetoSum.getD 0 0 = 0 := by decide +kernel
  have hve : s.vetoes 0 = 20000000 := by decide +kernel
  refine ⟨hst, by decide +kernel, hsum, fun T => ?_⟩
  have hta := T 0 hst
  rw [hsum, hve] at hta
  cases hta

end Governance
