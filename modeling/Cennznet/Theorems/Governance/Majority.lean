import Cennznet.Theorems.Governance.Council

/-! # The decision of the council

The vote of the sponsor decides nothing. -/

namespace Governance

open Result StorageMap Steps List

namespace ProposalVoteInfo

/-! ### Rows of both words -/

def activeAt (v : ProposalVoteInfo) (i : Nat) : Bool :=
  if i < 128 then v.activeBits.1.getLsbD i else v.activeBits.2.getLsbD (i - 128)

def yesAt (v : ProposalVoteInfo) (i : Nat) : Bool :=
  if i < 128 then v.voteBits.1.getLsbD i else v.voteBits.2.getLsbD (i - 128)

structure Counted (v : ProposalVoteInfo) (yes no : Nat) : Prop where
  active : Bits.countOnes v.activeBits.1 + Bits.countOnes v.activeBits.2 = yes + no
  votes : Bits.countOnes v.voteBits.1 + Bits.countOnes v.voteBits.2 = yes
  proper : ∀ i, v.activeAt i = false → v.yesAt i = false

section
variable {v : ProposalVoteInfo} {yes no i j : Nat}

theorem toNat_index_high (hi : i < 256) (hhi : ¬i < 128) :
    ¬(BitVec.ofNat 8 i).toNat ≤ 127 ∧ (BitVec.ofNat 8 i - 128).toNat = i - 128 := by
  have hix : (BitVec.ofNat 8 i).toNat = i := by
    rw [BitVec.toNat_ofNat]
    omega
  have hof : (128 : BitVec 8).toNat = 128 := rfl
  refine ⟨by omega, ?_⟩
  rw [Word.toNat_sub_of_le (by omega), hix, hof]

theorem recordVote_eq_high (hi : i < 256) (hhi : ¬i < 128) (vote : Bool) : v.recordVote (BitVec.ofNat 8 i) vote =
    { activeBits := (v.activeBits.1, v.activeBits.2 ||| (1#128 <<< (i - 128)))
      voteBits := if vote then (v.voteBits.1, v.voteBits.2 ||| (1#128 <<< (i - 128))) else v.voteBits } := by
  obtain ⟨hix, hof⟩ := toNat_index_high hi hhi
  simp only [recordVote, if_neg hix, hof]

theorem getVote_eq_none (hi : i < 256) (h : v.activeAt i = false) : v.getVote (BitVec.ofNat 8 i) = none := by
  unfold activeAt at h
  split_ifs at h with hlow
  · rw [getVote_eq_voteAt hlow, voteAt, h]
    exact if_neg Bool.false_ne_true
  · obtain ⟨hix, hof⟩ := toNat_index_high hi hlow
    simp only [getVote, if_neg hix, hof, Bits.and_one_pos (show i - 128 < 128 by omega), h]
    exact if_neg Bool.false_ne_true

theorem activeAt_recordVote (hi : i < 256) (vote : Bool) :
    (v.recordVote (BitVec.ofNat 8 i) vote).activeAt j = (v.activeAt j || decide (j = i)) := by
  by_cases hlow : i < 128
  · rw [recordVote_eq hlow]
    simp only [activeAt, Bits.getLsbD_or_one hlow]
    split
    · rfl
    · rw [decide_eq_false (show ¬j = i by omega), Bool.or_false]
  · rw [recordVote_eq_high hi hlow]
    simp only [activeAt, Bits.getLsbD_or_one (show i - 128 < 128 by omega)]
    split
    · rw [decide_eq_false (show ¬j = i by omega), Bool.or_false]
    · rw [decide_eq_decide.mpr (show j - 128 = i - 128 ↔ j = i by omega)]

theorem yesAt_recordVote_ne (hi : i < 256) (hj : j ≠ i) (vote : Bool) :
    (v.recordVote (BitVec.ofNat 8 i) vote).yesAt j = v.yesAt j := by
  by_cases hlow : i < 128
  · rw [recordVote_eq hlow]
    cases vote with
    | false => rfl
    | true => simp only [yesAt, if_true, Bits.getLsbD_or_one hlow, decide_eq_false hj, Bool.or_false]
  · rw [recordVote_eq_high hi hlow]
    cases vote with
    | false => rfl
    | true =>
      simp only [yesAt, if_true, Bits.getLsbD_or_one (show i - 128 < 128 by omega)]
      split
      · rfl
      · rw [decide_eq_false (show ¬j - 128 = i - 128 by omega), Bool.or_false]

theorem counted_default : (default : ProposalVoteInfo).Counted 0 0 where
  active := by decide +kernel
  votes := by decide +kernel
  proper i _ := by
    unfold yesAt
    split
    · exact BitVec.getLsbD_zero
    · exact BitVec.getLsbD_zero

theorem Counted.recordVote (C : v.Counted yes no) (hi : i < 256) (hn : v.activeAt i = false) (vote : Bool) :
    (v.recordVote (BitVec.ofNat 8 i) vote).Counted (yes + if vote then 1 else 0) (no + if vote then 0 else 1) := by
  have hyes := C.proper i hn
  have hac := C.active
  have hvo := C.votes
  have hpr : ∀ j, (v.recordVote (BitVec.ofNat 8 i) vote).activeAt j = false →
      (v.recordVote (BitVec.ofNat 8 i) vote).yesAt j = false := by
    intro j hj
    rw [activeAt_recordVote hi, Bool.or_eq_false_iff] at hj
    rw [yesAt_recordVote_ne hi (of_decide_eq_false hj.2)]
    exact C.proper j hj.1
  unfold activeAt at hn
  unfold yesAt at hyes
  by_cases hlow : i < 128
  · rw [if_pos hlow] at hn hyes
    refine ⟨?_, ?_, hpr⟩
    · rw [recordVote_eq hlow]
      simp only [Bits.countOnes_or_one hlow hn]
      cases vote <;> simp <;> omega
    · rw [recordVote_eq hlow]
      cases vote with
      | false => exact hvo
      | true =>
        simp only [if_true, Bits.countOnes_or_one hlow hyes]
        omega
  · rw [if_neg hlow] at hn hyes
    have hwo : i - 128 < 128 := by omega
    refine ⟨?_, ?_, hpr⟩
    · rw [recordVote_eq_high hi hlow]
      simp only [Bits.countOnes_or_one hwo hn]
      cases vote <;> simp <;> omega
    · rw [recordVote_eq_high hi hlow]
      cases vote with
      | false => exact hvo
      | true =>
        simp only [if_true, Bits.countOnes_or_one hwo hyes]
        omega

theorem Counted.countVotes (C : v.Counted yes no) : v.countVotes.yes.toNat = yes ∧ v.countVotes.no.toNat = no := by
  have hae := C.active
  have hvo := C.votes
  have hye₁ := Bits.countOnes_le v.voteBits.1
  have hye₂ := Bits.countOnes_le v.voteBits.2
  have hac₁ := Bits.countOnes_le v.activeBits.1
  have hac₂ := Bits.countOnes_le v.activeBits.2
  have hyc : v.yesCount.toNat = yes := by
    rw [yesCount, BitVec.toNat_add, BitVec.toNat_ofNat, BitVec.toNat_ofNat]
    omega
  have hac : v.activeCount.toNat = yes + no := by
    rw [activeCount, BitVec.toNat_add, BitVec.toNat_ofNat, BitVec.toNat_ofNat]
    omega
  refine ⟨hyc, ?_⟩
  have hno : (v.activeCount - v.yesCount).toNat = v.activeCount.toNat - v.yesCount.toNat :=
    Word.toNat_sub_of_le (by omega)
  rw [hac, hyc] at hno
  rw [ProposalVoteInfo.countVotes, hno]
  omega

end

end ProposalVoteInfo

/-! ### The council in every run -/

variable {A : Type} [LinearOrder A]

structure WellSeated (cfg : Config A) (cl : List A) : Prop where
  sorted : cl.Pairwise (· < ·)
  size : cl.length ≤ cfg.maxCouncilSize.toNat

variable {cfg : Config A} {env : Env A} {s s' : State A} {id : ProposalId}

theorem WellSeated.add {m : A} (h : WellSeated cfg s.council) (hadd : addCouncilMember cfg env s m = .ok s') :
    WellSeated cfg s'.council := by
  obtain ⟨hr, rfl | ⟨idx, hidx, rfl⟩⟩ := addCouncilMember_inv hadd
  · exact h
  · have window := Search.window_of_search h.sorted hidx
    exact ⟨window.sorted_insertIdx h.sorted, (length_insertIdx_of_le_length window.fits m).trans_le hr⟩

theorem WellSeated.remove {m : A} (h : WellSeated cfg s.council) (hre : removeCouncilMember s m = .ok s') :
    WellSeated cfg s'.council := by
  rcases removeCouncilMember_inv hre with rfl | ⟨idx, -, rfl⟩
  · exact h
  · have hsub := eraseIdx_sublist s.council idx
    exact ⟨h.sorted.sublist hsub, hsub.length_le.trans h.size⟩

theorem RootStep.wellSeated {call : RootCall A} {ids : List ProposalId} (hs : RootStep cfg env s call ids s')
    (h : WellSeated cfg s.council) : WellSeated cfg s'.council := by
  induction hs with
  | add hadd => exact h.add hadd
  | remove hre => exact h.remove hre
  | cancel hca =>
    obtain ⟨-, -, assets, rfl⟩ := cancelEnactment_inv hca
    exact h
  | enactRoot hpr dispatched ih => exact ih
  | _ => exact h

theorem voteOnProposal_frame {o : A} {vote : Bool} (h : voteOnProposal cfg env s o id vote = .ok s') :
    s'.council = s.council ∧ (s'.proposalStatus.get? id = some .deliberation → s' =
      { s with proposalVotes := s'.proposalVotes }) := by
  obtain ⟨idx, -, -, -, decision⟩ := voteOnProposal_inv h
  cases decision with
  | undecided => exact ⟨rfl, fun _ => rfl⟩
  | started | enacted | disapproved => exact ⟨rfl, fun hp => absurd rfl (get?_of_insert hp (by decide)).1⟩

theorem onInitialize_council (cfg : Config A) (env : Env A) (s : State A) :
    (onInitialize cfg env s).council = s.council := by
  rcases onInitialize_cases cfg env s with heq | heq <;> rw [heq]
  exact endReferenda_invariant cfg env (s.referendumStartTime.iterBy cfg.startTimeOrder)
    (I := fun t : State A => t.council = s.council) (fun _ _ _ _ ht _ verdict => verdict.council.1.trans ht) rfl

theorem step_wellSeated {op : Op A} (h : WellSeated cfg s.council) : WellSeated cfg (step cfg s op).council := by
  unfold step
  cases hpe : perform cfg s op with
  | error e => exact h
  | ok s' =>
    obtain ⟨env, call⟩ := op
    cases call with
    | submitProposal o call uri delay =>
      obtain ⟨idx, p, assets, -, rfl⟩ := submitProposal_inv hpe
      exact h
    | voteOnProposal o id vote =>
      have hco := (voteOnProposal_frame hpe).1
      exact hco.symm ▸ h
    | voteAgainstReferendum o id =>
      obtain ⟨-, -, -, rfl⟩ := voteAgainstReferendum_inv hpe
      exact h
    | root call => exact (dispatchRoot_step hpe).wellSeated h
    | onInitialize =>
      cases hpe
      have hco := onInitialize_council cfg env s
      exact hco.symm ▸ h
    | runScheduled id =>
      rcases runScheduled_inv hpe with rfl | ⟨-, t, rfl | hs, rfl⟩
      · exact h
      · exact h
      · exact hs.wellSeated h
    | ledger assets =>
      cases hpe
      exact h

/-! ### Voting -/

theorem toNat_threshold (h : WellSeated cfg s.council) (hne : s.council ≠ []) : (threshold s).toNat = s.council.length / 2 := by
  have hsi := h.size
  have hmax := cfg.maxCouncilSize.isLt
  have hey : s.council.isEmpty = false := isEmpty_eq_false_iff.mpr hne
  have htwo : (2 : BitVec 32).toNat = 2 := rfl
  rw [threshold, hey, if_neg Bool.false_ne_true, BitVec.toNat_udiv, BitVec.toNat_ofNat, htwo]
  omega

/-- The proposal is being deliberated with `yes` votes for and `no` against it, all by members. -/
structure Deliberating (s : State A) (id : ProposalId) (voted : List A) (yes no : Nat) : Prop where
  status : s.proposalStatus.get? id = some .deliberation
  proposal : s.proposals.contains id = true
  votes : ∃ v, s.proposalVotes.get? id = some v ∧ v.Counted yes no ∧
    ∀ i m, s.council[i]? = some m → m ∉ voted → v.activeAt i = false

theorem WellSeated.search (h : WellSeated cfg s.council) {m : A} (hm : m ∈ s.council) :
    ∃ idx, Search.binarySearch s.council m = .ok idx ∧ s.council[idx]? = some m ∧ idx < 256 := by
  cases hse : Search.binarySearch s.council m with
  | error idx => exact absurd hm (Search.window_of_search h.sorted hse).not_mem
  | ok idx =>
    have hget := Search.getElem?_of_search h.sorted hse
    have hlt := (List.getElem?_eq_some_iff.mp hget).1
    have hsi := h.size
    have hmax := cfg.maxCouncilSize.isLt
    exact ⟨idx, rfl, hget, by omega⟩

theorem applyTally_status (cfg : Config A) (env : Env A) (s : State A) (id : ProposalId)
    (sponsor : A) (tally : CouncilVoteCount) :
    if (threshold s).toNat < tally.yes.toNat ∨ (threshold s).toNat < tally.no.toNat then
      (applyTally cfg env s id sponsor tally).proposalStatus.get? id ≠ some .deliberation
    else applyTally cfg env s id sponsor tally = s := by
  have hde {st : ProposalStatusInfo} (hne : st ≠ .deliberation) :
      (s.proposalStatus.insert id st).get? id ≠ some .deliberation := by
    rw [get?_insert_self]
    exact fun heq => hne (Option.some.inj heq)
  unfold applyTally
  by_cases hyes : (threshold s).toNat < tally.yes.toNat
  · rw [if_pos hyes, if_pos (Or.inl hyes)]
    split
    · exact hde (by decide)
    · exact hde (by decide)
  · rw [if_neg hyes]
    by_cases hno : (threshold s).toNat < tally.no.toNat
    · rw [if_pos hno, if_pos (Or.inr hno)]
      exact hde (by decide)
    · rw [if_neg hno, if_neg (not_or.mpr ⟨hyes, hno⟩)]

theorem Deliberating.vote {voted : List A} {yes no : Nat} {m : A} (D : Deliberating s id voted yes no)
    (h : WellSeated cfg s.council) (hm : m ∈ s.council) (hnew : m ∉ voted) (env : Env A) (vote : Bool) :
    let yes' := yes + if vote then 1 else 0
    let no' := no + if vote then 0 else 1
    let s' := step cfg s ⟨env, .voteOnProposal m id vote⟩
    s'.council = s.council ∧ if s.council.length / 2 < yes' ∨ s.council.length / 2 < no' then
      s'.proposalStatus.get? id ≠ some .deliberation else Deliberating s' id (m :: voted) yes' no' := by
  intro yes' no' s'
  obtain ⟨idx, hse, hget, hidx⟩ := h.search hm
  obtain ⟨v, hv, counted, hf⟩ := D.votes
  obtain ⟨p, hpr⟩ := contains_iff.mp D.proposal
  have hie := hf idx m hget hnew
  have counted' := counted.recordVote hidx hie vote
  obtain ⟨hyes, hno⟩ := counted'.countVotes
  have hn := ProposalVoteInfo.getVote_eq_none hidx hie
  have hthr := toNat_threshold h (ne_nil_of_mem hm)
  let v' := v.recordVote (BitVec.ofNat 8 idx) vote
  let t : State A := { s with proposalVotes := s.proposalVotes.insert id v' }
  have hpe : voteOnProposal cfg env s m id vote = .ok (applyTally cfg env t id p.sponsor v'.countVotes) := by
    simp only [voteOnProposal, bind_eq_ok, mapError_eq_ok, okOr_eq_ok, ensure_eq_ok, pure_eq_ok, getD_of_get? hv]
    exact ⟨idx, hse, p, hpr, (), hn, rfl⟩
  have hs' : s' = applyTally cfg env t id p.sponsor v'.countVotes := by
    simp only [s', step, perform, hpe]
    rfl
  refine ⟨hs' ▸ (voteOnProposal_frame hpe).1, ?_⟩
  have hst := applyTally_status cfg env t id p.sponsor v'.countVotes
  have hha : (threshold t).toNat = s.council.length / 2 := hthr
  rw [← hs', hyes, hno, hha] at hst
  by_cases hde : s.council.length / 2 < yes' ∨ s.council.length / 2 < no'
  · rw [if_pos hde] at hst ⊢
    exact hst
  · rw [if_neg hde] at hst ⊢
    rw [hst]
    refine ⟨D.status, D.proposal, _, get?_insert_self, counted', fun i k hk hvo => ?_⟩
    obtain ⟨hne, hvo⟩ := not_or.mp (mt mem_cons.mpr hvo)
    have hix : i ≠ idx := by
      rintro rfl
      exact hne (Option.some.inj (hk.symm.trans hget))
    rw [ProposalVoteInfo.activeAt_recordVote hidx, hf i k hk hvo, decide_eq_false hix]
    rfl

/-! ### All members vote -/

structure Ballot (A : Type) where
  env : Env A
  voter : A
  vote : Bool

def castOn (id : ProposalId) (ballots : List (Ballot A)) : List (Op A) :=
  ballots.map fun b => ⟨b.env, .voteOnProposal b.voter id b.vote⟩

theorem castOn_decided {ballots : List (Ballot A)} (h : s.proposalStatus.get? id ≠ some .deliberation) :
    (execute (step cfg) s (castOn id ballots)).proposalStatus.get? id ≠ some .deliberation := by
  refine execute_invariant (I := fun t : State A => t.proposalStatus.get? id ≠ some .deliberation) ?_ h
  intro op hop t ht
  obtain ⟨b, -, rfl⟩ := mem_map.mp hop
  refine getD_cases (P := fun t' : State A => t'.proposalStatus.get? id ≠ some .deliberation) ?_ ht
  intro t' hpe hst
  have hfr := (voteOnProposal_frame hpe).2 hst
  rw [hfr] at hst
  exact ht hst

theorem Deliberating.castOn_iff {voted : List A} {yes no : Nat} {ballots : List (Ballot A)}
    (D : Deliberating s id voted yes no) (h : WellSeated cfg s.council)
    (hdi : (ballots.map (·.voter)).Nodup) (hmb : ∀ b ∈ ballots, b.voter ∈ s.council ∧ b.voter ∉ voted) :
    (execute (step cfg) s (castOn id ballots)).proposalStatus.get? id ≠ some .deliberation ↔
      ballots ≠ [] ∧ (s.council.length / 2 < yes + ballots.countP (·.vote) ∨
        s.council.length / 2 < no + ballots.countP fun b => !b.vote) := by
  induction ballots generalizing s voted yes no with
  | nil => exact iff_of_false (fun hne => hne D.status) fun hne => hne.1 rfl
  | cons b rest ih =>
    obtain ⟨⟨hm, hnew⟩, hre⟩ := forall_mem_cons.mp hmb
    obtain ⟨hfi, hnd⟩ := nodup_cons.mp hdi
    obtain ⟨hco, hs⟩ := D.vote h hm hnew b.env b.vote
    have hyes : yes + (b :: rest).countP (·.vote) = yes + (if b.vote then 1 else 0) + rest.countP (·.vote) := by
      rw [countP_cons]
      omega
    have hno : no + (b :: rest).countP (fun b => !b.vote) =
        no + (if b.vote then 0 else 1) + rest.countP fun b => !b.vote := by
      rw [countP_cons]
      cases b.vote with
      | false =>
        simp only [Bool.not_false, if_true, Bool.false_eq_true, if_false]
        omega
      | true => simp only [Bool.not_true, Bool.false_eq_true, if_false, if_true, Nat.add_zero]
    rw [hyes, hno, castOn, map_cons, execute_cons]
    generalize yes + (if b.vote then 1 else 0) = yes' at hs ⊢
    generalize no + (if b.vote then 0 else 1) = no' at hs ⊢
    by_cases hde : s.council.length / 2 < yes' ∨ s.council.length / 2 < no'
    · rw [if_pos hde] at hs
      refine iff_of_true (castOn_decided hs) ⟨cons_ne_nil _ _, ?_⟩
      omega
    · rw [if_neg hde] at hs
      have hme' : ∀ x ∈ rest, x.voter ∈ (step cfg s ⟨b.env, .voteOnProposal b.voter id b.vote⟩).council ∧
          x.voter ∉ b.voter :: voted := by
        intro x hx
        obtain ⟨hin, hnot⟩ := hre x hx
        refine ⟨hco.symm ▸ hin, not_mem_cons_of_ne_of_not_mem ?_ hnot⟩
        intro heq
        exact hfi (mem_map.mpr ⟨x, hx, heq⟩)
      have hiff := ih hs (hco.symm ▸ h) hnd hme'
      rw [hco] at hiff
      refine hiff.trans ⟨fun hr => ⟨cons_ne_nil _ _, hr.2⟩, fun hr => ⟨?_, hr.2⟩⟩
      rintro rfl
      simp only [countP_nil, Nat.add_zero] at hr
      exact hde hr.2

theorem submitProposal_deliberating {o : A} {call uri : Bytes} {delay : BlockNumber}
    (h : WellSeated cfg s.council) (hsu : submitProposal cfg env s o call uri delay = .ok s') :
    s'.council = s.council ∧ o ∈ s.council ∧ Deliberating s' s.nextProposalId [o] 1 0 := by
  obtain ⟨idx, p, assets, hse, rfl⟩ := submitProposal_inv hsu
  have hget := Search.getElem?_of_search h.sorted hse
  have hor := mem_of_getElem? hget
  have hidx : idx < 256 := by
    have hlt := (List.getElem?_eq_some_iff.mp hget).1
    have hsi := h.size
    have hmax := cfg.maxCouncilSize.isLt
    omega
  have hac : ∀ i, (default : ProposalVoteInfo).activeAt i = false := fun i => by
    unfold ProposalVoteInfo.activeAt
    split
    · exact BitVec.getLsbD_zero
    · exact BitVec.getLsbD_zero
  have hco : (s.proposals.insert s.nextProposalId p).contains s.nextProposalId = true :=
    contains_iff.mpr ⟨_, get?_insert_self⟩
  refine ⟨rfl, hor, get?_insert_self, hco, _, get?_insert_self,
    ProposalVoteInfo.counted_default.recordVote hidx (hac idx) true, fun i k hk hvo => ?_⟩
  have hix : i ≠ idx := by
    rintro rfl
    exact hvo (mem_singleton.mpr (Option.some.inj (hk.symm.trans hget)))
  rw [ProposalVoteInfo.activeAt_recordVote hidx, hac i, decide_eq_false hix]
  rfl

/-- In every run, a proposal is submitted and all other members vote on it once. It is then decided exactly if the
council has two members or more and its votes, the sponsor's included, are not divided equally. -/
theorem council_decides_iff (cfg : Config A) (assets : GenericAsset.State A) (ops : List (Op A)) {env : Env A}
    {sponsor : A} {call uri : Bytes} {delay : BlockNumber} {s' : State A}
    (hsubmit : submitProposal cfg env (execute (step cfg) (State.genesis assets) ops) sponsor call uri delay = .ok s')
    (ballots : List (Ballot A)) (hall : (sponsor :: ballots.map (·.voter)).Perm s'.council) :
    let id := (execute (step cfg) (State.genesis assets) ops).nextProposalId
    (execute (step cfg) s' (castOn id ballots)).proposalStatus.get? id ≠ some .deliberation ↔
      2 ≤ s'.council.length ∧ 1 + ballots.countP (·.vote) ≠ ballots.countP fun b => !b.vote := by
  intro id
  have hse : WellSeated cfg (execute (step cfg) (State.genesis assets) ops).council :=
    execute_invariant (I := fun t : State A => WellSeated cfg t.council) (fun _ _ _ h => step_wellSeated h)
      ⟨List.Pairwise.nil, Nat.zero_le _⟩
  obtain ⟨hco, -, D⟩ := submitProposal_deliberating hse hsubmit
  rw [← hco] at hse
  have hdi := hall.nodup_iff.mpr (hse.sorted.imp fun h => ne_of_lt h)
  obtain ⟨hsp, hno⟩ := nodup_cons.mp hdi
  have hmb : ∀ b ∈ ballots, b.voter ∈ s'.council ∧ b.voter ∉ [sponsor] := by
    intro b hb
    have hvo : b.voter ∈ ballots.map (·.voter) := mem_map.mpr ⟨b, hb, rfl⟩
    refine ⟨hall.subset (mem_cons_of_mem _ hvo), ?_⟩
    rw [mem_singleton]
    rintro rfl
    exact hsp hvo
  -- every member has voted for or against
  have hle : s'.council.length = 1 + ballots.length := by
    rw [← hall.length_eq, length_cons, length_map, Nat.add_comm]
  have hst := length_eq_countP_add_countP (l := ballots) (p := (·.vote))
  simp only [Bool.not_eq_true, Bool.decide_eq_false] at hst
  have hnil : ballots ≠ [] ↔ ballots.length ≠ 0 := not_congr length_eq_zero_iff.symm
  rw [D.castOn_iff hse hno hmb, hnil]
  omega

/-! ### Councils of three and of two -/

def councilOf (members : List Nat) : List (Op Nat) := sampleOps (members.map fun m => (1, .root (.addCouncilMember m)))

theorem council_of_three_decides : ∃ s', submitProposal sampleConfig (sampleEnv 2)
      (execute (step sampleConfig) sampleGenesis (councilOf [1, 2, 3])) 1 [] [] 10 = .ok s' ∧
    (execute (step sampleConfig) s' (castOn 0 [⟨sampleEnv 3, 3, false⟩, ⟨sampleEnv 4, 2, true⟩])).proposalStatus.get? 0 ≠
      some .deliberation := by
  obtain ⟨s', hsu, hco⟩ : ∃ s', submitProposal sampleConfig (sampleEnv 2)
      (execute (step sampleConfig) sampleGenesis (councilOf [1, 2, 3])) 1 [] [] 10 = .ok s' ∧
        s'.council = [1, 2, 3] := ⟨_, rfl, by decide +kernel⟩
  refine ⟨s', hsu, ?_⟩
  refine (council_decides_iff sampleConfig (GenericAsset.State.genesis 17000) (councilOf [1, 2, 3]) hsu
    [⟨sampleEnv 3, 3, false⟩, ⟨sampleEnv 4, 2, true⟩] ?_).mpr ?_
  · rw [hco]
    exact List.Perm.cons 1 (List.Perm.swap 2 3 [])
  · rw [hco]
    decide

theorem council_of_two_undecided : ∃ s', submitProposal sampleConfig (sampleEnv 2)
      (execute (step sampleConfig) sampleGenesis (councilOf [1, 2])) 1 [] [] 10 = .ok s' ∧ s'.council = [1, 2] ∧
    let t := execute (step sampleConfig) s' (castOn 0 [⟨sampleEnv 3, 2, false⟩])
    (t.proposalVotes.getD 0 default).countVotes = ⟨1, 1⟩ ∧ t.proposalStatus.get? 0 = some .deliberation :=
  ⟨_, rfl, by decide +kernel, by decide +kernel, by decide +kernel⟩

end Governance
