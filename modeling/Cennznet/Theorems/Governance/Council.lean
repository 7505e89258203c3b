import Cennznet.Theorems.Governance.Effects
import Cennznet.Theorems.Governance.VoteRows

/-! # The votes of the council

A vote is a bit at an index, and every change of the council shifts the bits. -/

namespace Governance

open Result StorageMap List
open Search (Window)

variable {A : Type}

/-! ### What a row of votes records -/

structure Tracks (cl : List A) (v : ProposalVoteInfo) (cast : A → Option Bool) : Prop where
  proper : v.Proper
  member : ∀ {i m}, cl[i]? = some m → v.voteAt i = cast m
  beyond : ∀ {i}, cl.length ≤ i → v.voteAt i = none

inductive Seating [LinearOrder A] (cl : List A) :
    List A → (ProposalVoteInfo → ProposalVoteInfo) → Prop where
  | same : Seating cl cl id
  | insert {i : Nat} {m : A} (window : Window cl m i i) :
    Seating cl (cl.insertIdx i m) fun v => v.insertVoter (BitVec.ofNat 8 i)
  | remove {i : Nat} {m : A} (member : cl[i]? = some m) :
    Seating cl (cl.eraseIdx i) fun v => v.removeVoter (BitVec.ofNat 8 i)

section
variable {cl cl' : List A} {v : ProposalVoteInfo} {cast cast' : A → Option Bool}
  {i : Nat} {m : A}

theorem Tracks.congr (T : Tracks cl v cast) (h : ∀ m ∈ cl, cast' m = cast m) : Tracks cl v cast' where
  proper := T.proper
  member hm := (T.member hm).trans (h _ (mem_of_getElem? hm)).symm
  beyond := T.beyond

theorem tracks_default (cl : List A) : Tracks cl default fun _ => none where
  proper := ProposalVoteInfo.proper_default
  member _ := ProposalVoteInfo.voteAt_default
  beyond _ := ProposalVoteInfo.voteAt_default

theorem Tracks.recordVote [DecidableEq A] (T : Tracks cl v cast) (hsi : cl.length ≤ 128)
    (hno : cl.Nodup) (hm : cl[i]? = some m) (hn : v.voteAt i = none) (vote : Bool) :
    Tracks cl (v.recordVote (BitVec.ofNat 8 i) vote) fun k => if k = m then some vote else cast k := by
  obtain ⟨hlt, hget⟩ := List.getElem?_eq_some_iff.mp hm
  have hi : i < 128 := by omega
  refine ⟨T.proper.recordVote hi vote, fun {j k} hk => ?_, fun {j} hj => ?_⟩
  · rw [T.proper.voteAt_recordVote hi hn, T.member hk]
    have hiff : j = i ↔ k = m := by
      constructor
      · rintro rfl
        exact Option.some.inj (hk.symm.trans hm)
      · rintro rfl
        exact (getElem?_inj (List.getElem?_eq_some_iff.mp hk).1 hno).mp (hk.trans hm.symm)
    by_cases h : j = i
    · rw [if_pos h, if_pos (hiff.mp h)]
    · rw [if_neg h, if_neg fun h' => h (hiff.mpr h')]
  · rw [T.proper.voteAt_recordVote hi hn, if_neg (by omega), T.beyond hj]

variable [LinearOrder A]

theorem Tracks.insert (T : Tracks cl v cast) (W : Window cl m i i) (hsi : cl.length < 128)
    (hn : cast m = none) : Tracks (cl.insertIdx i m) (v.insertVoter (BitVec.ofNat 8 i)) cast := by
  have hf := W.fits
  have hi : i < 128 := by omega
  have hle : (cl.insertIdx i m).length = cl.length + 1 := length_insertIdx_of_le_length hf m
  refine ⟨T.proper.insertVoter hi, fun {j k} hk => ?_, fun {j} hj => ?_⟩
  · have hj : j < cl.length + 1 := hle ▸ (List.getElem?_eq_some_iff.mp hk).1
    rw [W.getElem?_insertIdx] at hk
    rw [ProposalVoteInfo.voteAt_insertVoter hi]
    rcases Nat.lt_trichotomy j i with h | rfl | h
    · rw [if_pos h] at hk ⊢
      exact T.member hk
    · rw [if_neg (Nat.lt_irrefl _), if_pos rfl] at hk ⊢
      cases hk
      exact hn.symm
    · rw [if_neg (by omega), if_neg (by omega)] at hk ⊢
      rw [if_pos (by omega)]
      exact T.member hk
  · rw [hle] at hj
    rw [ProposalVoteInfo.voteAt_insertVoter hi, if_neg (by omega), if_neg (by omega)]
    split
    · exact T.beyond (by omega)
    · rfl

theorem Tracks.remove {A : Type} {cl : List A} {cast : A → Option Bool} {m : A}
    (T : Tracks cl v cast) (hm : cl[i]? = some m) (hsi : cl.length ≤ 128) :
    Tracks (cl.eraseIdx i) (v.removeVoter (BitVec.ofNat 8 i)) cast := by
  obtain ⟨hlt, -⟩ := List.getElem?_eq_some_iff.mp hm
  have hi : i < 128 := by omega
  have hle : (cl.eraseIdx i).length = cl.length - 1 := length_eraseIdx_of_lt hlt
  refine ⟨T.proper.removeVoter hi, fun {j k} hk => ?_, fun {j} hj => ?_⟩
  · rw [getElem?_eraseIdx] at hk
    rw [ProposalVoteInfo.voteAt_removeVoter hi]
    split_ifs with h
    · rw [if_pos h] at hk
      exact T.member hk
    · rw [if_neg h] at hk
      exact T.member hk
  · rw [hle] at hj
    rw [ProposalVoteInfo.voteAt_removeVoter hi, if_neg (by omega)]
    exact T.beyond (by omega)

theorem Tracks.seat {f : ProposalVoteInfo → ProposalVoteInfo} (T : Tracks cl v cast)
    (seating : Seating cl cl' f) (hsi : cl.length ≤ 128) (hsi' : cl'.length ≤ 128)
    (hnew : ∀ m, m ∉ cl → cast m = none) : Tracks cl' (f v) cast := by
  cases seating with
  | same => exact T
  | insert window =>
    rw [length_insertIdx_of_le_length window.fits] at hsi'
    exact T.insert window hsi' (hnew _ window.not_mem)
  | remove member => exact T.remove member hsi

theorem Seating.sorted {f : ProposalVoteInfo → ProposalVoteInfo} (seating : Seating cl cl' f)
    (hso : cl.Pairwise (· < ·)) : cl'.Pairwise (· < ·) := by
  cases seating with
  | same => exact hso
  | insert window => exact window.sorted_insertIdx hso
  | remove member => exact hso.sublist (eraseIdx_sublist ..)

end

section
variable {cl : List A} {v : ProposalVoteInfo} {cast : A → Option Bool}

theorem countP_isSome (l : List A) (cast : A → Option Bool) :
    l.countP (fun m => (cast m).isSome) = l.countP (cast · = some true) + l.countP (cast · = some false) := by
  induction l with
  | nil => rfl
  | cons m l ih =>
    rw [countP_cons, countP_cons, countP_cons, ih]
    rcases h : cast m with _ | vote
    · simp
    · cases vote <;> simp <;> omega

theorem Tracks.voteBit (T : Tracks cl v cast) {i : Nat} {m : A} (hm : cl[i]? = some m) :
    v.activeBits.1.getLsbD i = (cast m).isSome ∧ v.voteBits.1.getLsbD i = decide (cast m = some true) := by
  rw [← T.member hm]
  cases hvo : v.voteAt i with
  | none => simpa using T.proper.bits_of_none hvo
  | some vote =>
    simp only [ProposalVoteInfo.voteAt, Option.ite_none_right_eq_some, Option.some_inj] at hvo
    obtain ⟨hac, rfl⟩ := hvo
    simpa using hac

theorem Tracks.noBit (T : Tracks cl v cast) {i : Nat} (hi : cl.length ≤ i) :
    v.activeBits.1.getLsbD i = false ∧ v.voteBits.1.getLsbD i = false := T.proper.bits_of_none (T.beyond hi)

theorem countOnes_zero : Bits.countOnes (0 : BitVec 128) = 0 := by decide +kernel

theorem toNat_countOnes {bits : BitVec 128 × BitVec 128} {p : A → Bool} (hsi : cl.length ≤ 128)
    (hr : bits.2 = 0) (hmb : ∀ {i m}, cl[i]? = some m → bits.1.getLsbD i = p m)
    (hbe : ∀ {i}, cl.length ≤ i → bits.1.getLsbD i = false) :
    (BitVec.ofNat 32 (Bits.countOnes bits.1) + BitVec.ofNat 32 (Bits.countOnes bits.2)).toNat = cl.countP p := by
  have hco : Bits.countOnes bits.1 = cl.countP p := Bits.countP_range hsi hmb hbe
  have hle : cl.countP p ≤ cl.length := countP_le_length
  rw [hr, countOnes_zero, hco, BitVec.toNat_add, BitVec.toNat_ofNat, BitVec.toNat_ofNat]
  omega

theorem Tracks.toNat_yesCount (T : Tracks cl v cast) (hsi : cl.length ≤ 128) :
    v.yesCount.toNat = cl.countP (cast · = some true) :=
  toNat_countOnes hsi T.proper.voteRest (fun hm => (T.voteBit hm).2) fun hi => (T.noBit hi).2

theorem Tracks.toNat_activeCount (T : Tracks cl v cast) (hsi : cl.length ≤ 128) :
    v.activeCount.toNat = cl.countP fun m => (cast m).isSome :=
  toNat_countOnes hsi T.proper.activeRest (fun hm => (T.voteBit hm).1) fun hi => (T.noBit hi).1

theorem Tracks.yesCount_le (T : Tracks cl v cast) (hsi : cl.length ≤ 128) : v.yesCount.toNat ≤ v.activeCount.toNat := by
  rw [T.toNat_yesCount hsi, T.toNat_activeCount hsi, countP_isSome]
  exact Nat.le_add_right _ _

theorem Tracks.toNat_no (T : Tracks cl v cast) (hsi : cl.length ≤ 128) :
    v.countVotes.no.toNat = cl.countP (cast · = some false) := by
  show (v.activeCount - v.yesCount).toNat = _
  rw [Word.toNat_sub_of_le (T.yesCount_le hsi), T.toNat_yesCount hsi, T.toNat_activeCount hsi, countP_isSome]
  omega

end

/-! ### Changes of the council -/

theorem Verdict.council {cfg : Config A} {env : Env A} {s s' : State A} {id : ProposalId}
    (h : Verdict cfg env s id s') :
    s'.council = s.council ∧ s'.proposalVotes = s.proposalVotes ∧
      ∀ p, s'.proposalStatus.get? p = some .deliberation → s.proposalStatus.get? p = some .deliberation := by
  cases h with
  | missing hpr => exact ⟨rfl, rfl, fun _ hp => hp⟩
  | vetoed | approved | enacted => exact ⟨rfl, rfl, fun _ hp => (get?_of_insert hp (by decide)).2⟩

section
variable [LinearOrder A] {cfg : Config A} {env : Env A} {s s' t : State A}
  {id : ProposalId}

def Reseats (s s' : State A) : Prop :=
  ∃ f, Seating s.council s'.council f ∧ ∀ id, s'.proposalStatus.get? id = some .deliberation →
    s.proposalStatus.get? id = some .deliberation ∧ s'.proposalVotes.get? id = (s.proposalVotes.get? id).map f

theorem Reseats.of_same (hco : s'.council = s.council) (h : ∀ id, s'.proposalStatus.get? id = some .deliberation →
      s.proposalStatus.get? id = some .deliberation ∧ s'.proposalVotes.get? id = s.proposalVotes.get? id) :
    Reseats s s' := by
  refine ⟨id, hco ▸ .same, fun p hp => ?_⟩
  rw [Option.map_id]
  exact h p hp

theorem Reseats.refl (s : State A) : Reseats s s := .of_same rfl fun _ h => ⟨h, rfl⟩

theorem addCouncilMember_reseats {m : A} (hso : s.council.Pairwise (· < ·))
    (h : addCouncilMember cfg env s m = .ok s') : Reseats s s' := by
  rcases (addCouncilMember_inv h).2 with rfl | ⟨idx, hidx, rfl⟩
  · exact .refl s'
  · exact ⟨_, .insert (Search.window_of_search hso hidx), fun _ hp => ⟨hp, get?_mapValues⟩⟩

theorem removeCouncilMember_reseats {m : A} (hso : s.council.Pairwise (· < ·))
    (h : removeCouncilMember s m = .ok s') : Reseats s s' := by
  rcases removeCouncilMember_inv h with rfl | ⟨idx, hidx, rfl⟩
  · exact .refl s'
  · exact ⟨_, .remove (Search.getElem?_of_search hso hidx), fun _ hp => ⟨hp, get?_mapValues⟩⟩

theorem cancelEnactment_reseats (h : cancelEnactment cfg s id = .ok s') : Reseats s s' := by
  obtain ⟨-, -, assets, rfl⟩ := cancelEnactment_inv h
  refine .of_same rfl fun p hp => ?_
  obtain ⟨hne, hp⟩ := get?_of_insert hp (by decide)
  exact ⟨hp, get?_remove_ne hne⟩

theorem Reseats.finish (h : Reseats s t) (sponsor : A) (ok : Bool) :
    Reseats s (finishEnactment cfg t id sponsor ok) := by
  obtain ⟨f, seating, hvo⟩ := h
  refine ⟨f, seating, fun p hp => ?_⟩
  exact hvo p (get?_of_insert hp (by simp)).2

theorem RootStep.reseats {call : RootCall A} {ids : List ProposalId} (hso : s.council.Pairwise (· < ·))
    (h : RootStep cfg env s call ids s') : Reseats s s' := by
  induction h with
  | add h => exact addCouncilMember_reseats hso h
  | remove h => exact removeCouncilMember_reseats hso h
  | cancel h => exact cancelEnactment_reseats h
  | set call bond councilStake voterStake threshold => exact .of_same rfl fun _ h => ⟨h, rfl⟩
  | undecoded id => exact .refl s
  | enactOther hpr run =>
    refine Reseats.finish ?_ _ _
    exact .of_same rfl fun _ h => ⟨h, rfl⟩
  | enactRoot hpr dispatched ih => exact ih.finish _ _
  | enactFailed hpr ids => exact (Reseats.refl s).finish _ _

theorem onInitialize_reseats (cfg : Config A) (env : Env A) (s : State A) : Reseats s (onInitialize cfg env s) := by
  rcases onInitialize_cases cfg env s with heq | heq <;> rw [heq]
  · exact .refl s
  · obtain ⟨hco, hvo, hst⟩ := endReferenda_invariant cfg env (s.referendumStartTime.iterBy cfg.startTimeOrder)
      (I := fun t => t.council = s.council ∧ t.proposalVotes = s.proposalVotes ∧
        ∀ p, t.proposalStatus.get? p = some .deliberation → s.proposalStatus.get? p = some .deliberation)
      (fun t id t' _ ht _ verdict => by
        obtain ⟨hco, hvo, hst⟩ := verdict.council
        exact ⟨hco.trans ht.1, hvo.trans ht.2.1, fun p hp => ht.2.2 p (hst p hp)⟩)
      ⟨rfl, rfl, fun _ hp => hp⟩
    exact .of_same hco fun p hp => ⟨hst p hp, by rw [hvo]⟩

theorem runScheduled_reseats (hso : s.council.Pairwise (· < ·)) (h : runScheduled cfg env s id = .ok s') :
    Reseats s s' := by
  rcases runScheduled_inv h with rfl | ⟨-, t, rfl | hs, rfl⟩
  · exact .refl s'
  · exact .of_same rfl fun _ hp => ⟨hp, rfl⟩
  · obtain ⟨f, seating, hvo⟩ := hs.reseats hso
    exact ⟨f, seating, hvo⟩

end

section
variable [LinearOrder A]

structure Recorded (A : Type) where
  state : State A
  cast : ProposalId → A → Option Bool

def ballots (s : State A) (cast : ProposalId → A → Option Bool) : Call A → ProposalId → A → Option Bool
  | .submitProposal o _ _ _ => fun id m =>
    if id = s.nextProposalId then if m = o then some true else none else cast id m
  | .voteOnProposal o proposalId vote => fun id m => if id = proposalId ∧ m = o then some vote else cast id m
  | _ => cast

def recordedStep (cfg : Config A) (r : Recorded A) (op : Op A) : Recorded A :=
  match perform cfg r.state op with
  | .ok s => ⟨s, fun id m => if m ∈ s.council then ballots r.state r.cast op.call id m else none⟩
  | .error _ => r

structure Seated (s : State A) (cast : ProposalId → A → Option Bool) : Prop where
  sorted : s.council.Pairwise (· < ·)
  size : s.council.length ≤ 128
  absent : ∀ {id m}, m ∉ s.council → cast id m = none
  tracks : ∀ {id}, s.proposalStatus.get? id = some .deliberation →
    ∃ v, s.proposalVotes.get? id = some v ∧ Tracks s.council v (cast id)

variable {cfg : Config A} {env : Env A} {s s' : State A} {o : A}
  {cast cast' : ProposalId → A → Option Bool}

theorem Seated.nodup (S : Seated s cast) : s.council.Nodup := S.sorted.imp fun h => ne_of_lt h

theorem Seated.index_lt (S : Seated s cast) {idx : Nat} (h : Search.binarySearch s.council o = .ok idx) : idx < 128 :=
  Nat.lt_of_lt_of_le (List.getElem?_eq_some_iff.mp (Search.getElem?_of_search S.sorted h)).1 S.size

theorem Seated.restrict (hso : s.council.Pairwise (· < ·)) (hsi : s.council.length ≤ 128)
    (htr : ∀ {id}, s.proposalStatus.get? id = some .deliberation →
      ∃ v, s.proposalVotes.get? id = some v ∧ Tracks s.council v (cast id)) :
    Seated s fun id m => if m ∈ s.council then cast id m else none where
  sorted := hso
  size := hsi
  absent hm := if_neg hm
  tracks hid := by
    obtain ⟨v, hv, T⟩ := htr hid
    exact ⟨v, hv, T.congr fun m hm => if_pos hm⟩

theorem Seated.reseat (S : Seated s cast) (h : Reseats s s') (hsi : s'.council.length ≤ 128) :
    Seated s' fun id m => if m ∈ s'.council then cast id m else none := by
  obtain ⟨f, seating, hvo⟩ := h
  refine .restrict (seating.sorted S.sorted) hsi fun {id} hid => ?_
  obtain ⟨hst, hget⟩ := hvo id hid
  obtain ⟨v, hv, T⟩ := S.tracks hst
  rw [hv] at hget
  exact ⟨f v, hget, T.seat seating S.size hsi fun _ hm => S.absent hm⟩

theorem Seated.submit (S : Seated s cast) {call uri : Bytes} {delay : BlockNumber}
    (h : submitProposal cfg env s o call uri delay = .ok s') :
    Seated s' fun id m => if m ∈ s'.council then
      ballots s cast (.submitProposal o call uri delay) id m else none := by
  obtain ⟨idx, p, assets, hidx, rfl⟩ := submitProposal_inv h
  refine .restrict S.sorted S.size fun {id} hid => ?_
  have hmb := Search.getElem?_of_search S.sorted hidx
  by_cases heq : id = s.nextProposalId
  · refine ⟨_, get?_insert.trans (if_pos heq), ?_⟩
    have T := (tracks_default s.council).recordVote S.size S.nodup hmb ProposalVoteInfo.voteAt_default true
    simpa only [ballots, heq, if_true] using T
  · obtain ⟨v, hv, T⟩ := S.tracks ((get?_insert_ne heq).symm.trans hid)
    refine ⟨v, (get?_insert_ne heq).trans hv, ?_⟩
    simpa only [ballots, heq, if_false] using T

theorem Seated.vote (S : Seated s cast) {id : ProposalId} {vote : Bool}
    (h : voteOnProposal cfg env s o id vote = .ok s') :
    Seated s' fun p m => if m ∈ s'.council then ballots s cast (.voteOnProposal o id vote) p m else none := by
  obtain ⟨idx, hidx, -, hn, decision⟩ := voteOnProposal_inv h
  have hmb := Search.getElem?_of_search S.sorted hidx
  rw [ProposalVoteInfo.getVote_eq_voteAt (S.index_lt hidx)] at hn
  -- what was being deliberated before is still tracked, with the new vote
  have hre : ∀ {p}, s.proposalStatus.get? p = some .deliberation →
      ∃ v, (s.proposalVotes.insert id (votesWith s id idx vote)).get? p = some v ∧
        Tracks s.council v (ballots s cast (.voteOnProposal o id vote) p) := by
    intro p hp
    obtain ⟨v, hv, T⟩ := S.tracks hp
    by_cases heq : p = id
    · subst heq
      unfold votesWith
      rw [getD_of_get? hv] at hn ⊢
      refine ⟨_, get?_insert_self, ?_⟩
      have T' := T.recordVote S.size S.nodup hmb hn vote
      simpa only [ballots, true_and] using T'
    · refine ⟨v, (get?_insert_ne heq).trans hv, ?_⟩
      simpa only [ballots, heq, false_and, if_false] using T
  -- a proposal that has been decided is not deliberated any more, and its votes may go
  have hde : ∀ {st : ProposalStatusInfo} {p}, st ≠ .deliberation →
      (s.proposalStatus.insert id st).get? p = some .deliberation →
      ∃ v, ((s.proposalVotes.insert id (votesWith s id idx vote)).remove id).get? p = some v ∧
        Tracks s.council v (ballots s cast (.voteOnProposal o id vote) p) := by
    intro st p hst hp
    obtain ⟨hne, hp⟩ := get?_of_insert hp hst
    obtain ⟨v, hv, T⟩ := hre hp
    exact ⟨v, (get?_remove_ne hne).trans hv, T⟩
  cases decision with
  | undecided => exact .restrict S.sorted S.size fun hp => hre hp
  | started events hca hc => exact .restrict S.sorted S.size fun hp => hde (by decide) hp
  | enacted hc =>
    exact .restrict S.sorted S.size fun hp => hre (get?_of_insert hp (by decide)).2
  | disapproved assets events => exact .restrict S.sorted S.size fun hp => hde (by decide) hp

def Small (cfg : Config A) (r : Recorded A) (op : Op A) : Prop :=
  (recordedStep cfg r op).state.council.length ≤ 128

theorem recordedStep_seated {r : Recorded A} {op : Op A} (hsm : Small cfg r op)
    (S : Seated r.state r.cast) : Seated (recordedStep cfg r op).state (recordedStep cfg r op).cast := by
  unfold Small at hsm
  unfold recordedStep at hsm ⊢
  cases hpe : perform cfg r.state op with
  | error e => exact S
  | ok s' =>
    rw [hpe] at hsm
    obtain ⟨env, call⟩ := op
    cases call with
    | submitProposal o call uri delay => exact S.submit hpe
    | voteOnProposal o id vote => exact S.vote hpe
    | voteAgainstReferendum o id =>
      obtain ⟨-, -, -, rfl⟩ := voteAgainstReferendum_inv hpe
      exact S.reseat (.of_same rfl fun _ hp => ⟨hp, rfl⟩) hsm
    | root call => exact S.reseat ((dispatchRoot_step hpe).reseats S.sorted) hsm
    | onInitialize =>
      cases hpe
      exact S.reseat (onInitialize_reseats cfg env r.state) hsm
    | runScheduled id => exact S.reseat (runScheduled_reseats S.sorted hpe) hsm
    | ledger assets =>
      cases hpe
      exact S.reseat (.of_same rfl fun _ hp => ⟨hp, rfl⟩) hsm

theorem genesis_seated (assets : GenericAsset.State A) : Seated (State.genesis assets) fun _ _ => none where
  sorted := List.Pairwise.nil
  size := Nat.zero_le _
  absent _ := rfl
  tracks h := by cases h

/-- In every run with a council of at most 128 members, it is sorted and free of duplicates, and the votes on a proposal
being deliberated are those that members cast as members: no other index has a vote, and the count is that of the
members. -/
theorem votes_belong_to_councillors (cfg : Config A) (assets : GenericAsset.State A) (ops : List (Op A))
    (hsmall : Steps.Each (recordedStep cfg) (Small cfg) ⟨State.genesis assets, fun _ _ => none⟩ ops) :
    let r := Steps.execute (recordedStep cfg) ⟨State.genesis assets, fun _ _ => none⟩ ops
    r.state.council.Pairwise (· < ·) ∧ r.state.council.Nodup ∧
      ∀ id, r.state.proposalStatus.get? id = some .deliberation →
        let votes := r.state.proposalVotes.getD id default
        (∀ (i : Nat) m, r.state.council[i]? = some m → votes.getVote (BitVec.ofNat 8 i) = r.cast id m) ∧
        (∀ i : BitVec 8, r.state.council.length ≤ i.toNat → votes.getVote i = none) ∧
        votes.yesCount.toNat ≤ votes.activeCount.toNat ∧
        votes.countVotes.yes.toNat = r.state.council.countP (r.cast id · = some true) ∧
        votes.countVotes.no.toNat = r.state.council.countP (r.cast id · = some false) := by
  intro r
  have S : Seated r.state r.cast :=
    hsmall.invariant (I := fun r => Seated r.state r.cast) (fun _ _ hop S => recordedStep_seated hop S)
      (genesis_seated assets)
  refine ⟨S.sorted, S.nodup, fun id hid => ?_⟩
  obtain ⟨v, hv, T⟩ := S.tracks hid
  simp only [getD_of_get? hv]
  refine ⟨fun i m hm => ?_, fun i hi => ?_, T.yesCount_le S.size, T.toNat_yesCount S.size, T.toNat_no S.size⟩
  · have hlt := (List.getElem?_eq_some_iff.mp hm).1
    rw [ProposalVoteInfo.getVote_eq_voteAt (Nat.lt_of_lt_of_le hlt S.size), T.member hm]
  · rcases Nat.lt_or_ge i.toNat 128 with hlow | hhi
    · have hvo := ProposalVoteInfo.getVote_eq_voteAt (v := v) hlow
      rw [BitVec.ofNat_toNat, BitVec.setWidth_eq] at hvo
      rw [hvo, T.beyond hi]
    · exact T.proper.getVote_of_le hhi

end

def shiftedVotes : List (Op Nat) := sampleOps
  [(1, .root (.addCouncilMember 1)), (1, .root (.addCouncilMember 3)), (2, .submitProposal 3 [] [] 10),
    (3, .root (.addCouncilMember 2)), (4, .voteOnProposal 1 0 false)]

instance (cfg : Config Nat) (r : Recorded Nat) (op : Op Nat) : Decidable (Small cfg r op) :=
  inferInstanceAs (Decidable (_ ≤ _))

theorem shiftedVotes_read :
    let r := Steps.execute (recordedStep sampleConfig) ⟨sampleGenesis, fun _ _ => none⟩ shiftedVotes
    r.state.council = [1, 2, 3] ∧ r.cast 0 3 = some true ∧
      (r.state.proposalVotes.getD 0 default).getVote 2 = r.cast 0 3 := by
  refine ⟨by decide +kernel, by decide +kernel, ?_⟩
  exact ((votes_belong_to_councillors sampleConfig (GenericAsset.State.genesis 17000) shiftedVotes
    (by decide +kernel)).2.2 0 (by decide +kernel)).1 2 3 (by decide +kernel)

end Governance
