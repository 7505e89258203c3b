import Cennznet.Lib.Run
import Cennznet.Theorems.EthBridge.Claims
import Mathlib.Data.Prod.Lex

/-! # One notary, one vote

A second vote on a call replaces the first, and adds to the count of its result. -/

namespace EthBridge

open StorageMap Steps List

/-! ### The order of results -/

namespace CheckedEthCallResult

def rank : CheckedEthCallResult → ℕ ×ₗ ℕ ×ₗ ℕ ×ₗ ℕ
  | .ok d b t => toLex (0, toLex (d.toNat, toLex (b.toNat, t.toNat)))
  | r => toLex (r.variant, toLex (0, toLex (0, 0)))

theorem lt_iff_rank {r r' : CheckedEthCallResult} : r.lt r' = true ↔ r.rank < r'.rank := by
  cases r <;> cases r' <;> simp [lt, rank, variant, Prod.Lex.toLex_lt_toLex, ← BitVec.toNat_inj]

theorem rank_injective : Function.Injective rank := by
  intro r r' h
  cases r <;> cases r' <;> simp_all [rank, variant, BitVec.toNat_inj]

end CheckedEthCallResult

section
variable {res r : CheckedEthCallResult} {l : List (CheckedEthCallResult × BitVec 32)}

def Ordered (l : List (CheckedEthCallResult × BitVec 32)) : Prop := l.Pairwise fun a b => a.1.rank < b.1.rank

theorem mem_increment {e : CheckedEthCallResult × BitVec 32} (h : e ∈ increment res l) : e.1 = res ∨ e ∈ l := by
  induction l with
  | nil => exact Or.inl (congrArg Prod.fst (mem_singleton.mp h))
  | cons head rest ih =>
    unfold increment at h
    split at h
    · rename_i hhe
      rcases mem_cons.mp h with rfl | hin
      · exact Or.inl hhe.symm
      · exact Or.inr (mem_cons_of_mem _ hin)
    · split at h
      · rcases mem_cons.mp h with rfl | hin
        · exact Or.inl rfl
        · exact Or.inr hin
      · rcases mem_cons.mp h with rfl | hin
        · exact Or.inr mem_cons_self
        · exact (ih hin).imp_right (mem_cons_of_mem _)

theorem increment_ordered (h : Ordered l) : Ordered (increment res l) := by
  induction l with
  | nil => exact pairwise_singleton _ _
  | cons head rest ih =>
    obtain ⟨hhe, hr⟩ := pairwise_cons.mp h
    unfold increment
    split
    · exact pairwise_cons.mpr ⟨hhe, hr⟩
    · rename_i hne
      split
      · rename_i hlt
        rw [CheckedEthCallResult.lt_iff_rank] at hlt
        refine pairwise_cons.mpr ⟨fun e he => ?_, h⟩
        rcases mem_cons.mp he with rfl | he
        · exact hlt
        · exact hlt.trans (hhe e he)
      · rename_i hle
        rw [CheckedEthCallResult.lt_iff_rank, not_lt] at hle
        have hlt : head.1.rank < res.rank :=
          lt_of_le_of_ne hle fun heq => hne (CheckedEthCallResult.rank_injective heq).symm
        refine pairwise_cons.mpr ⟨fun e he => ?_, ih hr⟩
        rcases mem_increment he with heq | he
        · rw [heq]
          exact hlt
        · exact hhe e he

def countOf (l : List (CheckedEthCallResult × BitVec 32)) (r : CheckedEthCallResult) : BitVec 32 := (l.lookup r).getD 0

theorem countOf_cons {head : CheckedEthCallResult × BitVec 32} :
    countOf (head :: l) r = if r = head.1 then head.2 else countOf l r := by
  unfold countOf
  rw [lookup_cons]
  by_cases h : r = head.1
  · rw [if_pos h, beq_iff_eq.mpr h]
    rfl
  · rw [if_neg h, beq_eq_false_iff_ne.mpr h]

theorem countOf_eq_zero (h : ∀ e ∈ l, e.1 ≠ r) : countOf l r = 0 := by
  induction l with
  | nil => rfl
  | cons head rest ih =>
    rw [countOf_cons, if_neg (h head mem_cons_self).symm]
    exact ih fun e he => h e (mem_cons_of_mem _ he)

theorem mem_of_countOf_ne_zero (h : countOf l r ≠ 0) : (r, countOf l r) ∈ l := by
  induction l with
  | nil => exact absurd rfl h
  | cons head rest ih =>
    rw [countOf_cons] at h ⊢
    split_ifs at h with hr
    · rw [if_pos hr, hr]
      exact mem_cons_self
    · rw [if_neg hr]
      exact mem_cons_of_mem _ (ih h)

theorem countOf_increment (h : Ordered l) :
    countOf (increment res l) r = if r = res then countOf l res + 1 else countOf l r := by
  induction l with
  | nil => exact countOf_cons
  | cons head rest ih =>
    obtain ⟨hhe, hre⟩ := pairwise_cons.mp h
    unfold increment
    split
    · rename_i heq
      rw [countOf_cons, countOf_cons, countOf_cons, if_pos heq, heq]
      split <;> rfl
    · rename_i hne
      split
      · -- the result is below every result that has a count
        rename_i hlt
        rw [CheckedEthCallResult.lt_iff_rank] at hlt
        have hn : countOf (head :: rest) res = 0 := by
          refine countOf_eq_zero fun e he heq => ?_
          rcases mem_cons.mp he with rfl | he
          · exact hne heq.symm
          · have := hlt.trans (hhe e he)
            rw [heq] at this
            exact lt_irrefl _ this
        rw [countOf_cons, hn]
        rfl
      · rw [countOf_cons, ih hre, countOf_cons, countOf_cons, if_neg hne]
        by_cases hr : r = res
        · rw [if_pos hr, if_pos hr, if_neg fun hhe => hne (hr.symm.trans hhe)]
        · rw [if_neg hr, if_neg hr]

end

section
variable {K A : Type}

structure CallVotes (K : Type) where
  votes : StorageMap (EthCallId × K) CheckedEthCallResult
  counts : StorageMap EthCallId (List (CheckedEthCallResult × BitVec 32))

namespace CallVotes

def votesFor (v : CallVotes K) (cid : EthCallId) (r : CheckedEthCallResult) : Nat :=
  (v.votes.iterPrefix cid).countP fun vote => vote.2 = r

def tallied (v : CallVotes K) (cid : EthCallId) (r : CheckedEthCallResult) : Nat :=
  (countOf (v.counts.getD cid []) r).toNat

structure Counted (v : CallVotes K) : Prop where
  ordered : ∀ cid, Ordered (v.counts.getD cid [])
  room : ∀ cid, ∀ e ∈ v.counts.getD cid [], e.2.toNat + 1 < 2 ^ 32
  counts : ∀ cid r, v.tallied cid r = v.votesFor cid r

theorem Counted.countOf_room {v : CallVotes K} (h : v.Counted) (cid : EthCallId) (r : CheckedEthCallResult) :
    (countOf (v.counts.getD cid []) r).toNat + 1 < 2 ^ 32 := by
  by_cases hz : countOf (v.counts.getD cid []) r = 0
  · rw [hz]
    decide
  · exact h.room cid _ (mem_of_countOf_ne_zero hz)

variable [DecidableEq K]

def record (v : CallVotes K) (cid : EthCallId) (nt : K) (res : CheckedEthCallResult) : CallVotes K :=
  ⟨v.votes.insert (cid, nt) res, v.counts.insert cid (increment res (v.counts.getD cid []))⟩

def forget (v : CallVotes K) (cid : EthCallId) (nt : K) (res : CheckedEthCallResult) : CallVotes K :=
  ⟨(v.votes.insert (cid, nt) res).removePrefix cid, v.counts.remove cid⟩

end CallVotes

def State.callVotes (s : State K A) : CallVotes K where
  votes := s.ethCallNotarizations
  counts := s.ethCallNotarizationsAggregated

variable {cfg : Config} {env : Env A} {s s' : State K A}

theorem genesis_counted (keys : List K) (dl : Seconds) : (State.genesis keys dl : State K A).callVotes.Counted :=
  ⟨fun _ => List.Pairwise.nil, fun _ _ he => absurd he not_mem_nil, fun _ _ => rfl⟩

theorem SigningOnly.callVotes (h : SigningOnly s s') : s'.callVotes = s.callVotes := by
  unfold SigningOnly at h
  have hvi := congrArg State.callVotes h
  exact hvi

theorem ClaimsOnly.callVotes (h : ClaimsOnly s s') : s'.callVotes = s.callVotes := by
  unfold ClaimsOnly at h
  have hvi := congrArg State.callVotes h
  exact hvi

variable [DecidableEq K]

theorem dispatch_callVotes {call : Call K} (h : dispatch cfg env s call = .ok s')
    (hc : ∀ cid i res, call ≠ .submitNotarization (.call cid i res)) :
    s'.callVotes = s.callVotes := by
  cases call with
  | onInitialize bn =>
    rcases onInitialize_inv h with ⟨bk, -, -, rfl⟩ | rfl
    · exact (processDelayedProofs_signingOnly cfg (pruneBucket s bk)).callVotes
    · exact (processDelayedProofs_signingOnly cfg s).callVotes
  | setEventConfirmations | setEventDeadline | setDelayedEventProofsPerBlock | checkedEthCall =>
    cases h
    rfl
  | submitNotarization pl =>
    obtain ⟨nt, -, t, ht, rfl⟩ := submitNotarization_eq_ok.mp h
    cases pl with
    | call cid i res => exact absurd rfl (hc cid i res)
    | event id i res =>
      obtain ⟨tx, ty, -, hde⟩ := handleEventNotarization_inv ht
      have hk := (decideClaim_claimsOnly hde).callVotes
      exact hk
  | submitEventClaim con sig tx data =>
    obtain ⟨r, hsu, rfl⟩ := Result.map_eq_ok.mp h
    exact (submitEventClaim_claimsOnly hsu).callVotes
  | generateEventProof event =>
    cases h
    exact (generateEventProof_signingOnly s event).callVotes
  | onNewSession vs queued =>
    cases h
    exact (onNewSession_signingOnly env s vs queued).callVotes
  | onBeforeSessionEnding =>
    cases h
    exact (onBeforeSessionEnding_signingOnly env s).callVotes

theorem handleCallNotarization_callVotes {cid : EthCallId} {res : CheckedEthCallResult} {nt : K}
    (h : handleCallNotarization cfg env s cid res nt = .ok s') :
    s'.callVotes = s.callVotes.forget cid nt res ∨
    (∀ e ∈ s.callTally cid res, consensus cfg e.2 (BitVec.ofNat 32 env.validators.length) = false) ∧
      s'.callVotes = s.callVotes.record cid nt res := by
  obtain ⟨-, ⟨_, _, -, rfl⟩ | ⟨-, rfl⟩ | ⟨hn, rfl⟩⟩ := handleCallNotarization_cases h
  · exact .inl rfl
  · exact .inl rfl
  · exact .inr ⟨fun e he => Bool.eq_false_iff.mpr (find?_eq_none.mp hn e he), rfl⟩

/-! ### The counts are right -/

namespace CallVotes

variable {v : CallVotes K} {cid : EthCallId} {res : CheckedEthCallResult} {nt : K}

theorem Counted.record (h : v.Counted) (hfr : v.votes.get? (cid, nt) = none)
    (hrm : ∀ e ∈ increment res (v.counts.getD cid []), e.2.toNat + 1 < 2 ^ 32) :
    (v.record cid nt res).Counted := by
  have hco (id : EthCallId) : (v.record cid nt res).counts.getD id [] =
      if id = cid then increment res (v.counts.getD cid []) else v.counts.getD id [] := getD_insert
  refine ⟨fun id => ?_, fun id => ?_, fun id r => ?_⟩
  · rw [hco]
    split
    · exact increment_ordered (h.ordered cid)
    · exact h.ordered id
  · rw [hco]
    split
    · exact hrm
    · exact h.room id
  · unfold tallied votesFor
    rw [hco]
    by_cases hid : id = cid
    · subst hid
      have hone : (countOf (v.counts.getD id []) res + 1).toNat = (countOf (v.counts.getD id []) res).toNat + 1 :=
        BitVec.toNat_add_of_lt (h.countOf_room id res)
      rw [if_pos rfl, countOf_increment (h.ordered id)]
      unfold CallVotes.record
      rw [iterPrefix_insert_of_none hfr, countP_cons]
      have hold := h.counts id r
      unfold tallied votesFor at hold
      by_cases hr : r = res
      · subst hr
        rw [if_pos rfl, if_pos (decide_eq_true rfl), hone, hold]
      · rw [if_neg hr, if_neg (by simpa using Ne.symm hr), hold]
        rfl
    · have hvo := countP_iterPrefix_insert_ne (m := v.votes) (b := nt) (v := res) (p := fun x => decide (x = r)) hid
      rw [if_neg hid]
      unfold CallVotes.record
      rw [hvo]
      exact h.counts id r

theorem Counted.forget (h : v.Counted) : (v.forget cid nt res).Counted := by
  have hco (id : EthCallId) : (v.forget cid nt res).counts.getD id [] =
      if id = cid then [] else v.counts.getD id [] := getD_remove
  refine ⟨fun id => ?_, fun id => ?_, fun id r => ?_⟩
  · rw [hco]
    split
    · exact List.Pairwise.nil
    · exact h.ordered id
  · rw [hco]
    split
    · exact fun e he => absurd he not_mem_nil
    · exact h.room id
  · unfold tallied votesFor
    rw [hco]
    unfold CallVotes.forget
    rw [iterPrefix_removePrefix]
    by_cases hid : id = cid
    · rw [if_pos hid, if_pos hid]
      rfl
    · have hvo := countP_iterPrefix_insert_ne (m := v.votes) (b := nt) (v := res) (p := fun x => decide (x = r)) hid
      rw [if_neg hid, if_neg hid, hvo]
      exact h.counts id r

end CallVotes

end

section
variable {K A Sig : Type} [DecidableEq K]

/-- In every open call the count of each result is the number of notaries whose vote it is. -/
def VotesCounted (s : State K A) : Prop :=
  ∀ cid, s.ethCallRequestInfo.contains cid = true → ∀ r, s.callVotes.tallied cid r = s.callVotes.votesFor cid r

def recorded (s : State K A) (nt : K) : NotarizationPayload → Bool
  | .call cid _ _ => s.ethCallNotarizations.contains (cid, nt)
  | .event eventClaimId _ _ => s.eventNotarizations.contains (eventClaimId, nt)

/-- A correctly signed vote of an active notary is refused exactly if it has a recorded vote of the same kind for the
same id. -/
def RefusesSecond (verify : K → NotarizationPayload → Sig → Bool) (s : State K A) : Extrinsic K A Sig → Prop
  | .unsigned _ pl sig =>
    ∀ nt, s.notaryKeys[pl.authorityIndex.toNat]? = some nt → verify nt pl sig = true →
      (validateUnsigned verify s (.submitNotarization pl) sig = .error .badProof ↔ recorded s nt pl = true)
  | .other _ => True

/-- A correctly signed vote on a call finds a vote of the notary on the event claim of the same id exactly if it finds
one on the call. -/
def KindsAgree (verify : K → NotarizationPayload → Sig → Bool) (s : State K A) : Extrinsic K A Sig → Prop
  | .unsigned _ (.call cid i res) sig =>
    ∀ nt, s.notaryKeys[i.toNat]? = some nt → verify nt (.call cid i res) sig = true →
      s.eventNotarizations.contains (cid, nt) = s.ethCallNotarizations.contains (cid, nt)
  | _ => True

/-- As many notaries as there are, or more, are a consensus: `from_rational` is the whole there. -/
def WholeAgrees (cfg : Config) : Prop := ∀ p q, 0 < p → q ≤ p → cfg.notarizationThreshold ≤ cfg.fromRational p q

variable {cfg : Config} {verify : K → NotarizationPayload → Sig → Bool} {s : State K A}
  {pl : NotarizationPayload} {sig : Sig} {nt : K}

theorem validateUnsigned_error_iff (hac : s.notaryKeys[pl.authorityIndex.toNat]? = some nt)
    (hsi : verify nt pl sig = true) :
    validateUnsigned verify s (.submitNotarization pl) sig = .error .badProof ↔
      s.eventNotarizations.contains (pl.payloadId, nt) = true := by
  unfold validateUnsigned
  simp only [hac, hsi]
  split <;> simp_all

theorem validateUnsigned_ok {valid : ValidTransaction}
    (h : validateUnsigned verify s (.submitNotarization pl) sig = .ok valid) :
    ∃ nt, s.notaryKeys[pl.authorityIndex.toNat]? = some nt ∧ verify nt pl sig = true ∧
      s.eventNotarizations.contains (pl.payloadId, nt) = false := by
  unfold validateUnsigned at h
  dsimp only at h
  split at h
  · cases h
  rename_i nt hac
  split at h
  · cases h
  rename_i hfr
  split at h
  · cases h
  rename_i hsi
  exact ⟨nt, hac, not_not.mp hsi, Bool.eq_false_iff.mpr hfr⟩

theorem refusesSecond_iff {x : Extrinsic K A Sig} : RefusesSecond verify s x ↔ KindsAgree verify s x := by
  cases x with
  | other op => exact Iff.rfl
  | unsigned env pl sig =>
    cases pl with
    | event id i res =>
      refine iff_of_true (fun nt hac hsi => ?_) trivial
      exact validateUnsigned_error_iff hac hsi
    | call cid i res =>
      refine forall_congr' fun nt => forall_congr' fun hac => forall_congr' fun hsi => ?_
      rw [validateUnsigned_error_iff hac hsi]
      exact Bool.eq_iff_iff.symm

theorem tally_room (hcfg : WholeAgrees cfg) {env : Env A} {e : CheckedEthCallResult × BitVec 32}
    (h : consensus cfg e.2 (BitVec.ofNat 32 env.validators.length) = false) : e.2.toNat + 1 < 2 ^ 32 := by
  have hlt := (BitVec.ofNat 32 env.validators.length).isLt
  unfold consensus at h
  rw [decide_eq_false_iff_not] at h
  by_contra hfu
  exact h (hcfg _ _ (by omega) (by omega))

theorem callVote_counted (hcfg : WholeAgrees cfg) {env : Env A} {cid : EthCallId} {i : BitVec 16}
    {res : CheckedEthCallResult} (hac : s.notaryKeys[i.toNat]? = some nt)
    (hfr : s.ethCallNotarizations.get? (cid, nt) = none) (h : s.callVotes.Counted) :
    (step cfg s ⟨env, .submitNotarization (.call cid i res)⟩).callVotes.Counted := by
  unfold step
  split
  · rename_i s' hdi
    obtain ⟨nt', hac', t, ht, rfl⟩ := submitNotarization_eq_ok.mp hdi
    obtain rfl : nt' = nt := Option.some_inj.mp (hac'.symm.trans hac)
    have hvo := handleCallNotarization_callVotes ht
    show t.callVotes.Counted
    rcases hvo with hfo | ⟨hopn, hre⟩
    · rw [hfo]
      exact h.forget
    · rw [hre]
      exact h.record hfr fun e he => tally_room hcfg (hopn e he)
  · exact h

theorem step_callVotes {op : Op K A} (hc : ∀ cid i res, op.call ≠ .submitNotarization (.call cid i res)) :
    (step cfg s op).callVotes = s.callVotes := by
  unfold step
  split
  · rename_i s' hdi
    exact dispatch_callVotes hdi hc
  · rfl

theorem applyExtrinsic_counted (hcfg : WholeAgrees cfg) (x : Extrinsic K A Sig)
    (hx : KindsAgree verify s x) (h : s.callVotes.Counted) : (applyExtrinsic cfg verify s x).callVotes.Counted := by
  cases x with
  | other op =>
    unfold applyExtrinsic
    dsimp only
    split
    · exact h
    · rename_i hno
      rw [step_callVotes fun cid i res heq => hno _ heq]
      exact h
  | unsigned env pl sig =>
    unfold applyExtrinsic
    dsimp only
    split
    · rename_i valid hva
      obtain ⟨nt, hac, hsi, hfr⟩ := validateUnsigned_ok hva
      cases pl with
      | event id i res =>
        rw [step_callVotes fun cid i res heq => by cases heq]
        exact h
      | call cid i res =>
        have hae := hx nt hac hsi
        exact callVote_counted hcfg hac (not_contains_iff.mp (hae.symm.trans hfr)) h
    · exact h

/-- Second votes, and no others, are refused and the counts are right throughout a run, exactly if at each vote on a
call the two kinds of votes agree. -/
theorem one_vote_iff (cfg : Config) (verify : K → NotarizationPayload → Sig → Bool) (notaryKeys : List K)
    (deadline : Seconds) (xs : List (Extrinsic K A Sig)) (hcfg : WholeAgrees cfg) :
    (Each (applyExtrinsic cfg verify) (RefusesSecond verify) (State.genesis notaryKeys deadline) xs ∧
      ∀ done, done <+: xs →
        VotesCounted (execute (applyExtrinsic cfg verify) (State.genesis notaryKeys deadline) done)) ↔
    Each (applyExtrinsic cfg verify) (KindsAgree verify) (State.genesis notaryKeys deadline) xs := by
  rw [each_congr fun _ _ => refusesSecond_iff]
  refine and_iff_left_of_imp fun hrun done hdo cid _ r => ?_
  exact (hrun.throughout (fun _ => applyExtrinsic_counted hcfg) (genesis_counted notaryKeys deadline) hdo).counts cid r

end

theorem runtimeConfig_wholeAgrees : WholeAgrees runtimeConfig := by
  intro p q hp hq
  have hmax : min p (max q 1) = max q 1 := by omega
  show (66 : Nat) ≤ 100 * min p (max q 1) / max q 1
  rw [hmax, Nat.mul_div_cancel _ (by omega)]
  decide

def fiveNotaries : State Nat Nat := State.genesis [11, 12, 13, 14, 15]

def signedCorrectly (_ : Nat) (_ : NotarizationPayload) (_ : Unit) : Bool := true

def vote (pl : NotarizationPayload) : Extrinsic Nat Nat Unit :=
  .unsigned { now := 100, validators := [1, 2, 3, 4, 5] } pl ()

def ask (call : Call Nat) : Extrinsic Nat Nat Unit := .other (plainOp 100 [1, 2, 3, 4, 5] call)

def threeVotes : List (Extrinsic Nat Nat Unit) := [
  ask (.checkedEthCall 1 [] 90 10 3),
  ask (.submitEventClaim 1 2 3 []),
  vote (.call 0 0 (.ok 1 10 50)),
  vote (.event 0 1 .valid),
  vote (.call 0 2 (.ok 1 10 50))]

theorem three_votes_counted :
    Each (applyExtrinsic runtimeConfig signedCorrectly) (RefusesSecond signedCorrectly) fiveNotaries threeVotes ∧
    ∀ done, done <+: threeVotes →
      VotesCounted (execute (applyExtrinsic runtimeConfig signedCorrectly) fiveNotaries done) := by
  refine (one_vote_iff runtimeConfig signedCorrectly _ _ threeVotes runtimeConfig_wholeAgrees).mpr
    ⟨trivial, trivial, fun nt h _ => ?_, trivial, fun nt h _ => ?_, trivial⟩
  · obtain rfl : 11 = nt := Option.some_inj.mp h
    decide
  · obtain rfl : 13 = nt := Option.some_inj.mp h
    decide

def votesTwice : List (Extrinsic Nat Nat Unit) :=
  [ask (.checkedEthCall 1 [] 90 10 3), vote (.call 0 0 (.ok 1 10 50)), vote (.call 0 0 (.ok 1 10 50))]

theorem second_vote_counted :
    ¬Each (applyExtrinsic runtimeConfig signedCorrectly) (RefusesSecond signedCorrectly) fiveNotaries votesTwice ∧
    ∃ s, execute (applyExtrinsic runtimeConfig signedCorrectly) fiveNotaries votesTwice = s ∧
      s.callVotes.tallied 0 (.ok 1 10 50) = 2 ∧ s.callVotes.votesFor 0 (.ok 1 10 50) = 1 ∧ ¬VotesCounted s := by
  refine ⟨fun h => ?_, _, rfl, by decide, by decide, fun h => ?_⟩
  · have hae := refusesSecond_iff.mp h.2.2.1
    exact absurd (hae 11 rfl rfl) (by decide)
  · exact absurd (h 0 (by decide) (.ok 1 10 50)) (by decide)

end EthBridge
