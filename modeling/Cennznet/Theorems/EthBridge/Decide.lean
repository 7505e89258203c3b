import Cennznet.Lib.Run
import Cennznet.Theorems.EthBridge.Claims
import Mathlib.Data.List.Induction

/-! # Deciding an event claim

Both percentages are rounded down, so some tallies neither reject nor accept. -/

namespace EthBridge

open StorageMap Steps List

variable {K A : Type}

structure Vote (K A : Type) where
  env : Env A
  notary : K
  result : EventClaimResult

def castVote [DecidableEq K] (cfg : Config) (id : EventClaimId) (s : State K A) (v : Vote K A) : State K A :=
  match handleEventNotarization cfg v.env s id v.result v.notary with
  | .ok s => s
  | .error _ => s

def yays (votes : List (Vote K A)) : Nat := votes.countP fun v => v.result = .valid

def nays (votes : List (Vote K A)) : Nat := votes.countP fun v => v.result ≠ .valid

def Decided (s : State K A) (id : EventClaimId) (tx : EthHash) : Prop :=
  s.eventClaims.get? id = none ∧ s.pendingTxHashes.get? tx = none

structure Ballot (n : Nat) (votes : List (Vote K A)) : Prop where
  size : votes.length = n
  some : 0 < n
  word : n < 2 ^ 32
  validators : ∀ v ∈ votes, v.env.validators.length = n
  distinct : (votes.map Vote.notary).Nodup

def RoundsDown (cfg : Config) : Prop :=
  ∀ p n, 0 < n → p ≤ n → (cfg.fromRational p n).val = 100 * p / n

section
variable {cfg : Config} {n k : Nat}

theorem rejects_iff (hcfg : RoundsDown cfg) (hn : 0 < n) (hwo : n < 2 ^ 32) (hk : k ≤ n) :
    rejects cfg (BitVec.ofNat 32 k) (BitVec.ofNat 32 n) = true ↔ 100 - cfg.notarizationThreshold.val < 100 * k / n := by
  unfold rejects
  rw [BitVec.toNat_ofNat, BitVec.toNat_ofNat, Nat.mod_eq_of_lt hwo, Nat.mod_eq_of_lt (by omega),
    hcfg k n hn hk, decide_eq_true_iff]

theorem accepts_iff (hcfg : RoundsDown cfg) (hn : 0 < n) (hwo : n < 2 ^ 32) (hk : k ≤ n) :
    accepts cfg (BitVec.ofNat 32 k) (BitVec.ofNat 32 n) = true ↔ cfg.notarizationThreshold.val ≤ 100 * k / n := by
  unfold accepts
  rw [BitVec.toNat_ofNat, BitVec.toNat_ofNat, Nat.mod_eq_of_lt hwo, Nat.mod_eq_of_lt (by omega),
    decide_eq_true_iff, Fin.le_def, hcfg k n hn hk]

theorem not_rejects_and_accepts (hcfg : RoundsDown cfg) (hn : 0 < n) (hwo : n < 2 ^ 32) {y : Nat} (hyk : y + k ≤ n) :
    ¬(rejects cfg (BitVec.ofNat 32 k) (BitVec.ofNat 32 n) = true ∧
      accepts cfg (BitVec.ofNat 32 y) (BitVec.ofNat 32 n) = true) := by
  rw [rejects_iff hcfg hn hwo (by omega), accepts_iff hcfg hn hwo (by omega)]
  rintro ⟨hre, hac⟩
  have hT : cfg.notarizationThreshold.val ≤ 100 := Nat.le_of_lt_succ cfg.notarizationThreshold.isLt
  have h₁ := (Nat.le_div_iff_mul_le hn).mp hre
  have h₂ := (Percent.le_share_iff hn).mp hac
  have hsum : (100 - cfg.notarizationThreshold.val).succ * n + cfg.notarizationThreshold.val * n = 101 * n := by
    rw [← Nat.add_mul]
    congr 1
    omega
  omega

end

theorem yays_append (done rest : List (Vote K A)) : yays (done ++ rest) = yays done + yays rest :=
  countP_append

theorem nays_append (done rest : List (Vote K A)) : nays (done ++ rest) = nays done + nays rest :=
  countP_append

theorem yays_add_nays (votes : List (Vote K A)) : yays votes + nays votes = votes.length := by
  have h := length_eq_countP_add_countP (fun v : Vote K A => decide (v.result = .valid)) (l := votes)
  unfold yays nays
  simp only [decide_not, Bool.not_eq_true, decide_eq_false_iff_not] at h ⊢
  exact h.symm

section
variable {cfg : Config} {env : Env A} {n : Nat} {dl : Seconds} {id : EventClaimId} {tx : EthHash}
  {ty : EventTypeId} {s t : State K A} {votes done rest : List (Vote K A)}
  {v : Vote K A}

/-! ### Decisive votes -/

def Decisive (cfg : Config) (n : Nat) (dl : Seconds) (done : List (Vote K A)) : Prop :=
  rejects cfg (BitVec.ofNat 32 (nays done)) (BitVec.ofNat 32 n) = true ∨
    (dl ≠ 0 ∧ accepts cfg (BitVec.ofNat 32 (yays done)) (BitVec.ofNat 32 n) = true)

theorem Decisive.mono (hcfg : RoundsDown cfg) (hwo : n < 2 ^ 32) (hn : 0 < n) (hle : (done ++ rest).length ≤ n)
    (h : Decisive cfg n dl done) : Decisive cfg n dl (done ++ rest) := by
  have hlen := yays_add_nays (done ++ rest)
  have hy := yays_append done rest
  have hm := nays_append done rest
  unfold Decisive at h ⊢
  rw [rejects_iff hcfg hn hwo (by omega), accepts_iff hcfg hn hwo (by omega)] at h ⊢
  rcases h with h | ⟨hd, h⟩
  · exact Or.inl (h.trans_le (Nat.div_le_div_right (by omega)))
  · exact Or.inr ⟨hd, h.trans (Nat.div_le_div_right (by omega))⟩

/-! ### One vote -/

theorem decideClaim_rejects (tx : EthHash) (ty : EventTypeId) {d : Bytes} (hda : t.eventData.get? id = some d)
    (h : rejects cfg (nayCount t id) (BitVec.ofNat 32 env.validators.length) = true) :
    ∃ t', decideClaim cfg env t id tx ty = .ok t' ∧ Decided t' id tx := by
  unfold decideClaim
  rw [hda]
  exact ⟨_, if_pos h, get?_remove_self, get?_remove_self⟩

section
variable {d : Bytes} (hda : t.eventData.get? id = some d)
  (hr : rejects cfg (nayCount t id) (BitVec.ofNat 32 env.validators.length) = false)
  (ha : accepts cfg (yayCount t id) (BitVec.ofNat 32 env.validators.length) = true)
include hda hr ha

theorem decideClaim_accepts (tx : EthHash) (ty : EventTypeId) (hde : t.eventDeadlineSeconds ≠ 0) :
    ∃ t', decideClaim cfg env t id tx ty = .ok t' ∧ Decided t' id tx := by
  unfold decideClaim verifiedBucketIndex
  rw [hda, if_neg hde]
  exact ⟨_, (if_neg (Bool.eq_false_iff.mp hr)).trans (if_pos ha), get?_remove_self, get?_remove_self⟩

theorem decideClaim_aborts (hde : t.eventDeadlineSeconds = 0) :
    decideClaim cfg env t id tx ty = .error .divisionByZero := by
  unfold decideClaim verifiedBucketIndex
  rw [hda, if_pos hde]
  exact (if_neg (Bool.eq_false_iff.mp hr)).trans (if_pos ha)

end

theorem decideClaim_open (hr : rejects cfg (nayCount t id) (BitVec.ofNat 32 env.validators.length) = false)
    (ha : accepts cfg (yayCount t id) (BitVec.ofNat 32 env.validators.length) = false) :
    decideClaim cfg env t id tx ty = .ok t := by
  unfold decideClaim
  exact (if_neg (Bool.eq_false_iff.mp hr)).trans (if_neg (Bool.eq_false_iff.mp ha))

variable [DecidableEq K]

theorem handleEventNotarization_eq (h : t.eventClaims.get? id = some (tx, ty)) (nt : K) (r : EventClaimResult) :
    handleEventNotarization cfg env t id r nt =
      decideClaim cfg env (t.withVote id nt r) id tx ty := by
  unfold handleEventNotarization
  rw [h]
  rfl

theorem castVote_of_decided (h : Decided t id tx) : castVote cfg id t v = t := by
  unfold castVote handleEventNotarization
  rw [h.1]

/-! ### A ballot -/

/-- The claim is open and holds the votes `done`, except those in favour at which a deadline of zero made the handler
abort. -/
structure OpenWith (cfg : Config) (n : Nat) (dl : Seconds) (id : EventClaimId) (tx : EthHash)
    (ty : EventTypeId) (done : List (Vote K A)) (t : State K A) : Prop where
  claim : t.eventClaims.get? id = some (tx, ty)
  data : ∃ d, t.eventData.get? id = some d
  fixed : t.eventDeadlineSeconds = dl
  voters : ∀ k r, t.eventNotarizations.get? (id, k) = some r → k ∈ done.map Vote.notary
  against : nayCount t id = BitVec.ofNat 32 (nays done)
  inFavour : dl ≠ 0 → yayCount t id = BitVec.ofNat 32 (yays done)
  notRejected : rejects cfg (nayCount t id) (BitVec.ofNat 32 n) = false
  notAccepted : accepts cfg (yayCount t id) (BitVec.ofNat 32 n) = false

theorem nayCount_withVote (hnew : t.eventNotarizations.get? (id, v.notary) = none) :
    nayCount (t.withVote id v.notary v.result) id = nayCount t id + BitVec.ofNat 32 (nays [v]) := by
  unfold nayCount State.withVote nays
  rw [iterPrefix_insert_of_none hnew, ← BitVec.ofNat_add]
  congr 1
  by_cases h : v.result = .valid <;> simp [h]

theorem yayCount_withVote (hnew : t.eventNotarizations.get? (id, v.notary) = none) :
    yayCount (t.withVote id v.notary v.result) id = yayCount t id + BitVec.ofNat 32 (yays [v]) := by
  unfold yayCount State.withVote yays
  rw [iterPrefix_insert_of_none hnew, ← BitVec.ofNat_add]
  congr 1
  by_cases h : v.result = .valid <;> simp [h]

theorem OpenWith.cast (O : OpenWith cfg n dl id tx ty done t) (hn : v.env.validators.length = n)
    (hnew : v.notary ∉ done.map Vote.notary) :
    OpenWith cfg n dl id tx ty (done ++ [v]) (castVote cfg id t v) ∨
      (Decided (castVote cfg id t v) id tx ∧ Decisive cfg n dl (done ++ [v])) := by
  have hfr : t.eventNotarizations.get? (id, v.notary) = none := by
    cases h : t.eventNotarizations.get? (id, v.notary) with
    | none => rfl
    | some r => exact absurd (O.voters v.notary r h) hnew
  have hna : nayCount (t.withVote id v.notary v.result) id = BitVec.ofNat 32 (nays (done ++ [v])) := by
    rw [nayCount_withVote hfr, O.against, nays_append, BitVec.ofNat_add]
  have hya : dl ≠ 0 → yayCount (t.withVote id v.notary v.result) id = BitVec.ofNat 32 (yays (done ++ [v])) := by
    intro hd
    rw [yayCount_withVote hfr, O.inFavour hd, yays_append, BitVec.ofNat_add]
  obtain ⟨d, hda⟩ : ∃ d, (t.withVote id v.notary v.result).eventData.get? id = some d := O.data
  unfold castVote
  rw [handleEventNotarization_eq O.claim]
  subst hn
  cases hr : rejects cfg (nayCount (t.withVote id v.notary v.result) id) (BitVec.ofNat 32 v.env.validators.length) with
  | true =>
    obtain ⟨t', heq, hde⟩ := decideClaim_rejects tx ty hda hr
    rw [heq]
    exact Or.inr ⟨hde, Or.inl (hna ▸ hr)⟩
  | false =>
    cases ha : accepts cfg (yayCount (t.withVote id v.notary v.result) id) (BitVec.ofNat 32 v.env.validators.length) with
    | true =>
      by_cases hd : dl = 0
      · -- The handler aborts at a vote in favour, which is then not recorded.
        have hva : v.result = .valid := by
          by_contra h
          have hyay : yays [v] = 0 := by simp [yays, h]
          rw [yayCount_withVote hfr, hyay, BitVec.add_zero, O.notAccepted] at ha
          cases ha
        have hnay : nays [v] = 0 := by simp [nays, hva]
        have hd' : (t.withVote id v.notary v.result).eventDeadlineSeconds = 0 := O.fixed.trans hd
        rw [decideClaim_aborts hda hr ha hd']
        refine Or.inl ⟨O.claim, O.data, O.fixed, fun k r h => ?_, ?_, fun h => absurd hd h, O.notRejected, O.notAccepted⟩
        · rw [map_append]
          exact mem_append_left _ (O.voters k r h)
        · rw [nays_append, hnay, Nat.add_zero]
          exact O.against
      · have hd' : (t.withVote id v.notary v.result).eventDeadlineSeconds ≠ 0 := fun h => hd (O.fixed.symm.trans h)
        obtain ⟨t', heq, hde⟩ := decideClaim_accepts hda hr ha tx ty hd'
        rw [heq]
        exact Or.inr ⟨hde, Or.inr ⟨hd, hya hd ▸ ha⟩⟩
    | false =>
      rw [decideClaim_open hr ha]
      refine Or.inl ⟨O.claim, O.data, O.fixed, fun k r h => ?_, hna, hya, hr, ha⟩
      rw [map_append, mem_append]
      rcases get?_insert_eq_some.mp h with ⟨hk, -⟩ | ⟨-, hold⟩
      · exact Or.inr (mem_singleton.mpr (Prod.ext_iff.mp hk).2)
      · exact Or.inl (O.voters k r hold)

theorem ballot_outcome (hcfg : RoundsDown cfg) (B : Ballot n votes) (O : OpenWith cfg n dl id tx ty [] s)
    (hvo : votes = done ++ rest) :
    OpenWith cfg n dl id tx ty done (execute (castVote cfg id) s done) ∨
      (Decided (execute (castVote cfg id) s done) id tx ∧ Decisive cfg n dl done) := by
  induction done using List.reverseRecOn generalizing rest with
  | nil => exact Or.inl O
  | append_singleton done v ih =>
    rw [append_assoc] at hvo
    rw [execute_concat]
    rcases ih hvo with hopn | ⟨hde, hdc⟩
    · refine hopn.cast (B.validators v (by simp [hvo])) ?_
      have hno := B.distinct
      rw [hvo, map_append, nodup_append] at hno
      exact fun hmem => hno.2.2 _ hmem v.notary (by simp) rfl
    · rw [castVote_of_decided hde]
      have hle : (done ++ [v]).length ≤ n := by
        have := B.size
        rw [hvo] at this
        simp only [length_append, length_cons, length_nil] at this ⊢
        omega
      exact Or.inr ⟨hde, hdc.mono hcfg B.word B.some hle⟩

theorem openWith_nil (hcfg : RoundsDown cfg) (hT : 1 ≤ cfg.notarizationThreshold.val) (hn : 0 < n) (hwo : n < 2 ^ 32)
    (hcl : s.eventClaims.get? id = some (tx, ty)) (hda : ∃ d, s.eventData.get? id = some d)
    (hno : ∀ k, s.eventNotarizations.get? (id, k) = none) :
    OpenWith cfg n s.eventDeadlineSeconds id tx ty ([] : List (Vote K A)) s := by
  have hey : s.eventNotarizations.iterPrefix id = [] := by
    rw [eq_nil_iff_forall_not_mem]
    rintro ⟨k, r⟩ hmem
    rw [mem_iterPrefix, hno k] at hmem
    cases hmem
  have hna : nayCount s id = BitVec.ofNat 32 0 := by
    unfold nayCount
    rw [hey]
    rfl
  have hya : yayCount s id = BitVec.ofNat 32 0 := by
    unfold yayCount
    rw [hey]
    rfl
  refine ⟨hcl, hda, rfl, fun k r h => ?_, hna, fun _ => hya, ?_, ?_⟩
  · rw [hno k] at h
    cases h
  · rw [hna, Bool.eq_false_iff, Ne, rejects_iff hcfg hn hwo (Nat.zero_le n)]
    simp
  · rw [hya, Bool.eq_false_iff, Ne, accepts_iff hcfg hn hwo (Nat.zero_le n)]
    simp only [Nat.mul_zero, Nat.zero_div]
    omega

end

/-- A ballot of all notaries on an open claim decides it, one way only, exactly if the votes in favour are at most `T -
1` percent, or at least `T` percent and the deadline is not zero. -/
theorem ballot_decides_iff [DecidableEq K] (cfg : Config) (hcfg : RoundsDown cfg)
    (hT : 1 ≤ cfg.notarizationThreshold.val) (n : Nat) (votes : List (Vote K A)) (B : Ballot n votes) (s : State K A)
    (id : EventClaimId) (txHash : EthHash) (ty : EventTypeId) (hclaim : s.eventClaims.get? id = some (txHash, ty))
    (hdata : ∃ d, s.eventData.get? id = some d) (hnone : ∀ k, s.eventNotarizations.get? (id, k) = none) :
    ((∀ y k, y + k ≤ n → ¬(rejects cfg (BitVec.ofNat 32 k) (BitVec.ofNat 32 n) = true ∧
        accepts cfg (BitVec.ofNat 32 y) (BitVec.ofNat 32 n) = true)) ∧
      Decided (execute (castVote cfg id) s votes) id txHash) ↔
    (100 * yays votes ≤ (cfg.notarizationThreshold.val - 1) * n ∨
      (s.eventDeadlineSeconds ≠ 0 ∧ cfg.notarizationThreshold.val * n ≤ 100 * yays votes)) := by
  have hT' : cfg.notarizationThreshold.val ≤ 100 := Nat.le_of_lt_succ cfg.notarizationThreshold.isLt
  have htot := yays_add_nays votes
  rw [B.size] at htot
  have hdc : Decisive cfg n s.eventDeadlineSeconds votes ↔ (100 * yays votes ≤ (cfg.notarizationThreshold.val - 1) * n ∨
        (s.eventDeadlineSeconds ≠ 0 ∧ cfg.notarizationThreshold.val * n ≤ 100 * yays votes)) := by
    unfold Decisive
    rw [rejects_iff hcfg B.some B.word (by omega), accepts_iff hcfg B.some B.word (by omega),
      show nays votes = n - yays votes by omega, Percent.lt_rest_share_iff B.some (by omega) hT hT',
      Percent.le_share_iff B.some]
  rw [← hdc]
  have hou := ballot_outcome hcfg B (openWith_nil hcfg hT B.some B.word hclaim hdata hnone) (append_nil votes).symm
  constructor
  · rintro ⟨-, hde⟩
    rcases hou with hopn | ⟨-, h⟩
    · have hgo := hde.1
      rw [hopn.claim] at hgo
      cases hgo
    · exact h
  · intro h
    refine ⟨fun y k hyk => not_rejects_and_accepts hcfg B.some B.word hyk, ?_⟩
    rcases hou with hopn | ⟨hde, -⟩
    · rcases h with hr | ⟨hd, ha⟩
      · rw [← hopn.against, hopn.notRejected] at hr
        cases hr
      · rw [← hopn.inFavour hd, hopn.notAccepted] at ha
        cases ha
    · exact hde

def claimed : State Nat Nat :=
  step runtimeConfig (State.genesis []) ⟨{ now := 100, validators := [] }, .submitEventClaim 1 2 5 []⟩

def firstInFavour (n y : Nat) : List (Vote Nat Nat) :=
  (List.range n).map fun i => ⟨{ now := 100, validators := List.range n }, i, if i < y then .valid else .noTxLogs⟩

theorem ballot_of_three_decides : Decided (execute (castVote runtimeConfig 0) claimed (firstInFavour 3 2)) 0 5 :=
  ((ballot_decides_iff runtimeConfig (fun _ _ hn hp => Percent.ofRatio_val hn hp) (by decide) 3 (firstInFavour 3 2)
    ⟨rfl, by decide, by decide, by decide, by decide⟩ claimed 0 5 0 rfl ⟨[], rfl⟩ (fun _ => rfl)).mpr
    (Or.inr ⟨by decide, by decide⟩)).2

/-- With the threshold of the runtime, 15 of 23 votes in favour leave a claim open for good. -/
theorem ballot_of_23_undecided :
    Ballot 23 (firstInFavour 23 15) ∧ claimed.eventClaims.get? 0 = some (5, 0) ∧ claimed.eventData.get? 0 = some [] ∧
      (∀ k, claimed.eventNotarizations.get? (0, k) = none) ∧
      ¬Decided (execute (castVote runtimeConfig 0) claimed (firstInFavour 23 15)) 0 5 := by
  refine ⟨⟨rfl, by decide, by decide, by decide, by decide⟩, rfl, rfl, fun _ => rfl, fun h => ?_⟩
  have hcl : (execute (castVote runtimeConfig 0) claimed (firstInFavour 23 15)).eventClaims.get? 0 =
      some (5, 0) := by decide +kernel
  rw [h.1] at hcl
  cases hcl

end EthBridge
