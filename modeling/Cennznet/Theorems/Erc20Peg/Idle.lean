import Cennznet.Theorems.Erc20Peg.Deposit

/-! # Idle processing of delayed claims -/

namespace Erc20Peg

open Result StorageMap Word List

/-! ### Schedules -/

abbrev ClaimSchedule := StorageMap BlockNumber (List ClaimId)

def claimsOf (schedule : ClaimSchedule) (blocks : List BlockNumber) : List ClaimId :=
  blocks.flatMap (schedule.getD · [])

structure Ready (schedule : ClaimSchedule) (blocks : List BlockNumber) : Prop where
  distinct : blocks.Nodup
  filled : ∀ {bl}, bl ∈ blocks → schedule.getD bl [] ≠ []

/-- The schedule and the ready blocks left once the first `n` claims are taken. -/
structure Remains (schedule : ClaimSchedule) (ready : List BlockNumber) (n : Nat) (left : ClaimSchedule)
    (rest : List BlockNumber) : Prop where
  claims : claimsOf left rest = (claimsOf schedule ready).drop n
  still : Ready left rest
  sublist : rest.Sublist ready
  done : ∀ {bl}, bl ∈ ready → bl ∉ rest → left.get? bl = none
  others : ∀ {bl}, bl ∉ ready → left.get? bl = schedule.get? bl
  counts : ∀ id, occurrences left id + ((claimsOf schedule ready).take n).count id = occurrences schedule id

section
variable {schedule left : ClaimSchedule} {ready rest : List BlockNumber} {bl : BlockNumber}
  {ids : List ClaimId} {n : Nat}

theorem claimsOf_cons (hids : schedule.getD bl [] = ids) :
    claimsOf schedule (bl :: rest) = ids ++ claimsOf schedule rest := by
  rw [← hids]
  rfl

theorem claimsOf_congr (h : ∀ bl ∈ rest, left.getD bl [] = schedule.getD bl []) :
    claimsOf left rest = claimsOf schedule rest := flatMap_congr h

theorem Ready.ne (h : Ready schedule (bl :: rest)) {b : BlockNumber} (hb : b ∈ rest) : b ≠ bl := by
  rintro rfl
  exact (nodup_cons.mp h.distinct).1 hb

theorem Ready.getD_remove (h : Ready schedule (bl :: rest)) {b : BlockNumber} (hb : b ∈ rest) :
    (schedule.remove bl).getD b [] = schedule.getD b [] := by
  rw [StorageMap.getD_remove, if_neg (h.ne hb)]

theorem Ready.tail (h : Ready schedule (bl :: rest)) : Ready (schedule.remove bl) rest := by
  refine ⟨(nodup_cons.mp h.distinct).2, fun hb => ?_⟩
  rw [h.getD_remove hb]
  exact h.filled (mem_cons_of_mem bl hb)

theorem Remains.refl (h : Ready schedule ready) : Remains schedule ready 0 schedule ready :=
  ⟨rfl, h, .refl _, fun hb hnot => absurd hb hnot, fun _ => rfl, fun _ => rfl⟩

theorem Remains.nil : Remains schedule [] n schedule [] := by
  refine ⟨?_, ⟨nodup_nil, nofun⟩, .refl _, nofun, fun _ => rfl, fun id => ?_⟩ <;> simp [claimsOf]

theorem Remains.part (h : Ready schedule (bl :: rest)) (hids : schedule.getD bl [] = ids) (hn : n < ids.length) :
    Remains schedule (bl :: rest) n (schedule.insert bl (ids.drop n)) (bl :: rest) := by
  have hse : (schedule.insert bl (ids.drop n)).getD bl [] = ids.drop n := by simp
  have hoth {b : BlockNumber} (hb : b ∈ rest) : (schedule.insert bl (ids.drop n)).getD b [] = schedule.getD b [] := by
    rw [getD_insert, if_neg (h.ne hb)]
  refine ⟨?_, ⟨h.distinct, ?_⟩, .refl _, fun hb hnot => absurd hb hnot, fun hb => ?_, fun id => ?_⟩
  · rw [claimsOf_cons hse, claimsOf_cons hids, drop_append_of_le_length (Nat.le_of_lt hn), claimsOf_congr fun _ => hoth]
  · intro b hb
    rcases mem_cons.mp hb with rfl | hmem
    · rw [hse]
      exact fun hnil => absurd (drop_eq_nil_iff.mp hnil) (Nat.not_le.mpr hn)
    · rw [hoth hmem]
      exact h.filled hb
  · exact get?_insert_ne (ne_of_not_mem_cons hb)
  · have hins := occurrences_insert (m := schedule) (k := bl) (l := ids.drop n) (x := id)
    have hsp : (ids.take n).count id + (ids.drop n).count id = ids.count id := by
      rw [← count_append, take_append_drop]
    rw [hids] at hins
    rw [claimsOf_cons hids, take_append_of_le_length (Nat.le_of_lt hn)]
    omega

theorem Remains.finish (h : Ready schedule (bl :: rest)) (hids : schedule.getD bl [] = ids)
    {rest' : List BlockNumber} (hr : Remains (schedule.remove bl) rest n left rest') :
    Remains schedule (bl :: rest) (ids.length + n) left rest' := by
  have hs : claimsOf (schedule.remove bl) rest = claimsOf schedule rest := claimsOf_congr fun _ => h.getD_remove
  obtain ⟨hcl, hst, hsub, hdo, hoth, hco⟩ := hr
  rw [hs] at hcl hco
  refine ⟨?_, hst, hsub.cons bl, fun {b} hb hla => ?_, fun {b} hb => ?_, fun id => ?_⟩
  · rw [hcl, claimsOf_cons hids, drop_length_add_append]
  · rcases mem_cons.mp hb with rfl | hmem
    · exact (hoth (nodup_cons.mp h.distinct).1).trans get?_remove_self
    · exact hdo hmem hla
  · exact (hoth (not_mem_of_not_mem_cons hb)).trans (get?_remove_ne (ne_of_not_mem_cons hb))
  · have hre := occurrences_remove (m := schedule) (k := bl) (x := id)
    have hid := hco id
    rw [hids] at hre
    rw [claimsOf_cons hids, take_length_add_append, count_append]
    omega

end

/-! ### The loop -/

variable {K A : Type}

def State.reschedule (s : State K A) (schedule : ClaimSchedule) (ready : List BlockNumber) : State K A :=
  { s with delayedClaimSchedule := schedule, readyBlocks := ready }

/-- Nothing that the loop computes with 8 bits wraps around, at any block it comes to. -/
def CountersFit (cfg : Config A) (maxC : BitVec 8) : State K A → BitVec 8 → BitVec 8 → List BlockNumber → Prop
  | _, _, _, [] => True
  | s, claims, blocks, bl :: rest =>
    let ids := s.delayedClaimSchedule.getD bl []
    let room := (maxC - claims).toNat
    let claims' := claims + BitVec.ofNat 8 (ids.take room).length
    let (schedule, blocks') :=
      if room < ids.length then (s.delayedClaimSchedule.insert bl (ids.drop room), blocks)
      else (s.delayedClaimSchedule.remove bl, blocks + 1)
    claims.toNat ≤ maxC.toNat ∧ claims'.toNat = claims.toNat + (ids.take room).length ∧ blocks.toNat ≤ blocks'.toNat ∧
      ∀ t, processClaims cfg { s with delayedClaimSchedule := schedule } (ids.take room) = .ok t →
        claims'.toNat < maxC.toNat → CountersFit cfg maxC t claims' blocks' rest

section
variable {cfg : Config A} {s : State K A} {schedule : ClaimSchedule} {ready : List BlockNumber}

theorem processClaim_reschedule (id : ClaimId) :
    processClaim cfg (s.reschedule schedule ready) id = (·.reschedule schedule ready) <$> processClaim cfg s id := by
  unfold processClaim State.reschedule
  dsimp only
  cases s.delayedClaims.get? id with
  | none => rfl
  | some claim =>
    cases claim with
    | deposit claim tx =>
      unfold processDepositClaim
      dsimp only
      cases unwrapAccount cfg claim.beneficiary with
      | error e => rfl
      | ok ben =>
        simp only [ok_bind]
        cases EthBridge.submitEventClaim s.bridge s.contractAddress cfg.depositEventSignature tx claim.encode <;> rfl
    | withdrawal msg =>
      dsimp only
      cases s.erc20ToAssetId.get? msg.tokenAddress with
      | none => rfl
      | some a =>
        unfold processWithdrawal
        dsimp only
        cases asU128 msg.amount <;> rfl

theorem processClaims_reschedule (cfg : Config A) (s : State K A) (schedule : ClaimSchedule)
    (ready : List BlockNumber) (ids : List ClaimId) :
    processClaims cfg (s.reschedule schedule ready) ids = (·.reschedule schedule ready) <$> processClaims cfg s ids := by
  induction ids generalizing s with
  | nil => rfl
  | cons id rest ih =>
    unfold processClaims at ih ⊢
    rw [foldlM_cons, foldlM_cons, processClaim_reschedule]
    cases processClaim cfg s id with
    | error e => rfl
    | ok t => exact ih t

theorem processClaims_append (s : State K A) (ids ids' : List ClaimId) :
    processClaims cfg s (ids ++ ids') = processClaims cfg s ids >>= fun t => processClaims cfg t ids' := foldlM_append

theorem processReadyBlocks_eq (cfg : Config A) (maxC claims blocks : BitVec 8) (hre : Ready schedule ready)
    (hbl : blocks.toNat ≤ claims.toNat) (hcl : claims.toNat ≤ maxC.toNat) :
    ∃ left n claims' blocks', Remains schedule ready (maxC.toNat - claims.toNat) left (ready.drop n) ∧
      n ≤ ready.length ∧ blocks'.toNat = blocks.toNat + n ∧ claims'.toNat ≤ maxC.toNat ∧
      ∀ s : State K A, s.delayedClaimSchedule = schedule → CountersFit cfg maxC s claims blocks ready ∧
        processReadyBlocks cfg maxC s claims blocks ready = (·, claims', blocks') <$> processClaims cfg
          (s.reschedule left s.readyBlocks) ((claimsOf schedule ready).take (maxC.toNat - claims.toNat)) := by
  have hmax := maxC.isLt
  induction ready generalizing schedule claims blocks with
  | nil =>
    refine ⟨schedule, 0, claims, blocks, .nil, Nat.le_refl _, rfl, hcl, ?_⟩
    rintro s rfl
    refine ⟨trivial, ?_⟩
    simp only [claimsOf, flatMap_nil, take_nil]
    rfl
  | cons bl rest ih =>
    obtain ⟨ids, hids⟩ : ∃ ids, schedule.getD bl [] = ids := ⟨_, rfl⟩
    have hr := toNat_sub_of_le hcl
    by_cases hl : maxC.toNat - claims.toNat < ids.length
    · -- the block keeps some claims, and the loop ends
      have hlen := length_take_of_le (Nat.le_of_lt hl)
      have hco : (claims + BitVec.ofNat 8 (maxC.toNat - claims.toNat)).toNat = maxC.toNat := by
        rw [BitVec.toNat_add, BitVec.toNat_ofNat]
        omega
      refine ⟨_, 0, _, blocks, Remains.part hre hids hl, Nat.zero_le _, rfl, Nat.le_of_eq hco, ?_⟩
      rintro s rfl
      constructor
      · simp only [CountersFit, hids, hr, if_pos hl, hlen, hco]
        exact ⟨hcl, by omega, Nat.le_refl _, fun _ _ hlt => absurd hlt (Nat.lt_irrefl _)⟩
      · simp only [processReadyBlocks, hids, hr, if_pos hl, hlen, hco, Nat.le_refl, if_true]
        rw [claimsOf_cons hids, take_append_of_le_length (Nat.le_of_lt hl)]
        rfl
    have hall := take_of_length_le (Nat.not_lt.mp hl)
    have hpos : 0 < ids.length := length_pos_iff.mpr (hids ▸ hre.filled mem_cons_self)
    have hco : (claims + BitVec.ofNat 8 ids.length).toNat = claims.toNat + ids.length := by
      rw [BitVec.toNat_add, BitVec.toNat_ofNat]
      omega
    have hfi : (blocks + 1).toNat = blocks.toNat + 1 := by bv_omega
    by_cases hst : maxC.toNat ≤ claims.toNat + ids.length
    · have hend : maxC.toNat - claims.toNat = ids.length + 0 := by omega
      refine ⟨schedule.remove bl, 1, claims + BitVec.ofNat 8 ids.length, blocks + 1, ?_, ?_, hfi, by omega, ?_⟩
      · rw [hend]
        exact Remains.finish hre hids (.refl hre.tail)
      · exact Nat.succ_le_succ (Nat.zero_le _)
      rintro s rfl
      constructor
      · simp only [CountersFit, hids, hr, if_neg hl, hall, hco, hfi]
        exact ⟨hcl, trivial, Nat.le_succ _, fun _ _ hlt => absurd hst (Nat.not_le.mpr hlt)⟩
      · simp only [processReadyBlocks, hids, hr, if_neg hl, hall, hco, if_pos hst]
        rw [claimsOf_cons hids, hend, Nat.add_zero, take_left]
        rfl
    · have hmo : (claims + BitVec.ofNat 8 ids.length).toNat ≤ maxC.toNat := by omega
      have hfe : (blocks + 1).toNat ≤ (claims + BitVec.ofNat 8 ids.length).toNat := by omega
      obtain ⟨left, n, claims', blocks', hrm, hn, hbl', hcl', hlo⟩ := ih _ _ hre.tail hfe hmo
      have hgo : maxC.toNat - claims.toNat =
          ids.length + (maxC.toNat - (claims + BitVec.ofNat 8 ids.length).toNat) := by omega
      refine ⟨left, n + 1, claims', blocks', ?_, Nat.succ_le_succ hn, by omega, hcl', ?_⟩
      · rw [hgo]
        exact Remains.finish hre hids hrm
      rintro s rfl
      have hfr (left : ClaimSchedule) := processClaims_reschedule cfg s left s.readyBlocks ids
      constructor
      · simp only [CountersFit, hids, hr, if_neg hl, hall, hco, hfi]
        refine ⟨hcl, trivial, Nat.le_succ _, fun t ht _ => (hlo t ?_).1⟩
        obtain ⟨u, -, rfl⟩ := map_eq_ok.mp ((hfr _).symm.trans ht)
        rfl
      · simp only [processReadyBlocks, hids, hr, if_neg hl, hall, hco, if_neg hst]
        rw [claimsOf_cons hids, hgo, take_length_add_append, processClaims_append, hfr left]
        refine (congrArg (· >>= _) (hfr (s.delayedClaimSchedule.remove bl))).trans ?_
        cases processClaims cfg s ids with
        | error e => rfl
        | ok t =>
          have hrest := (hlo (t.reschedule (s.delayedClaimSchedule.remove bl) s.readyBlocks) rfl).2
          rw [claimsOf_congr fun _ => hre.getD_remove] at hrest
          exact hrest

end

abbrev claimWeight (cfg : Config A) : Weight := saturatingAdd (cfg.dbWeight.reads 8) (cfg.dbWeight.writes 10)

def claimsAllowed (cfg : Config A) (weight : Weight) : Nat :=
  if weight.toNat ≤ (cfg.dbWeight.reads 1).toNat then 0
  else min 255 ((weight.toNat - (cfg.dbWeight.reads 1).toNat) / (claimWeight cfg).toNat)

theorem toNat_claimsAllowed (cfg : Config A) (weight : Weight) :
    (BitVec.ofNat 8 (claimsAllowed cfg weight)).toNat = claimsAllowed cfg weight := by
  refine Nat.mod_eq_of_lt ?_
  unfold claimsAllowed
  split <;> omega

theorem maxClaims_eq {cfg : Config A} {w : Weight} (hre : ¬w.toNat ≤ (cfg.dbWeight.reads 1).toNat) :
    saturatedInto 8 ((w - cfg.dbWeight.reads 1) / claimWeight cfg) = BitVec.ofNat 8 (claimsAllowed cfg w) := by
  refine BitVec.eq_of_toNat_eq ?_
  rw [toNat_claimsAllowed, toNat_saturatedInto, BitVec.toNat_udiv, toNat_sub_of_le (Nat.le_of_not_le hre)]
  unfold claimsAllowed
  rw [if_neg hre]
  exact Nat.min_comm _ _

theorem usedWeight_le {cfg : Config A} {w : Weight} {claims : BitVec 8} (hre : ¬w.toNat ≤ (cfg.dbWeight.reads 1).toNat)
    (hcl : claims.toNat ≤ claimsAllowed cfg w) :
    (cfg.dbWeight.reads 1 + claimWeight cfg * claims.setWidth 64).toNat ≤ w.toNat := by
  have hal : claimsAllowed cfg w ≤ (w.toNat - (cfg.dbWeight.reads 1).toNat) / (claimWeight cfg).toNat := by
    unfold claimsAllowed
    rw [if_neg hre]
    exact Nat.min_le_right _ _
  have hmul : (claimWeight cfg).toNat * claims.toNat ≤ w.toNat - (cfg.dbWeight.reads 1).toNat :=
    (Nat.mul_le_mul_left _ (hcl.trans hal)).trans (Nat.mul_div_le _ _)
  have hlt := w.isLt
  rw [BitVec.toNat_add, BitVec.toNat_mul, BitVec.toNat_setWidth_of_le (by decide), Nat.mod_eq_of_lt (by omega),
    Nat.mod_eq_of_lt (by omega)]
  omega

/-- `on_idle` processes the first claims of the ready blocks, as many as the weight allows, and leaves the others
scheduled in order. Its counters do not overflow. -/
def ProcessesFirst (cfg : Config A) (s : State K A) (weight : Weight) : Prop :=
  ∃ left n used, onIdle cfg s weight = (·, used) <$> processClaims cfg (s.reschedule left (s.readyBlocks.drop n))
      ((claimsOf s.delayedClaimSchedule s.readyBlocks).take (claimsAllowed cfg weight)) ∧
    Remains s.delayedClaimSchedule s.readyBlocks (claimsAllowed cfg weight) left (s.readyBlocks.drop n) ∧
    n ≤ s.readyBlocks.length ∧ used.toNat ≤ weight.toNat ∧
    CountersFit cfg (BitVec.ofNat 8 (claimsAllowed cfg weight)) s 0 0 s.readyBlocks

theorem onIdle_processesFirst (cfg : Config A) (s : State K A) (weight : Weight)
    (hready : Ready s.delayedClaimSchedule s.readyBlocks) : ProcessesFirst cfg s weight := by
  have hmax : (BitVec.ofNat 8 (claimsAllowed cfg weight)).toNat - (0 : BitVec 8).toNat = claimsAllowed cfg weight :=
    toNat_claimsAllowed cfg weight
  obtain ⟨left, n, claims, blocks, hre, hn, hbl, hcs, hlo⟩ :=
    processReadyBlocks_eq cfg (BitVec.ofNat 8 (claimsAllowed cfg weight)) 0 0 hready (Nat.le_refl _) (Nat.zero_le _)
  obtain ⟨hfit, hrun⟩ := hlo s rfl
  rw [hmax] at hre hrun
  by_cases hrd : weight.toNat ≤ (cfg.dbWeight.reads 1).toNat
  · have hno : claimsAllowed cfg weight = 0 := if_pos hrd
    unfold ProcessesFirst
    rw [hno] at hfit ⊢
    refine ⟨s.delayedClaimSchedule, 0, 0, ?_, .refl hready, Nat.zero_le _, Nat.zero_le _, hfit⟩
    unfold onIdle
    dsimp only
    rw [if_pos hrd]
    rfl
  by_cases hey : s.readyBlocks.isEmpty = true
  · have hno : s.readyBlocks = [] := List.isEmpty_iff.mp hey
    have hcl : claimsOf s.delayedClaimSchedule s.readyBlocks = [] := by
      rw [hno]
      rfl
    refine ⟨s.delayedClaimSchedule, 0, 0, ?_, hno ▸ .nil, Nat.zero_le _, Nat.zero_le _, hfit⟩
    unfold onIdle
    dsimp only
    rw [if_neg hrd, if_pos hey, hcl, take_nil]
    rfl
  · have hco : claims.toNat ≤ claimsAllowed cfg weight := hcs.trans_eq (toNat_claimsAllowed cfg weight)
    have hdr : blocks.toNat = n := hbl.trans (Nat.zero_add n)
    refine ⟨left, n, _, ?_, hre, hn, usedWeight_le hrd hco, hfit⟩
    unfold onIdle
    dsimp only
    rw [if_neg hrd, if_neg hey, maxClaims_eq hrd, hrun, processClaims_reschedule cfg s left s.readyBlocks,
      processClaims_reschedule cfg s left (s.readyBlocks.drop n)]
    cases processClaims cfg s ((claimsOf s.delayedClaimSchedule s.readyBlocks).take (claimsAllowed cfg weight)) with
    | error e => rfl
    | ok t =>
      rw [← hdr]
      rfl

/-- Withdrawals of 4, 5 and 6 of token 206: the first is due in block 2, the others in block 3. -/
def sampleReady : State Nat Nat :=
  { sampleGenesis [1] with
    delayedClaims := (((∅ : StorageMap ClaimId PendingClaim).insert 0 (.withdrawal ⟨206, 4, 7⟩)).insert 1
      (.withdrawal ⟨206, 5, 7⟩)).insert 2 (.withdrawal ⟨206, 6, 7⟩)
    delayedClaimSchedule := ((∅ : ClaimSchedule).insert 2 [0]).insert 3 [1, 2]
    readyBlocks := [2, 3] }

theorem two_of_three_processed : (onIdle sampleConfig sampleReady 2425000000).toOption.map (fun r =>
        (r.1.messages, r.1.readyBlocks, r.1.delayedClaimSchedule.getD 3 [], r.2)) =
      some ([⟨206, 4, 7⟩, ⟨206, 5, 7⟩], [3], [2], 2425000000) ∧ ProcessesFirst sampleConfig sampleReady 2425000000 := by
  refine ⟨by decide +kernel, onIdle_processesFirst _ _ _ ⟨by decide, fun hbl => ?_⟩⟩
  rcases mem_cons.mp hbl with rfl | hbl
  · decide +kernel
  · rw [mem_singleton.mp hbl]
    decide +kernel

end Erc20Peg
