import Cennznet.Lib.Lists
import Cennznet.Lib.Run
import Cennznet.Staking.PayoutQueue
import Cennznet.Theorems.Staking.Payees

/-! # Scheduled payouts run once and in order

The counts of the queue and the amounts in storage are two views of what is pending. -/

namespace Rewards

open StorageMap List Lists

open GenericAsset (Balance)
open Staking (EraIndex)

variable {A : Type}

def runsOf (era : EraIndex) (payouts : List (A × Balance)) : List (EraIndex × A × Balance) :=
  payouts.map fun p => (era, p.1, p.2)

def pendingRuns (pending : List (EraIndex × List (A × Balance))) : List (EraIndex × A × Balance) :=
  pending.flatMap fun batch => runsOf batch.1 batch.2

def payoutKey (x : EraIndex × A × Balance) : EraIndex × A := (x.1, x.2.1)

theorem mem_runsOf {era : EraIndex} {payouts : List (A × Balance)} {x : EraIndex × A × Balance} :
    x ∈ runsOf era payouts ↔ x.1 = era ∧ x.2 ∈ payouts := by
  unfold runsOf
  rw [mem_map]
  constructor
  · rintro ⟨p, hp, rfl⟩
    exact ⟨rfl, hp⟩
  · rintro ⟨rfl, hp⟩
    exact ⟨x.2, hp, rfl⟩

theorem mem_pendingRuns {pending : List (EraIndex × List (A × Balance))} {x : EraIndex × A × Balance} :
    x ∈ pendingRuns pending ↔ ∃ payouts, (x.1, payouts) ∈ pending ∧ x.2 ∈ payouts := by
  unfold pendingRuns
  rw [mem_flatMap]
  constructor
  · rintro ⟨batch, hba, hx⟩
    obtain ⟨hera, hmem⟩ := mem_runsOf.mp hx
    exact ⟨batch.2, hera ▸ hba, hmem⟩
  · rintro ⟨payouts, hba, hmem⟩
    exact ⟨_, hba, mem_runsOf.mpr ⟨rfl, hmem⟩⟩

theorem pendingRuns_cons (era : EraIndex) (ps : List (A × Balance)) (pending : List (EraIndex × List (A × Balance))) :
    pendingRuns ((era, ps) :: pending) = runsOf era ps ++ pendingRuns pending :=
  flatMap_cons

def requeue (era : EraIndex) (left : List (A × Balance)) (rest : List (EraIndex × List (A × Balance))) :
    List (EraIndex × List (A × Balance)) :=
  if left = [] then rest else (era, left) :: rest

theorem pendingRuns_requeue (era : EraIndex) (left : List (A × Balance)) (rest : List (EraIndex × List (A × Balance))) :
    pendingRuns (requeue era left rest) = runsOf era left ++ pendingRuns rest := by
  unfold requeue
  split_ifs with hnil
  · rw [hnil]
    rfl
  · exact pendingRuns_cons ..

theorem mem_requeue {era : EraIndex} {left : List (A × Balance)} {rest : List (EraIndex × List (A × Balance))}
    {batch : EraIndex × List (A × Balance)} (h : batch ∈ requeue era left rest) :
    batch ∈ rest ∨ batch = (era, left) ∧ left ≠ [] := by
  unfold requeue at h
  split_ifs at h with hl
  · exact Or.inl h
  · rcases mem_cons.mp h with rfl | hr
    · exact Or.inr ⟨rfl, hl⟩
    · exact Or.inl hr

theorem nodup_keys_runsOf {ps : List (A × Balance)} (era : EraIndex) (h : (ps.map Prod.fst).Nodup) :
    ((runsOf era ps).map payoutKey).Nodup := by
  have hke : (runsOf era ps).map payoutKey = (ps.map Prod.fst).map fun v => (era, v) := by
    unfold runsOf payoutKey
    rw [map_map, map_map]
    rfl
  rw [hke]
  exact h.map fun v w heq => (Prod.mk.inj heq).2

variable [DecidableEq A]

/-! ### Serving an era -/

/-- The weight of one read and one write. -/
abbrev accessWeight (cfg : Config A) : Weight := cfg.dbWeight.reads 1 + cfg.dbWeight.writes 1

theorem get?_finishIdle {era : EraIndex} {waiting : List (EraIndex × BitVec 32)} {idle : Idle A} {e : EraIndex}
    {v : A} {a : Balance} : (finishIdle era waiting idle).rewards.scheduledPayoutAmounts.get? (e, v) = some a ↔
      ¬(e = era ∧ v ∈ idle.payoutsCompleted) ∧ idle.paying.rewards.scheduledPayoutAmounts.get? (e, v) = some a := by
  have hre : (finishIdle era waiting idle).rewards.scheduledPayoutAmounts =
      idle.paying.rewards.scheduledPayoutAmounts.removeAll (idle.payoutsCompleted.map fun stash => (era, stash)) := by
    unfold StorageMap.removeAll
    rw [foldl_map]
    rfl
  rw [hre, get?_removeAll_eq_some]
  refine and_congr_left fun _ => not_congr ?_
  rw [mem_map]
  constructor
  · rintro ⟨stash, hmem, heq⟩
    cases heq
    exact ⟨rfl, hmem⟩
  · rintro ⟨rfl, hmem⟩
    exact ⟨v, hmem, rfl⟩

section
variable [Inhabited A] {cfg : Config A} {r : Runner A} {order : A → A → Bool}
  {era : EraIndex} {w : Weight}

def Idle.ran (cfg : Config A) (r : Runner A) (era : EraIndex) (idle : Idle A) (val : A) (n : Balance) : Idle A where
  paying := (runPayout cfg r idle.paying val n era).1
  consumedWeight := idle.consumedWeight + accessWeight cfg + (runPayout cfg r idle.paying val n era).2
  payoutsLeft := idle.payoutsLeft - 1
  payoutsCompleted := idle.payoutsCompleted ++ [val]

theorem runPayouts_cons (cfg : Config A) (r : Runner A) (era : EraIndex) (w : Weight)
    (val : A) (n : Balance) (todo : List (A × Balance)) (idle : Idle A) :
    runPayouts cfg r era w ((val, n) :: todo) idle =
      if (idle.consumedWeight + accessWeight cfg + estimateRunPayoutWeight cfg r val era).toNat ≤ w.toNat then
        runPayouts cfg r era w todo (idle.ran cfg r era val n)
      else { idle with consumedWeight := idle.consumedWeight + accessWeight cfg } := rfl

section
variable (cfg : Config A) (r : Runner A) (era : EraIndex) (idle : Idle A) (val : A)
  (n : Balance)

theorem Idle.ran_runs : (idle.ran cfg r era val n).paying.runs = idle.paying.runs ++ [(era, val, n)] := rfl

theorem Idle.ran_completed : (idle.ran cfg r era val n).payoutsCompleted = idle.payoutsCompleted ++ [val] := rfl

theorem Idle.ran_left (h : 0 < idle.payoutsLeft.toNat) :
    (idle.ran cfg r era val n).payoutsLeft.toNat + 1 = idle.payoutsLeft.toNat := by
  have hone : (1 : BitVec 32).toNat = 1 := rfl
  have hpr : (idle.payoutsLeft - 1).toNat = idle.payoutsLeft.toNat - 1 := Word.toNat_sub_of_le (by omega)
  show (idle.payoutsLeft - 1).toNat + 1 = _
  omega

theorem Idle.ran_amounts : (idle.ran cfg r era val n).paying.rewards.scheduledPayoutAmounts =
    idle.paying.rewards.scheduledPayoutAmounts :=
  (processRewardPayout_leaves ..).2.1

end

theorem runPayouts_spec (cfg : Config A) (r : Runner A) (era : EraIndex) (w : Weight)
    (todo : List (A × Balance)) (idle : Idle A) :
    ∃ done rest, todo = done ++ rest ∧
      (runPayouts cfg r era w todo idle).paying.runs = idle.paying.runs ++ runsOf era done ∧
      (runPayouts cfg r era w todo idle).payoutsCompleted = idle.payoutsCompleted ++ done.map Prod.fst ∧
      (todo.length ≤ idle.payoutsLeft.toNat →
        (runPayouts cfg r era w todo idle).payoutsLeft.toNat + done.length = idle.payoutsLeft.toNat) ∧
      (runPayouts cfg r era w todo idle).paying.rewards.scheduledPayoutAmounts =
        idle.paying.rewards.scheduledPayoutAmounts := by
  induction todo generalizing idle with
  | nil => exact ⟨[], [], rfl, (append_nil _).symm, (append_nil _).symm, fun _ => rfl, rfl⟩
  | cons p todo ih =>
    obtain ⟨val, n⟩ := p
    rw [runPayouts_cons]
    by_cases hwe : (idle.consumedWeight + accessWeight cfg + estimateRunPayoutWeight cfg r val era).toNat ≤ w.toNat
    · rw [if_pos hwe]
      obtain ⟨done, rest, rfl, hru, hco, hl, hamo⟩ := ih (idle.ran cfg r era val n)
      refine ⟨(val, n) :: done, rest, rfl, ?_, ?_, fun hlen => ?_, ?_⟩
      · rw [hru, Idle.ran_runs, append_assoc]
        rfl
      · rw [hco, Idle.ran_completed, append_assoc]
        rfl
      · rw [length_cons] at hlen
        have hpr := idle.ran_left cfg r era val n (by omega)
        have hsum := hl (by omega)
        rw [length_cons]
        omega
      · rw [hamo, Idle.ran_amounts]
    · rw [if_neg hwe]
      exact ⟨[], _, rfl, (append_nil _).symm, (append_nil _).symm, fun _ => rfl, rfl⟩

def serveEra (cfg : Config A) (r : Runner A) (order : A → A → Bool) (s : Paying A)
    (w : Weight) (era : EraIndex) (left : BitVec 32) : Idle A :=
  runPayouts cfg r era w (s.rewards.scheduledPayoutAmounts.iterPrefixBy order era)
    { paying := s, consumedWeight := accessWeight cfg, payoutsLeft := left, payoutsCompleted := [] }

theorem onIdle_cases (cfg : Config A) (r : Runner A) (order : A → A → Bool) (s : Paying A) (w : Weight) :
    ((onIdle cfg r order s w).1 = s ∧
        (w.toNat < (accessWeight cfg).toNat ∨ s.rewards.scheduledPayoutErasAndCounts = [])) ∨
      ∃ era left waiting, s.rewards.scheduledPayoutErasAndCounts = (era, left) :: waiting ∧
        (onIdle cfg r order s w).1 = finishIdle era waiting (serveEra cfg r order s w era left) := by
  by_cases hwe : w.toNat < (accessWeight cfg).toNat
  · refine Or.inl ⟨?_, Or.inl hwe⟩
    rw [onIdle, if_pos hwe]
  · cases hqu : s.rewards.scheduledPayoutErasAndCounts with
    | nil =>
      refine Or.inl ⟨?_, Or.inr rfl⟩
      rw [onIdle, if_neg hwe, hqu]
    | cons first waiting =>
      refine Or.inr ⟨first.1, first.2, waiting, rfl, ?_⟩
      rw [onIdle, if_neg hwe, hqu, serveEra]

theorem runPayouts_runs {val : A} {n : Balance} {todo : List (A × Balance)} {idle : Idle A}
    (hwe : idle.consumedWeight.toNat + (accessWeight cfg).toNat +
      (estimateRunPayoutWeight cfg r val era).toNat ≤ w.toNat) :
    ∃ more, (runPayouts cfg r era w ((val, n) :: todo) idle).paying.runs =
      idle.paying.runs ++ (era, val, n) :: more := by
  have hlt := w.isLt
  have hsum : (idle.consumedWeight + accessWeight cfg + estimateRunPayoutWeight cfg r val era).toNat =
      idle.consumedWeight.toNat + (accessWeight cfg).toNat + (estimateRunPayoutWeight cfg r val era).toNat := by
    rw [BitVec.toNat_add_of_lt (by rw [BitVec.toNat_add_of_lt (by omega)]; omega), BitVec.toNat_add_of_lt (by omega)]
  rw [runPayouts_cons, if_pos (by omega)]
  obtain ⟨done, -, -, hru, -⟩ := runPayouts_spec cfg r era w todo (idle.ran cfg r era val n)
  refine ⟨runsOf era done, ?_⟩
  rw [hru, Idle.ran_runs, append_assoc]
  rfl

end

/-! ### The queue -/

structure History (A : Type) [DecidableEq A] where
  paying : Paying A
  eras : List EraIndex
  scheduled : List (EraIndex × A × Balance)

namespace History

abbrev queue (h : History A) : List (EraIndex × BitVec 32) := h.paying.rewards.scheduledPayoutErasAndCounts

abbrev amounts (h : History A) : StorageMap (EraIndex × A) Balance :=
  h.paying.rewards.scheduledPayoutAmounts

abbrev runs (h : History A) : List (EraIndex × A × Balance) := h.paying.runs

end History

def historyStep [Inhabited A] (cfg : Config A) (order : A → A → Bool) (h : History A) : PayoutOp A → History A
  | .onEndEra validators era duration =>
    match onEndEra cfg h.paying.rewards validators era duration with
    | some rewards =>
      { paying := { h.paying with rewards := rewards }
        eras := h.eras ++ [era]
        scheduled := h.scheduled ++ validators.map fun v => (era, v, rewards.scheduledPayoutAmounts.getD (era, v) 0) }
    | none => h
  | op => { h with paying := payoutStep cfg order h.paying op }

theorem paying_historyStep [Inhabited A] (cfg : Config A) (order : A → A → Bool) (h : History A) (op : PayoutOp A) :
    (historyStep cfg order h op).paying = payoutStep cfg order h.paying op := by
  cases op with
  | onEndEra vs era duration =>
    unfold historyStep payoutStep
    dsimp only
    cases onEndEra cfg h.paying.rewards vs era duration <;> rfl
  | onIdle r w => rfl
  | other t => rfl

structure Queued (h : History A) (pending : List (EraIndex × List (A × Balance))) : Prop where
  queue : h.queue = pending.map fun batch => (batch.1, BitVec.ofNat 32 batch.2.length)
  short : ∀ batch ∈ pending, batch.2.length < 2 ^ 32
  entries : ∀ {e v a}, h.amounts.get? (e, v) = some a ↔ (e, v, a) ∈ pendingRuns pending
  scheduled : h.scheduled.Perm (h.runs ++ pendingRuns pending)
  keys : (h.scheduled.map payoutKey).Nodup
  eras : ∃ finished, h.eras = finished ++ pending.map Prod.fst
  distinct : h.eras.Nodup
  known : ∀ x ∈ h.scheduled, x.1 ∈ h.eras
  empty : ∀ {era}, (era, []) ∈ pending → ∀ x ∈ h.scheduled, x.1 ≠ era
  order : ∀ {l₁ x l₂}, h.runs = l₁ ++ x :: l₂ → ∀ y ∈ h.scheduled, List.Sublist [y.1, x.1] h.eras → y ∈ l₁

namespace Queued

variable {h : History A} {pending : List (EraIndex × List (A × Balance))}

variable {x : EraIndex × A × Balance} {era : EraIndex} {rest : List (EraIndex × List (A × Balance))}

theorem mem_scheduled (Q : Queued h pending) : x ∈ h.scheduled ↔ x ∈ h.runs ∨ x ∈ pendingRuns pending := by
  rw [Q.scheduled.mem_iff, mem_append]

theorem keys_apart (Q : Queued h pending) : ((h.runs ++ pendingRuns pending).map payoutKey).Nodup :=
  (Q.scheduled.map payoutKey).nodup_iff.mp Q.keys

theorem ran_of_finished (Q : Queued h pending) {finished : List EraIndex}
    (heras : h.eras = finished ++ pending.map Prod.fst) (hx : x ∈ h.scheduled) (hera : x.1 ∈ finished) :
    x ∈ h.runs := by
  rcases Q.mem_scheduled.mp hx with hran | hpe
  · exact hran
  · obtain ⟨ps, hba, -⟩ := mem_pendingRuns.mp hpe
    have hdi := Q.distinct
    rw [heras, nodup_append] at hdi
    exact absurd rfl (hdi.2.2 _ hera _ (mem_map_of_mem hba))

theorem perm_batch (Q : Queued h pending) (order : A → A → Bool)
    {payouts : List (A × Balance)} (hba : (era, payouts) ∈ pending) :
    (h.amounts.iterPrefixBy order era).Perm payouts := by
  have hke := ((perm_iterPrefixBy order h.amounts era).map Prod.fst).nodup_iff.mpr (nodup_iterPrefix_keys h.amounts era)
  have hru : (runsOf era payouts).Nodup := by
    have hall : (pendingRuns pending).Nodup := (nodup_append.mp Q.keys_apart.of_map).2.1
    exact (nodup_flatMap.mp hall).1 _ hba
  refine (perm_ext_iff_of_nodup hke.of_map hru.of_map).mpr fun p => ?_
  rw [(perm_iterPrefixBy order h.amounts era).mem_iff, mem_iterPrefix (b := p.1) (v := p.2), Q.entries, mem_pendingRuns]
  obtain ⟨finished, hera⟩ := Q.eras
  have hdi : (pending.map Prod.fst).Nodup := (nodup_append.mp (hera ▸ Q.distinct)).2.1
  constructor
  · rintro ⟨payouts', hba', hp⟩
    obtain ⟨-, rfl⟩ := Prod.mk.inj (inj_on_of_nodup_map hdi hba' hba rfl)
    exact hp
  · intro hp
    exact ⟨payouts, hba, hp⟩

theorem nodup_batch (Q : Queued h pending) {ps : List (A × Balance)} (hba : (era, ps) ∈ pending) :
    (ps.map Prod.fst).Nodup := by
  rw [← ((Q.perm_batch (fun _ _ => true) hba).map Prod.fst).nodup_iff,
    ((perm_iterPrefixBy _ h.amounts era).map Prod.fst).nodup_iff]
  exact nodup_iterPrefix_keys h.amounts era

theorem length_batch (Q : Queued h pending) (order : A → A → Bool)
    {ps : List (A × Balance)} (hba : (era, ps) ∈ pending) :
    (BitVec.ofNat 32 ps.length).toNat = (h.amounts.iterPrefixBy order era).length := by
  rw [BitVec.toNat_ofNat, Nat.mod_eq_of_lt (Q.short _ hba), (Q.perm_batch order hba).length_eq]

theorem first (Q : Queued h pending) {left : BitVec 32} {waiting : List (EraIndex × BitVec 32)}
    (hqu : h.queue = (era, left) :: waiting) : ∃ ps rest, pending = (era, ps) :: rest ∧
      left = BitVec.ofNat 32 ps.length ∧ waiting = rest.map fun batch => (batch.1, BitVec.ofNat 32 batch.2.length) := by
  obtain ⟨⟨era', ps⟩, rest, rfl, hba, hr⟩ := map_eq_cons_iff.mp (Q.queue.symm.trans hqu)
  obtain ⟨rfl, rfl⟩ := Prod.mk.inj hba
  exact ⟨ps, rest, rfl, rfl, hr.symm⟩

theorem ne_of_mem_rest {ps : List (A × Balance)} (Q : Queued h ((era, ps) :: rest))
    (hx : x ∈ pendingRuns rest) : x.1 ≠ era := by
  rintro rfl
  obtain ⟨finished, hera⟩ := Q.eras
  obtain ⟨ps', hba, -⟩ := mem_pendingRuns.mp hx
  have hdi := Q.distinct
  rw [hera, nodup_append, map_cons, nodup_cons] at hdi
  exact hdi.2.1.1 (mem_map.mpr ⟨_, hba, rfl⟩)

theorem entries_requeue {ps done left : List (A × Balance)} (Q : Queued h ((era, ps) :: rest))
    (hpe : (done ++ left).Perm ps) {e : EraIndex} {v : A} {a : Balance} :
    ¬(e = era ∧ v ∈ done.map Prod.fst) ∧ h.amounts.get? (e, v) = some a ↔
      (e, v, a) ∈ pendingRuns (requeue era left rest) := by
  have hr : (e, v, a) ∈ pendingRuns rest → e ≠ era := Q.ne_of_mem_rest
  have hke : ((done ++ left).map Prod.fst).Nodup := (hpe.map Prod.fst).nodup_iff.mpr (Q.nodup_batch mem_cons_self)
  rw [map_append, nodup_append] at hke
  have hl : (v, a) ∈ left → v ∉ done.map Prod.fst := fun hmem hdo =>
    hke.2.2 v hdo v (mem_map_of_mem hmem) rfl
  have hdo : (v, a) ∈ done → v ∈ done.map Prod.fst := fun hmem => mem_map_of_mem hmem
  rw [Q.entries, pendingRuns_cons, pendingRuns_requeue, mem_append, mem_append, mem_runsOf, mem_runsOf,
    ← hpe.mem_iff, mem_append]
  tauto

theorem serve {ps : List (A × Balance)} (done left : List (A × Balance))
    (Q : Queued h ((era, ps) :: rest)) (hpe : (done ++ left).Perm ps) {paying : Paying A}
    (hqu : paying.rewards.scheduledPayoutErasAndCounts =
      (requeue era left rest).map fun batch => (batch.1, BitVec.ofNat 32 batch.2.length))
    (hamo : ∀ e v a, paying.rewards.scheduledPayoutAmounts.get? (e, v) = some a ↔
      ¬(e = era ∧ v ∈ done.map Prod.fst) ∧ h.amounts.get? (e, v) = some a)
    (hru : paying.runs = h.runs ++ runsOf era done) : Queued { h with paying := paying } (requeue era left rest) := by
  obtain ⟨finished, hera⟩ := Q.eras
  have hsp : (runsOf era ps).Perm (runsOf era done ++ runsOf era left) := by
    unfold runsOf
    rw [← map_append]
    exact (hpe.map _).symm
  have hsc : h.scheduled.Perm (paying.runs ++ pendingRuns (requeue era left rest)) := by
    refine Q.scheduled.trans ?_
    rw [pendingRuns_cons, pendingRuns_requeue, hru, append_assoc, ← append_assoc (runsOf era done)]
    exact (hsp.append_right _).append_left _
  refine ⟨hqu, fun batch hba => ?_, fun {e v a} => ?_, hsc, Q.keys, ?_, Q.distinct, Q.known,
    fun {e} he x hx => ?_, fun {l₁ x l₂} heq y hy hbe => ?_⟩
  · rcases mem_requeue hba with hr | ⟨rfl, -⟩
    · exact Q.short batch (mem_cons_of_mem _ hr)
    · have hlen := hpe.length_eq
      have hsh := Q.short _ mem_cons_self
      rw [length_append] at hlen
      dsimp only at hsh ⊢
      omega
  · exact (hamo e v a).trans (Q.entries_requeue hpe)
  · unfold requeue
    split
    · exact ⟨finished ++ [era], by rw [append_assoc]; exact hera⟩
    · exact ⟨finished, hera⟩
  · rcases mem_requeue he with hr | ⟨heq, hl⟩
    · exact Q.empty (mem_cons_of_mem _ hr) x hx
    · exact absurd (Prod.mk.inj heq).2.symm hl
  · refine mem_left_of_append (hru.symm.trans heq) (fun hk => Q.order hk y hy hbe) fun hx => ?_
    have hdi := Q.distinct
    refine Q.ran_of_finished hera hy ?_
    rw [(mem_runsOf.mp hx).1] at hbe
    rw [hera] at hdi hbe
    exact mem_left_of_sublist hdi hbe

theorem schedule (Q : Queued h pending) {payouts : List (A × Balance)} (hera : era ∉ h.eras)
    (hno : (payouts.map Prod.fst).Nodup) (hsh : payouts.length < 2 ^ 32) {rewards : State A}
    (hqu : rewards.scheduledPayoutErasAndCounts = h.queue ++ [(era, BitVec.ofNat 32 payouts.length)])
    (hamo : ∀ e v a, rewards.scheduledPayoutAmounts.get? (e, v) = some a ↔
      e = era ∧ (v, a) ∈ payouts ∨ (e ≠ era ∨ v ∉ payouts.map Prod.fst) ∧ h.amounts.get? (e, v) = some a) :
    Queued ⟨{ h.paying with rewards := rewards }, h.eras ++ [era], h.scheduled ++ runsOf era payouts⟩
      (pending ++ [(era, payouts)]) := by
  obtain ⟨finished, heras⟩ := Q.eras
  have hru : pendingRuns (pending ++ [(era, payouts)]) = pendingRuns pending ++ runsOf era payouts := by
    unfold pendingRuns
    rw [flatMap_append, flatMap_singleton]
  have hoth (x) (hx : x ∈ h.scheduled) : x.1 ≠ era := fun heq => hera (heq ▸ Q.known x hx)
  refine ⟨?_, ?_, fun {e v a} => ?_, ?_, ?_, ⟨finished, ?_⟩, ?_, ?_, fun {e} he x hx => ?_,
    fun {l₁ x l₂} heq y hy hbe => ?_⟩
  · show rewards.scheduledPayoutErasAndCounts = _
    rw [hqu, Q.queue, map_append]
    rfl
  · exact forall_mem_append.mpr ⟨Q.short, forall_mem_singleton.mpr hsh⟩
  · have hold : h.amounts.get? (e, v) = some a → e ≠ era := fun hget =>
      hoth (e, v, a) (Q.mem_scheduled.mpr (Or.inr (Q.entries.mp hget)))
    show rewards.scheduledPayoutAmounts.get? (e, v) = some a ↔ _
    rw [hamo, hru, mem_append, mem_runsOf, ← Q.entries]
    tauto
  · show (h.scheduled ++ runsOf era payouts).Perm (h.runs ++ _)
    rw [hru, ← append_assoc]
    exact Q.scheduled.append_right _
  · show ((h.scheduled ++ runsOf era payouts).map payoutKey).Nodup
    rw [map_append, nodup_append]
    refine ⟨Q.keys, nodup_keys_runsOf era hno, fun k hk k' hk' heq => ?_⟩
    obtain ⟨x, hx, rfl⟩ := mem_map.mp hk
    obtain ⟨x', hx', rfl⟩ := mem_map.mp hk'
    exact hoth x hx ((Prod.mk.inj heq).1.trans (mem_runsOf.mp hx').1)
  · show h.eras ++ [era] = _
    rw [heras, map_append, append_assoc]
    rfl
  · exact nodup_append.mpr ⟨Q.distinct, nodup_singleton _, fun e he e' he' heq =>
      hera (mem_singleton.mp he' ▸ heq ▸ he)⟩
  · intro x hx
    rcases mem_append.mp hx with hx | hx
    · exact mem_append_left _ (Q.known x hx)
    · exact mem_append_right _ (mem_singleton.mpr (mem_runsOf.mp hx).1)
  · rcases mem_append.mp he with hpe | hnew
    · have hkn : e ∈ h.eras := by
        rw [heras]
        exact mem_append_right _ (mem_map_of_mem hpe)
      rcases mem_append.mp hx with hx | hx
      · exact Q.empty hpe x hx
      · rw [(mem_runsOf.mp hx).1]
        exact fun heq => hera (heq ▸ hkn)
    · obtain ⟨rfl, rfl⟩ := Prod.mk.inj (mem_singleton.mp hnew)
      rcases mem_append.mp hx with hx | hx
      · exact hoth x hx
      · cases hx
  · have hx : x ∈ h.scheduled := Q.mem_scheduled.mpr (Or.inl (by rw [show h.runs = _ from heq]; simp))
    have hbe : List.Sublist [y.1, x.1] h.eras := sublist_of_concat (hoth x hx) hbe
    refine Q.order heq y ?_ hbe
    rcases mem_append.mp hy with hy | hy
    · exact hy
    · have hkn : y.1 ∈ h.eras := hbe.subset mem_cons_self
      rw [(mem_runsOf.mp hy).1] at hkn
      exact absurd hkn hera

end Queued

structure Served (h : History A) (order : A → A → Bool) (era : EraIndex) (left : BitVec 32)
    (done todo : List (A × Balance)) (idle : Idle A) : Prop where
  split : h.amounts.iterPrefixBy order era = done ++ todo
  runs : idle.paying.runs = h.runs ++ runsOf era done
  completed : idle.payoutsCompleted = done.map Prod.fst
  counted : left.toNat = done.length + todo.length
  left : idle.payoutsLeft = BitVec.ofNat 32 todo.length
  amounts : idle.paying.rewards.scheduledPayoutAmounts = h.amounts

theorem Served.queue {h : History A} {order : A → A → Bool} {era : EraIndex} {left : BitVec 32}
    {done todo : List (A × Balance)} {idle : Idle A}
    (S : Served h order era left done todo idle) (rest : List (EraIndex × List (A × Balance))) :
    (finishIdle era (rest.map fun batch => (batch.1, BitVec.ofNat 32 batch.2.length))
        idle).rewards.scheduledPayoutErasAndCounts =
      (requeue era todo rest).map fun batch => (batch.1, BitVec.ofNat 32 batch.2.length) := by
  have hr := left.isLt
  have hco := S.counted
  have hz : idle.payoutsLeft = 0 ↔ todo = [] := by
    rw [S.left, ← Word.toNat_eq_zero, BitVec.toNat_ofNat, Nat.mod_eq_of_lt (by omega), length_eq_zero_iff]
  unfold finishIdle requeue
  dsimp only
  by_cases hn : todo = []
  · rw [if_pos (hz.mpr hn), if_pos hn]
  · rw [if_neg (fun h => hn (hz.mp h)), if_neg hn, map_cons, S.left]

/-- An era ends once, with distinct validators that a `u32` can count. -/
def EndsOnce (h : History A) : PayoutOp A → Prop
  | .onEndEra validators era _ => era ∉ h.eras ∧ validators.Nodup ∧ validators.length < 2 ^ 32
  | .onIdle _ _ | .other _ => True

section
variable [Inhabited A] {cfg : Config A} {order : A → A → Bool} {h : History A}
  {pending : List (EraIndex × List (A × Balance))}

theorem Queued.onEndEra (Q : Queued h pending) {validators : List A} {era : EraIndex} {duration : BitVec 64}
    (hop : EndsOnce h (.onEndEra validators era duration)) :
    ∃ pending', Queued (historyStep cfg order h (.onEndEra validators era duration)) pending' := by
  obtain ⟨hera, hno, hsh⟩ := hop
  unfold historyStep
  dsimp only
  cases hend : Rewards.onEndEra cfg h.paying.rewards validators era duration with
  | none => exact ⟨pending, Q⟩
  | some rewards =>
    obtain ⟨payouts, remainder, hca, -, hamo, hco⟩ := onEndEra_inv cfg era hend
    obtain rfl : payouts.map Prod.fst = validators := fst_takePayouts hca
    rw [length_map] at hco hsh
    have hget (e : EraIndex) (v : A) (a : Balance) : rewards.scheduledPayoutAmounts.get? (e, v) = some a ↔
        e = era ∧ (v, a) ∈ payouts ∨ (e ≠ era ∨ v ∉ payouts.map Prod.fst) ∧ h.amounts.get? (e, v) = some a := by
      rw [hamo]
      exact get?_insertPayouts_eq_some hno
    have hru : (payouts.map Prod.fst).map (fun v => (era, v, rewards.scheduledPayoutAmounts.getD (era, v) 0)) =
        runsOf era payouts := by
      unfold runsOf
      rw [map_map]
      refine map_congr_left fun p hp => ?_
      have hamn : rewards.scheduledPayoutAmounts.getD (era, p.1) 0 = p.2 :=
        getD_of_get? ((hget era p.1 p.2).mpr (Or.inl ⟨rfl, hp⟩))
      simp only [Function.comp_apply, hamn]
    dsimp only
    rw [hru]
    exact ⟨_, Q.schedule hera hno hsh hco hget⟩

theorem Queued.served {era : EraIndex} {ps : List (A × Balance)}
    {rest : List (EraIndex × List (A × Balance))} (Q : Queued h ((era, ps) :: rest))
    (cfg : Config A) (r : Runner A) (order : A → A → Bool) (w : Weight) :
    ∃ done todo, Served h order era (BitVec.ofNat 32 ps.length) done todo
      (serveEra cfg r order h.paying w era (BitVec.ofNat 32 ps.length)) := by
  have hlen := Q.length_batch order mem_cons_self
  have hsh := (BitVec.ofNat 32 ps.length).isLt
  obtain ⟨done, todo, hto, hru, hco, hl, hamo⟩ := runPayouts_spec cfg r era w
    (h.amounts.iterPrefixBy order era) ⟨h.paying, accessWeight cfg, BitVec.ofNat 32 ps.length, []⟩
  have hsum : (h.amounts.iterPrefixBy order era).length = done.length + todo.length := by
    rw [hto, length_append]
  have hcn : (serveEra cfg r order h.paying w era (BitVec.ofNat 32 ps.length)).payoutsLeft.toNat +
      done.length = (BitVec.ofNat 32 ps.length).toNat := hl (Nat.le_of_eq hlen.symm)
  refine ⟨done, todo, hto, hru, hco, by omega, BitVec.eq_of_toNat_eq ?_, hamo⟩
  rw [BitVec.toNat_ofNat, Nat.mod_eq_of_lt (by omega)]
  omega

theorem Queued.onIdle (Q : Queued h pending) (r : Runner A) (w : Weight) :
    ∃ pending', Queued (historyStep cfg order h (.onIdle r w)) pending' := by
  show ∃ pending', Queued { h with paying := (Rewards.onIdle cfg r order h.paying w).1 } pending'
  rcases onIdle_cases cfg r order h.paying w with ⟨hs, -⟩ | ⟨era, left, waiting, hqu, hse⟩
  · rw [hs]
    exact ⟨pending, Q⟩
  · obtain ⟨ps, rest, rfl, rfl, rfl⟩ := Q.first hqu
    obtain ⟨done, todo, S⟩ := Q.served cfg r order w
    refine ⟨requeue era todo rest, Q.serve done todo ?_ ?_ ?_ ?_⟩
    · rw [← S.split]
      exact Q.perm_batch order mem_cons_self
    · rw [hse]
      exact S.queue rest
    · intro e v a
      rw [hse, get?_finishIdle, S.completed, S.amounts]
    · rw [hse]
      exact S.runs

theorem Queued.step (Q : Queued h pending) {op : PayoutOp A} (hop : EndsOnce h op) :
    ∃ pending', Queued (historyStep cfg order h op) pending' := by
  cases op with
  | onEndEra vs era duration => exact Q.onEndEra hop
  | onIdle r w => exact Q.onIdle r w
  | other t =>
    exact ⟨pending, Q.queue, Q.short, Q.entries, Q.scheduled, Q.keys, Q.eras, Q.distinct, Q.known, Q.empty, Q.order⟩

/-- Payouts run once, as scheduled, and in the order of their eras; counts and amounts in storage are those of the
payouts that have not run. -/
structure PayoutsSound (cfg : Config A) (order : A → A → Bool) (h : History A) : Prop where
  scheduledOnce : (h.scheduled.map payoutKey).Nodup
  runOnce : (h.runs.map payoutKey).Nodup
  asScheduled : ∀ x ∈ h.runs, x ∈ h.scheduled
  inOrder : ∀ l₁ x l₂, h.runs = l₁ ++ x :: l₂ → ∀ y ∈ h.scheduled, List.Sublist [y.1, x.1] h.eras → y ∈ l₁
  unpaid : ∀ e v a, h.amounts.get? (e, v) = some a ↔ (e, v, a) ∈ h.scheduled ∧ (e, v, a) ∉ h.runs
  counts : ∀ era left, (era, left) ∈ h.queue → left.toNat = (h.amounts.iterPrefix era).length
  queued : ∀ e v a, h.amounts.get? (e, v) = some a → ∃ left, (e, left) ∈ h.queue
  /-- The count of an era does not underflow while it is served. -/
  noUnderflow : ∀ r w era left waiting, h.queue = (era, left) :: waiting →
    (serveEra cfg r order h.paying w era left).payoutsLeft.toNat +
      (serveEra cfg r order h.paying w era left).payoutsCompleted.length = left.toNat
  /-- With enough weight for the next payout it is run. -/
  progress : ∀ r w era left waiting val n rest, h.queue = (era, left) :: waiting →
    h.amounts.iterPrefixBy order era = (val, n) :: rest →
    2 * (accessWeight cfg).toNat + (estimateRunPayoutWeight cfg r val era).toNat ≤ w.toNat →
    ∃ more, (onIdle cfg r order h.paying w).1.runs = h.runs ++ (era, val, n) :: more
  /-- An era without payouts had none, and is dropped. -/
  dropped : ∀ r w era left waiting, h.queue = (era, left) :: waiting → h.amounts.iterPrefixBy order era = [] →
    (∀ x ∈ h.scheduled, x.1 ≠ era) ∧ ((accessWeight cfg).toNat ≤ w.toNat →
      (onIdle cfg r order h.paying w).1.rewards.scheduledPayoutErasAndCounts = waiting)

theorem Queued.sound (Q : Queued h pending) : PayoutsSound cfg order h := by
  have hke := Q.keys_apart
  rw [map_append, nodup_append] at hke
  have hse {r w era left waiting} (hqu : h.queue = (era, left) :: waiting)
      (hwe : (accessWeight cfg).toNat ≤ w.toNat) : (Rewards.onIdle cfg r order h.paying w).1 =
        finishIdle era waiting (serveEra cfg r order h.paying w era left) := by
    rcases onIdle_cases cfg r order h.paying w with ⟨-, hlow | hnil⟩ | ⟨era', left', waiting', hqu', heq⟩
    · omega
    · cases hnil.symm.trans hqu
    · cases hqu'.symm.trans hqu
      exact heq
  refine ⟨Q.keys, hke.1, fun x hx => Q.mem_scheduled.mpr (Or.inl hx), fun l₁ x l₂ => Q.order, fun e v a => ?_,
    fun era left hmem => ?_, fun e v a hget => ?_, fun r w era left waiting hqu => ?_,
    fun r w era left waiting val n rest hqu hnx hwe => ?_,
    fun r w era left waiting hqu hn => ?_⟩
  · rw [Q.entries, Q.mem_scheduled]
    have hapa : (e, v, a) ∈ pendingRuns pending → (e, v, a) ∉ h.runs := fun hpe hran =>
      hke.2.2 _ (mem_map_of_mem hran) _ (mem_map_of_mem hpe) rfl
    tauto
  · rw [Q.queue] at hmem
    obtain ⟨⟨era', ps⟩, hba, heq⟩ := mem_map.mp hmem
    obtain ⟨rfl, rfl⟩ := Prod.mk.inj heq
    rw [← (perm_iterPrefixBy order h.amounts era').length_eq]
    exact Q.length_batch order hba
  · obtain ⟨ps, hba, -⟩ := mem_pendingRuns.mp (Q.entries.mp hget)
    rw [Q.queue]
    exact ⟨_, mem_map.mpr ⟨_, hba, rfl⟩⟩
  · obtain ⟨ps, rest, rfl, rfl, -⟩ := Q.first hqu
    obtain ⟨done, todo, S⟩ := Q.served cfg r order w
    have hco := S.counted
    have hr := (BitVec.ofNat 32 ps.length).isLt
    rw [S.left, S.completed, length_map, BitVec.toNat_ofNat, Nat.mod_eq_of_lt (by omega)]
    omega
  · rw [hse hqu (by omega)]
    show ∃ more, (serveEra cfg r order h.paying w era left).paying.runs = _
    unfold serveEra
    rw [hnx]
    exact runPayouts_runs (by dsimp only; omega)
  · obtain ⟨ps, rest, rfl, rfl, rfl⟩ := Q.first hqu
    obtain ⟨done, todo, S⟩ := Q.served cfg r order w
    have hnil : ps = [] := (hn ▸ Q.perm_batch order mem_cons_self).nil_eq.symm
    refine ⟨Q.empty (hnil ▸ mem_cons_self), fun hwe => ?_⟩
    have hdo := S.split
    rw [hn] at hdo
    obtain ⟨rfl, rfl⟩ := append_eq_nil_iff.mp hdo.symm
    rw [hse hqu hwe, S.queue rest]
    rfl

def History.start (rewards : State A) : History A := ⟨⟨rewards, []⟩, [], []⟩

/-- In every run in which eras end once, with distinct validators. -/
theorem payouts_run_once (cfg : Config A) (order : A → A → Bool) (rewards : State A)
    (hqueue : rewards.scheduledPayoutErasAndCounts = []) (hamounts : rewards.scheduledPayoutAmounts = ∅)
    (ops : List (PayoutOp A)) (hrun : Steps.Each (historyStep cfg order) EndsOnce (.start rewards) ops)
    (done : List (PayoutOp A)) (hdone : done <+: ops) :
    PayoutsSound cfg order (Steps.execute (historyStep cfg order) (.start rewards) done) := by
  have hst : Queued (History.start rewards) [] := by
    refine ⟨hqueue, fun batch hba => ?_, fun {e v a} => ?_, List.Perm.nil, nodup_nil, ⟨[], rfl⟩, nodup_nil,
      fun x hx => ?_, fun hera => ?_, fun {l₁ x l₂} heq => ?_⟩
    · cases hba
    · show rewards.scheduledPayoutAmounts.get? (e, v) = some a ↔ _
      rw [hamounts, get?_empty]
      exact iff_of_false (fun h => by cases h) (fun h => by cases h)
    · cases hx
    · cases hera
    · cases l₁ <;> cases heq
  obtain ⟨pending, Q⟩ := hrun.throughout (I := fun h => ∃ pending, Queued h pending) (fun _ _ hop ⟨_, Q⟩ => Q.step hop)
    ⟨[], hst⟩ hdone
  exact Q.sound

end

instance (h : History A) : (op : PayoutOp A) → Decidable (EndsOnce h op)
  | .onEndEra .. => inferInstanceAs (Decidable (_ ∧ _ ∧ _))
  | .onIdle _ _ | .other _ => isTrue trivial

def soloRunner : Runner Nat where
  erasStakersClipped _ _ := ⟨1, 1, []⟩
  commission _ _ := Perbill.fromPercent 0
  processRewardPayouts _ := 1000

def weightForTwo : Weight := 500000000

theorem payouts_of_two_eras :
    let ops : List (PayoutOp Nat) := [.onEndEra [1, 2, 3] 1 86400000, .onIdle soloRunner weightForTwo,
      .onEndEra [1] 2 86400000, .onIdle soloRunner weightForTwo, .onIdle soloRunner weightForTwo]
    let h := Steps.execute (historyStep sampleConfig fun a b => decide (a ≤ b)) (.start (eraOf 300 [1, 2, 3])) ops
    h.runs = [(1, 1, 100), (1, 2, 100), (1, 3, 100), (2, 1, 0)] ∧ h.queue = [] ∧
      PayoutsSound sampleConfig (fun a b => decide (a ≤ b)) h := by
  intro ops h
  refine ⟨by decide +kernel, by decide +kernel, ?_⟩
  exact payouts_run_once sampleConfig _ (eraOf 300 [1, 2, 3]) rfl rfl ops (by decide +kernel) ops prefix_rfl

/-- Era 1 ends without validators, and era 2 with one. Its payout is run by the second call of the hook only, for all
the weight there is. -/
theorem empty_era_served_first :
    let h := Steps.execute (historyStep sampleConfig fun a b => decide (a ≤ b)) (.start (eraOf 100 [1]))
      [.onEndEra [] 1 86400000, .onEndEra [1] 2 86400000]
    let s := (onIdle sampleConfig soloRunner (fun a b => decide (a ≤ b)) h.paying (BitVec.allOnes 64)).1
    let s' := (onIdle sampleConfig soloRunner (fun a b => decide (a ≤ b)) s (BitVec.allOnes 64)).1
    h.queue = [(1, 0), (2, 1)] ∧ h.scheduled = [(2, 1, 0)] ∧ s.runs = [] ∧ s'.runs = [(2, 1, 0)] := by
  decide +kernel

end Rewards
