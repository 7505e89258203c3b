import Cennznet.Theorems.Staking.ApplySlash

/-! # Slashing spans: the worst era counts

A new span has an index that was never compared with. -/

namespace Staking.Slashing

open StorageMap List

open GenericAsset (Balance)

/-! ### Indices of spans -/

namespace SlashingSpans

def Holds (spans : SlashingSpans) (index : SpanIndex) : Prop :=
  spans.spanIndex.toNat - spans.prior.length ≤ index.toNat ∧ index.toNat ≤ spans.spanIndex.toNat

structure Ordered (spans : SlashingSpans) : Prop where
  prior_le : spans.prior.length ≤ spans.spanIndex.toNat
  index_le : spans.spanIndex.toNat ≤ spans.lastStart.toNat

variable {spans : SlashingSpans} {span : SlashingSpan} {era now windowStart : EraIndex} {index : SpanIndex}

theorem index_of_mem_priorSpans {prior : List EraIndex} {start : EraIndex} (hlen : prior.length ≤ index.toNat)
    (hsp : span ∈ priorSpans start index prior) :
    index.toNat - prior.length ≤ span.index.toNat ∧ span.index.toNat < index.toNat := by
  induction prior generalizing start index with
  | nil => cases hsp
  | cons length prior ih =>
    rw [length_cons] at hlen
    have hpr : (index - 1).toNat = index.toNat - 1 := by bv_omega
    rw [priorSpans] at hsp
    rcases mem_cons.mp hsp with rfl | hmem
    · rw [length_cons, hpr]
      omega
    · have hta := ih (by omega) hmem
      rw [length_cons]
      omega

theorem Ordered.holds (ho : spans.Ordered) (hsp : span ∈ spans.iter) : spans.Holds span.index := by
  rcases mem_cons.mp hsp with rfl | hmem
  · exact ⟨Nat.sub_le _ _, Nat.le_refl _⟩
  · have hix := index_of_mem_priorSpans ho.prior_le hmem
    exact ⟨hix.1, hix.2.le⟩

structure Next (spans spans' : SlashingSpans) : Prop where
  index : spans'.spanIndex.toNat = spans.spanIndex.toNat + 1
  prior : spans'.prior.length = spans.prior.length + 1
  start : spans.lastStart.toNat < spans'.lastStart.toNat

theorem Ordered.endSpan_cases (ho : spans.Ordered) (now : EraIndex) :
    spans.endSpan now = (spans, false) ∨ (spans.endSpan now).2 = true ∧ spans.Next (spans.endSpan now).1 := by
  by_cases hla : (now + 1).toNat ≤ spans.lastStart.toNat
  · exact .inl (if_pos hla)
  · have hed : spans.endSpan now = ({ spans with
        prior := (now + 1 - spans.lastStart) :: spans.prior
        lastStart := now + 1
        spanIndex := spans.spanIndex + 1 }, true) := if_neg hla
    have hix := ho.index_le
    have hlt := (now + 1).isLt
    rw [hed]
    refine .inr ⟨rfl, ?_, rfl, Nat.lt_of_not_le hla⟩
    show (spans.spanIndex + 1).toNat = _
    bv_omega

theorem Next.ordered {spans' : SlashingSpans} (hx : spans.Next spans') (ho : spans.Ordered) : spans'.Ordered := by
  obtain ⟨hix, hpr, hst⟩ := hx
  obtain ⟨hle, hle'⟩ := ho
  exact ⟨by omega, by omega⟩

theorem Next.holds_iff {spans' : SlashingSpans} (hx : spans.Next spans') (ho : spans.Ordered) :
    spans'.Holds index ↔ spans.Holds index ∨ index.toNat = spans'.spanIndex.toNat := by
  obtain ⟨hix, hpr, -⟩ := hx
  have hle := ho.prior_le
  unfold Holds
  omega

def Drops (pruned : Option (SpanIndex × SpanIndex)) (index : SpanIndex) : Prop :=
  ∃ first last, pruned = some (first, last) ∧ first.toNat ≤ index.toNat ∧ index.toNat < last.toNat

theorem prune_spanIndex : (spans.prune windowStart).1.spanIndex = spans.spanIndex := rfl

theorem prune_lastStart : spans.lastStart.toNat ≤ (spans.prune windowStart).1.lastStart.toNat := by
  show _ ≤ (if spans.lastStart.toNat ≤ windowStart.toNat then windowStart else spans.lastStart).toNat
  split
  · assumption
  · exact Nat.le_refl _

theorem prune_cases (spans : SlashingSpans) (windowStart : EraIndex) :
    (spans.prune windowStart).1.prior = spans.prior ∧ (spans.prune windowStart).2 = none ∨
    ∃ o, (spans.prune windowStart).1.prior = spans.prior.take o ∧ (spans.prune windowStart).2 =
      some (spans.spanIndex - BitVec.ofNat 32 spans.prior.length,
        spans.spanIndex - BitVec.ofNat 32 (spans.prior.take o).length) := by
  unfold prune
  cases (spans.iter.drop 1).findIdx? (endedBefore windowStart) with
  | none => exact .inl ⟨rfl, rfl⟩
  | some o => exact .inr ⟨o, rfl, rfl⟩

theorem prune_prior_le (spans : SlashingSpans) (windowStart : EraIndex) :
    (spans.prune windowStart).1.prior.length ≤ spans.prior.length := by
  obtain ⟨hpr, -⟩ | ⟨o, hpr, -⟩ := spans.prune_cases windowStart
  · rw [hpr]
  · rw [hpr]
    exact length_take_le' o spans.prior

theorem Ordered.prune (ho : spans.Ordered) : (spans.prune windowStart).1.Ordered where
  prior_le := (prune_prior_le spans _).trans ho.prior_le
  index_le := ho.index_le.trans prune_lastStart

theorem holds_of_prune (h : (spans.prune windowStart).1.Holds index) : spans.Holds index := by
  have hpr := spans.prune_prior_le windowStart
  obtain ⟨hfi, hl⟩ := h
  rw [prune_spanIndex] at hfi hl
  exact ⟨by omega, hl⟩

theorem toNat_sub_length {n : Nat} (h : n ≤ index.toNat) : (index - BitVec.ofNat 32 n).toNat = index.toNat - n := by
  bv_omega

theorem Ordered.not_drops (ho : spans.Ordered) (h : (spans.prune windowStart).1.Holds index) :
    ¬ Drops (spans.prune windowStart).2 index := by
  rintro ⟨first, last, hpr, -, hl⟩
  obtain ⟨-, hn⟩ | ⟨o, hpri, hso⟩ := spans.prune_cases windowStart
  · rw [hn] at hpr
    cases hpr
  · rw [hso] at hpr
    cases hpr
    have hle := (length_take_le' o spans.prior).trans ho.prior_le
    have hfi := h.1
    rw [prune_spanIndex, hpri] at hfi
    rw [toNat_sub_length hle] at hl
    omega

end SlashingSpans

section
variable {A : Type}

/-- A record holds the worst of the slashes compared, which was slashed in parts, and the rewards, which are within the
share of the reporters. -/
structure Accounts (rewardProportion : Perbill) (record : SpanRecord) (outcomes : List (SpanOutcome A)) :
    Prop where
  worst : record.slashed.toNat = (outcomes.map (·.compared.toNat)).foldl max 0
  slashed : (outcomes.map (·.slashed.toNat)).sum = record.slashed.toNat
  rewards : (outcomes.map (·.reward.toNat)).sum = record.paidOut.toNat
  paid_le : record.paidOut.toNat ≤ (rewardProportion.mul record.slashed).toNat

structure Compared (rewardProportion : Perbill) (slash : Balance) (record record' : SpanRecord)
    (amount reward : Balance) : Prop where
  slashed : record'.slashed.toNat = max record.slashed.toNat slash.toNat
  amount : record.slashed.toNat + amount.toNat = record'.slashed.toNat
  reward : record.paidOut.toNat + reward.toNat = record'.paidOut.toNat
  paid_le : record'.paidOut.toNat ≤ max record.paidOut.toNat (rewardProportion.mul record'.slashed).toNat

variable {rewardProportion proportion : Perbill} {record record' : SpanRecord}

theorem Compared.grow {slash reward : Balance} (hsl : record.slashed.toNat ≤ slash.toNat)
    (hre : reward.toNat ≤ (rewardProportion.mul slash).toNat - record.paidOut.toNat) :
    Compared rewardProportion slash record ⟨slash, record.paidOut + reward⟩ (slash - record.slashed) reward := by
  have hsh := (rewardProportion.mul slash).isLt
  have hp := record.paidOut.isLt
  have hsum : (record.paidOut + reward).toNat = record.paidOut.toNat + reward.toNat := by
    rw [BitVec.toNat_add]
    exact Nat.mod_eq_of_lt (by omega)
  refine ⟨(Nat.max_eq_right hsl).symm, ?_, hsum.symm, ?_⟩
  · show record.slashed.toNat + (slash - record.slashed).toNat = slash.toNat
    rw [BitVec.toNat_sub_of_le hsl]
    omega
  · show (record.paidOut + reward).toNat ≤ max _ (rewardProportion.mul slash).toNat
    omega

theorem Compared.same {slash : Balance} (hsl : slash.toNat ≤ record.slashed.toNat) :
    Compared rewardProportion slash record record 0 0 where
  slashed := (Nat.max_eq_left hsl).symm
  amount := rfl
  reward := rfl
  paid_le := Nat.le_max_left _ _

theorem Accounts.empty : Accounts rewardProportion default ([] : List (SpanOutcome A)) where
  worst := rfl
  slashed := rfl
  rewards := rfl
  paid_le := Nat.zero_le _

theorem Accounts.append {outcomes : List (SpanOutcome A)} {outcome : SpanOutcome A}
    (ha : Accounts rewardProportion record outcomes)
    (hc : Compared proportion outcome.compared record record' outcome.slashed outcome.reward)
    (hle : proportion.parts ≤ rewardProportion.parts) :
    Accounts rewardProportion record' (outcomes ++ [outcome]) where
  worst := by
    rw [map_append, foldl_append, ← ha.worst]
    exact hc.slashed
  slashed := by
    rw [map_append, sum_append, ha.slashed, ← hc.amount]
    rfl
  rewards := by
    rw [map_append, sum_append, ha.rewards, ← hc.reward]
    rfl
  paid_le := by
    have hgr : record.slashed.toNat ≤ record'.slashed.toNat := by
      rw [← hc.amount]
      exact Nat.le_add_right _ _
    have hbe : record.paidOut.toNat ≤ (rewardProportion.mul record'.slashed).toNat :=
      ha.paid_le.trans (Perbill.mul_le_mul (Nat.le_refl _) hgr)
    exact hc.paid_le.trans (Nat.max_le.mpr ⟨hbe, Perbill.mul_le_mul hle (Nat.le_refl _)⟩)

/-- A record accounts for the outcomes of a span that is held, and an index not reached has neither. -/
structure Track (rewardProportion : Perbill) (spans : Option SlashingSpans) (record : SpanIndex → SpanRecord)
    (outcomes : SpanIndex → List (SpanOutcome A)) : Prop where
  ordered : ∀ spans' ∈ spans, spans'.Ordered
  accounts : ∀ spans' ∈ spans, ∀ index, spans'.Holds index → Accounts rewardProportion (record index) (outcomes index)
  fresh : ∀ index, (∀ spans' ∈ spans, spans'.spanIndex.toNat < index.toNat) →
    record index = default ∧ outcomes index = []

namespace Track

variable {spans spans' : SlashingSpans} {record : SpanIndex → SpanRecord}
  {outcomes : SpanIndex → List (SpanOutcome A)} {windowStart : EraIndex}

theorem init : Track rewardProportion none (fun _ => default) (fun _ => ([] : List (SpanOutcome A))) where
  ordered _ h := by cases h
  accounts _ h := by cases h
  fresh _ _ := ⟨rfl, rfl⟩

theorem start (ht : Track rewardProportion none record outcomes) :
    Track rewardProportion (some (.new windowStart)) record outcomes where
  ordered _ h := by
    cases h
    exact ⟨Nat.le_refl 0, Nat.zero_le _⟩
  accounts _ h index _ := by
    obtain ⟨hre, hn⟩ := ht.fresh index (fun _ h => by cases h)
    rw [hre, hn]
    exact .empty
  fresh index _ := ht.fresh index (fun _ h => by cases h)

variable (ht : Track rewardProportion (some spans) record outcomes)
include ht

theorem touch (hix : spans'.spanIndex = spans.spanIndex)
    (hpr : spans'.prior = spans.prior) (hst : spans'.lastStart = spans.lastStart) :
    Track rewardProportion (some spans') record outcomes where
  ordered _ h := by
    cases h
    obtain ⟨hle, hle'⟩ := ht.ordered spans rfl
    exact ⟨by rwa [hpr, hix], by rwa [hix, hst]⟩
  accounts _ h index hho := by
    cases h
    refine ht.accounts spans rfl index ?_
    rwa [SlashingSpans.Holds, hix, hpr] at hho
  fresh index h := by
    refine ht.fresh index fun _ hsp => ?_
    cases hsp
    rw [← hix]
    exact h spans' rfl

theorem next (hx : spans.Next spans') :
    Track rewardProportion (some spans') record outcomes where
  ordered _ h := by
    cases h
    exact hx.ordered (ht.ordered spans rfl)
  accounts _ h index hho := by
    cases h
    rcases (hx.holds_iff (ht.ordered spans rfl)).mp hho with hold | hnew
    · exact ht.accounts spans rfl index hold
    · have hfr : ∀ spans'' ∈ some spans, spans''.spanIndex.toNat < index.toNat := by
        intro _ h
        cases h
        have hix := hx.index
        omega
      obtain ⟨hre, hn⟩ := ht.fresh index hfr
      rw [hre, hn]
      exact .empty
  fresh index h := by
    refine ht.fresh index fun _ hsp => ?_
    cases hsp
    have hla := h spans' rfl
    have hix := hx.index
    omega

theorem prune {record' : SpanIndex → SpanRecord}
    (hk : ∀ index, ¬ SlashingSpans.Drops (spans.prune windowStart).2 index → record' index = record index)
    (hdr : ∀ index, record' index = record index ∨ record' index = default) :
    Track rewardProportion (some (spans.prune windowStart).1) record' outcomes where
  ordered _ h := by
    cases h
    exact (ht.ordered spans rfl).prune
  accounts _ h index hho := by
    cases h
    rw [hk index ((ht.ordered spans rfl).not_drops hho)]
    exact ht.accounts spans rfl index (SlashingSpans.holds_of_prune hho)
  fresh index h := by
    have hla : ∀ spans' ∈ some spans, spans'.spanIndex.toNat < index.toNat := by
      intro _ hsp
      cases hsp
      exact h (spans.prune windowStart).1 rfl
    obtain ⟨hre, hn⟩ := ht.fresh index hla
    rcases hdr index with hs | hde
    · exact ⟨hs.trans hre, hn⟩
    · exact ⟨hde, hn⟩

theorem compare {record' : SpanIndex → SpanRecord} {outcomes' : SpanIndex → List (SpanOutcome A)}
    {target : SpanIndex} {outcome : SpanOutcome A}
    (hho : spans.Holds target) (hle : proportion.parts ≤ rewardProportion.parts)
    (hc : Compared proportion outcome.compared (record target) (record' target) outcome.slashed outcome.reward)
    (hta : outcomes' target = outcomes target ++ [outcome])
    (hoth : ∀ index ≠ target, record' index = record index ∧ outcomes' index = outcomes index) :
    Track rewardProportion (some spans) record' outcomes' where
  ordered := ht.ordered
  accounts _ h index hix := by
    cases h
    by_cases heq : index = target
    · rw [heq, hta]
      exact (ht.accounts spans rfl target hho).append hc hle
    · rw [(hoth index heq).1, (hoth index heq).2]
      exact ht.accounts spans rfl index hix
  fresh index h := by
    have hne : index ≠ target := by
      rintro rfl
      have hla := h spans rfl
      have hre := hho.2
      omega
    rw [(hoth index hne).1, (hoth index hne).2]
    exact ht.fresh index h

end Track

theorem InspectingSpans.reward_le (i : InspectingSpans A) (slash paidOut : Balance) :
    (i.reward slash paidOut).toNat ≤ (i.rewardProportion.mul slash).toNat - paidOut.toNat := by
  rw [← Word.toNat_saturatingSub]
  exact Perbill.mul_le _ _

theorem mem_prunedKeys {stash owner : A} {index first last : SpanIndex}
    (h : (stash, index) ∈ (List.range' first.toNat (last.toNat - first.toNat)).map fun n => (owner, BitVec.ofNat 32 n)) :
    stash = owner ∧ first.toNat ≤ index.toNat ∧ index.toNat < last.toNat := by
  obtain ⟨n, hn, heq⟩ := mem_map.mp h
  cases heq
  have hra := mem_range'_1.mp hn
  have hl := last.isLt
  have hix : (BitVec.ofNat 32 n).toNat = n := by
    rw [BitVec.toNat_ofNat]
    exact Nat.mod_eq_of_lt (by omega)
  exact ⟨rfl, by omega, by omega⟩

end

section
variable {A : Type} [DecidableEq A]

def Metadata.record (m : Metadata A) (stash : A) (index : SpanIndex) : SpanRecord :=
  m.spanSlash.getD (stash, index) default

def comparisons (log : List (SpanOutcome A)) (stash : A) (index : SpanIndex) : List (SpanOutcome A) :=
  log.filter fun outcome => outcome.stash = stash ∧ outcome.span = some index

def Tracked (rewardProportion : Perbill) (m : Metadata A) (log : List (SpanOutcome A)) : Prop :=
  ∀ stash, Track rewardProportion (m.slashingSpans.get? stash) (m.record stash) (comparisons log stash)

structure Inspected (rewardProportion : Perbill) (m : Metadata A) (i : InspectingSpans A)
    (log : List (SpanOutcome A)) : Prop where
  own : Track rewardProportion (some i.spans) (m.record i.stash) (comparisons log i.stash)
  stored : i.dirty = false → m.slashingSpans.get? i.stash = some i.spans
  others : ∀ stash ≠ i.stash, Track rewardProportion (m.slashingSpans.get? stash) (m.record stash) (comparisons log stash)

variable {rewardProportion proportion : Perbill} {m m' : Metadata A} {i i' : InspectingSpans A}
  {log : List (SpanOutcome A)} {outcome : SpanOutcome A} {stash : A} {index : SpanIndex}

theorem comparisons_append_other (h : outcome.stash = stash → outcome.span ≠ some index) :
    comparisons (log ++ [outcome]) stash index = comparisons log stash index := by
  have hoth : decide (outcome.stash = stash ∧ outcome.span = some index) = false :=
    decide_eq_false fun hbo => h hbo.1 hbo.2
  simp only [comparisons, filter_append, filter_singleton, hoth, cond_false, append_nil]

theorem comparisons_append_ne (h : stash ≠ outcome.stash) :
    comparisons (log ++ [outcome]) stash = comparisons log stash := by
  funext index
  exact comparisons_append_other fun heq => absurd heq.symm h

theorem fetchSpans_inspected (ht : Tracked rewardProportion m log) (stash : A) (windowStart : EraIndex)
    (proportion : Perbill) :
    Inspected rewardProportion (fetchSpans m stash windowStart proportion).1
      (fetchSpans m stash windowStart proportion).2 log := by
  have hown := ht stash
  unfold fetchSpans
  cases hsp : m.slashingSpans.get? stash with
  | some spans =>
    rw [hsp] at hown
    exact ⟨hown, fun _ => hsp, fun other _ => ht other⟩
  | none =>
    rw [hsp] at hown
    refine ⟨hown.start, fun _ => get?_insert_self, fun other hne => ?_⟩
    show Track _ ((m.slashingSpans.insert stash _).get? other) _ _
    rw [get?_insert_ne hne]
    exact ht other

theorem Inspected.endSpan (hi : Inspected rewardProportion m i log) (now : EraIndex) :
    Inspected rewardProportion m (i.endSpan now) log := by
  unfold InspectingSpans.endSpan
  rcases (hi.own.ordered i.spans rfl).endSpan_cases now with hs | ⟨hed, hx⟩
  · rw [hs]
    exact hi
  · refine ⟨hi.own.next hx, fun hcl => ?_, hi.others⟩
    -- the spans were ended, so they are dirty
    have hdi : ((i.spans.endSpan now).2 || i.dirty) = false := hcl
    rw [hed] at hdi
    cases hdi

theorem drop_record (m : Metadata A) (i : InspectingSpans A) (stash : A) (index : SpanIndex) :
    (i.drop m).record stash index = m.record stash index ∨
    (i.drop m).record stash index = default ∧ stash = i.stash ∧
      SlashingSpans.Drops (i.spans.prune i.windowStart).2 index := by
  unfold InspectingSpans.drop
  split
  · exact .inl rfl
  · rcases hpr : i.spans.prune i.windowStart with ⟨spans, _ | ⟨first, last⟩⟩
    · exact .inl rfl
    · simp only [Metadata.record, getD_removeAll]
      split_ifs with hmem
      · obtain ⟨hst, hfi, hl⟩ := mem_prunedKeys hmem
        exact .inr ⟨rfl, hst, first, last, rfl, hfi, hl⟩
      · exact .inl rfl

theorem Inspected.drop (hi : Inspected rewardProportion m i log) : Tracked rewardProportion (i.drop m) log := by
  intro stash
  by_cases hst : stash = i.stash
  · subst hst
    by_cases hcl : i.dirty = false
    · have hs : i.drop m = m := if_pos hcl
      rw [hs, hi.stored hcl]
      exact hi.own
    · have hsp : (i.drop m).slashingSpans.get? i.stash = some (i.spans.prune i.windowStart).1 := by
        unfold InspectingSpans.drop
        rw [if_neg hcl]
        exact get?_insert_self
      rw [hsp]
      refine hi.own.prune (fun index hk => ?_) (fun index => ?_)
      · exact (drop_record m i i.stash index).resolve_right fun hdr => hk hdr.2.2
      · exact (drop_record m i i.stash index).imp_right And.left
  · have hsp : (i.drop m).slashingSpans.get? stash = m.slashingSpans.get? stash := by
      unfold InspectingSpans.drop
      split
      · rfl
      · exact get?_insert_ne hst
    have hre : (i.drop m).record stash = m.record stash := by
      funext index
      exact (drop_record m i stash index).resolve_right fun hdr => hst hdr.2.1
    rw [hsp, hre]
    exact hi.others stash hst

structure Compares (m m' : Metadata A) (i i' : InspectingSpans A) (slash : Balance) (target : SpanIndex) :
    Prop where
  compared : Compared i.rewardProportion slash (m.record i.stash target) (m'.record i.stash target) i'.slashOf i'.paidOut
  records : ∀ stash index, (stash, index) ≠ (i.stash, target) → m'.record stash index = m.record stash index
  slashingSpans : m'.slashingSpans = m.slashingSpans
  stash : i'.stash = i.stash
  spanIndex : i'.spans.spanIndex = i.spans.spanIndex
  prior : i'.spans.prior = i.spans.prior
  lastStart : i'.spans.lastStart = i.spans.lastStart
  clean : i'.dirty = false → i.dirty = false ∧ i'.spans = i.spans

theorem Compares.write {record : SpanRecord} {slash n reward : Balance} {target : SpanIndex} {last : EraIndex}
    (hc : Compared i.rewardProportion slash (m.record i.stash target) record n reward) :
    Compares m { m with spanSlash := m.spanSlash.insert (i.stash, target) record } i
      { i with
        slashOf := n, paidOut := reward, dirty := true, spans := { i.spans with lastNonzeroSlash := last } }
      slash target where
  compared := by
    simpa only [Metadata.record, getD_insert, if_pos] using hc
  records stash index hne := by
    simp only [Metadata.record, getD_insert, if_neg hne]
  slashingSpans := rfl
  stash := rfl
  spanIndex := rfl
  prior := rfl
  lastStart := rfl
  clean h := by cases h

theorem compareAndUpdateSpanSlash_compares (m : Metadata A) {era : EraIndex} (slash : Balance)
    {span : SlashingSpan} (hamo : i.slashOf = 0) (hp : i.paidOut = 0) (hsp : i.spans.eraSpan era = some span) :
    Compares m (i.compareAndUpdateSpanSlash m era slash).1 i (i.compareAndUpdateSpanSlash m era slash).2.1 slash
        span.index ∧
      (i.compareAndUpdateSpanSlash m era slash).2.2 = some span.index := by
  unfold InspectingSpans.compareAndUpdateSpanSlash
  obtain ⟨record, hrc⟩ : ∃ record, m.spanSlash.getD (i.stash, span.index) default = record := ⟨_, rfl⟩
  have hgr (reward : Balance) (hle : record.slashed.toNat ≤ slash.toNat)
      (hre : i.reward slash record.paidOut = reward) :
      Compared i.rewardProportion slash (m.record i.stash span.index) ⟨slash, record.paidOut + reward⟩
        (i.slashOf + (slash - record.slashed)) (i.paidOut + reward) := by
    rw [hamo, hp, show m.record i.stash span.index = record from hrc]
    simp only [BitVec.ofNat_eq_ofNat, BitVec.zero_add]
    exact .grow hle (hre ▸ i.reward_le slash record.paidOut)
  have hs (hle : slash.toNat ≤ record.slashed.toNat) : Compares m m i i slash span.index := by
    refine ⟨?_, fun _ _ _ => rfl, rfl, rfl, rfl, rfl, rfl, fun h => ⟨h, rfl⟩⟩
    rw [hamo, hp, show m.record i.stash span.index = record from hrc]
    exact .same hle
  simp only [hsp, hrc]
  rcases Nat.lt_trichotomy record.slashed.toNat slash.toNat with hlt | heq | hgt
  · -- a new maximum
    by_cases hre : i.reward slash record.paidOut = 0
    · have hc := hgr 0 hlt.le hre
      simp only [BitVec.ofNat_eq_ofNat, BitVec.add_zero] at hc
      simp only [if_pos hlt, if_pos hre]
      exact ⟨.write hc, rfl⟩
    · simp only [if_pos hlt, if_neg hre]
      exact ⟨.write (hgr _ hlt.le rfl), rfl⟩
  · -- the maximum again: a further part of the reward
    have hsl : record.slashed = slash := BitVec.eq_of_toNat_eq heq
    by_cases hre : i.reward slash record.paidOut = 0
    · simp only [if_neg heq.not_lt, if_pos hsl, if_pos hre]
      exact ⟨hs heq.ge, rfl⟩
    · have hc := hgr _ heq.le rfl
      rw [hsl, BitVec.sub_self, BitVec.add_zero] at hc
      simp only [if_neg heq.not_lt, if_pos hsl, if_neg hre]
      rw [← hsl] at hc ⊢
      exact ⟨.write hc, rfl⟩
  · have hne : record.slashed ≠ slash := fun heq => hgt.ne' (congrArg BitVec.toNat heq)
    simp only [if_neg hgt.not_gt, if_neg hne]
    exact ⟨hs hgt.le, rfl⟩

theorem Inspected.compare {target : SpanIndex} (hi : Inspected rewardProportion m i log)
    (hc : Compares m m' i i' outcome.compared target) (hho : i.spans.Holds target)
    (hle : i.rewardProportion.parts ≤ rewardProportion.parts) (hst : outcome.stash = i.stash)
    (hsn : outcome.span = some target) (hsl : outcome.slashed = i'.slashOf)
    (hre : outcome.reward = i'.paidOut) : Inspected rewardProportion m' i' (log ++ [outcome]) where
  own := by
    have hco := hc.compared
    rw [← hsl, ← hre] at hco
    rw [hc.stash]
    refine Track.touch ?_ hc.spanIndex hc.prior hc.lastStart
    refine hi.own.compare hho hle hco (by simp [comparisons, hst, hsn]) fun index hne => ⟨?_, ?_⟩
    · exact hc.records i.stash index fun heq => hne (congrArg Prod.snd heq)
    · exact comparisons_append_other fun _ heq => hne (Option.some.inj (heq.symm.trans hsn))
  stored hcl := by
    obtain ⟨hbe, hsp⟩ := hc.clean hcl
    rw [hc.slashingSpans, hc.stash, hsp]
    exact hi.stored hbe
  others stash hne := by
    rw [hc.stash] at hne
    have hrc : m'.record stash = m.record stash :=
      funext fun index => hc.records stash index fun heq => hne (congrArg Prod.fst heq)
    rw [hc.slashingSpans, hrc, comparisons_append_ne (hst ▸ hne)]
    exact hi.others stash hne

theorem Inspected.skip (hi : Inspected rewardProportion m i log) (hsp : outcome.span = none) :
    Inspected rewardProportion m i (log ++ [outcome]) := by
  have hs (stash : A) : comparisons (log ++ [outcome]) stash = comparisons log stash := by
    funext index
    refine comparisons_append_other fun _ => ?_
    rw [hsp]
    exact Option.some_ne_none index |>.symm
  refine ⟨?_, hi.stored, fun stash hne => ?_⟩
  · rw [hs]
    exact hi.own
  · rw [hs]
    exact hi.others stash hne

structure Logged (rewardProportion : Perbill) (m : Metadata A) (log : List (SpanOutcome A)) : Prop where
  tracked : Tracked rewardProportion m log
  spanned : ∀ outcome ∈ log, outcome.span = none → outcome.slashed = 0 ∧ outcome.reward = 0

theorem fetchSpans_counts (m : Metadata A) (stash : A) (windowStart : EraIndex) (proportion : Perbill) :
    let i := (fetchSpans m stash windowStart proportion).2
    i.stash = stash ∧ i.rewardProportion = proportion ∧ i.slashOf = 0 ∧ i.paidOut = 0 := by
  unfold fetchSpans
  cases m.slashingSpans.get? stash <;> exact ⟨rfl, rfl, rfl, rfl⟩

theorem Logged.append (hl : Logged rewardProportion m log) (ht : Tracked rewardProportion m' (log ++ [outcome]))
    (hsp : outcome.span = none → outcome.slashed = 0 ∧ outcome.reward = 0) :
    Logged rewardProportion m' (log ++ [outcome]) := by
  refine ⟨ht, fun outcome' hmem => ?_⟩
  rcases mem_append.mp hmem with hold | hnew
  · exact hl.spanned outcome' hold
  · rw [mem_singleton.mp hnew]
    exact hsp

theorem slashStash_logged (hl : Logged rewardProportion m log) {params : SlashParams A}
    (hle : params.rewardProportion.parts ≤ rewardProportion.parts) (stash : A) (slash : Balance) :
    Logged rewardProportion (slashStash m params stash slash).1 (log ++ [(slashStash m params stash slash).2]) := by
  have hi := fetchSpans_inspected hl.tracked stash params.windowStart params.rewardProportion
  obtain ⟨hst, hsh, hamo, hp⟩ := fetchSpans_counts m stash params.windowStart params.rewardProportion
  unfold slashStash
  rcases hfe : fetchSpans m stash params.windowStart params.rewardProportion with ⟨m₁, i₁⟩
  rw [hfe] at hi hst hsh hamo hp
  dsimp only at hi hst hsh hamo hp ⊢
  cases hsp : i₁.spans.eraSpan params.slashEra with
  | none =>
    have hsk : i₁.compareAndUpdateSpanSlash m₁ params.slashEra slash = (m₁, i₁, none) := by
      simp only [InspectingSpans.compareAndUpdateSpanSlash, hsp]
    rw [hsk]
    dsimp only
    rw [if_neg (fun h => by cases h)]
    exact hl.append (hi.skip rfl).drop fun _ => ⟨hamo, hp⟩
  | some span =>
    have hc := compareAndUpdateSpanSlash_compares m₁ slash hamo hp hsp
    rcases hcm : i₁.compareAndUpdateSpanSlash m₁ params.slashEra slash with ⟨m₂, i₂, target⟩
    rw [hcm] at hc
    obtain ⟨hc, rfl⟩ : Compares m₁ m₂ i₁ i₂ slash span.index ∧ target = some span.index := hc
    dsimp only
    have hho := (hi.own.ordered i₁.spans rfl).holds (mem_of_find?_eq_some hsp)
    have hco (recent : Bool) :
        Inspected rewardProportion m₂ i₂ (log ++ [⟨stash, some span.index, recent, slash, i₂.slashOf, i₂.paidOut⟩]) :=
      hi.compare hc hho (hsh ▸ hle) hst.symm rfl rfl rfl
    refine hl.append ?_ (fun hn => by cases hn)
    by_cases hre : some span.index = some i₂.spans.spanIndex
    · simp only [if_pos hre]
      exact ((hco _).endSpan params.now).drop
    · simp only [if_neg hre]
      exact (hco _).drop

theorem Logged.of_eq (hl : Logged rewardProportion m log) (hsp : m'.slashingSpans = m.slashingSpans)
    (hre : m'.spanSlash = m.spanSlash) : Logged rewardProportion m' log := by
  refine ⟨fun stash => ?_, hl.spanned⟩
  have hrc : m'.record stash = m.record stash := by
    unfold Metadata.record
    rw [hre]
  rw [hsp, hrc]
  exact hl.tracked stash

theorem slashNominators_logged {params : SlashParams A}
    (hle : params.rewardProportion.parts ≤ rewardProportion.parts) (priorSlashP : Perbill)
    (others : List (Rewards.IndividualExposure A)) (hl : Logged rewardProportion m log) :
    Logged rewardProportion (slashNominators params priorSlashP m others).1
      (log ++ (slashNominators params priorSlashP m others).2) := by
  induction others generalizing m log with
  | nil =>
    rw [slashNominators, append_nil]
    exact hl
  | cons nominator others ih =>
    have hone : Logged rewardProportion (slashNominator params priorSlashP m nominator).1
        (log ++ [(slashNominator params priorSlashP m nominator).2]) := by
      unfold slashNominator
      refine slashStash_logged ?_ hle _ _
      exact hl.of_eq rfl rfl
    have hr := ih hone
    rw [append_assoc] at hr
    exact hr

end

section
variable {A : Type} [DecidableEq A] (cfg : Config A)

/-- A slash is computed, or something happens that does not touch the spans and their records. -/
inductive SpanOp (A : Type) where
  | computeSlash (params : SlashParams A)
  | other (s : State A)

def logOf : Option (SpanOutcome A × List (SpanOutcome A)) → List (SpanOutcome A)
  | some (own, others) => own :: others
  | none => []

def amounts : Option (UnappliedSlash A) → List (A × Balance)
  | some slash => (slash.validator, slash.own) :: slash.others
  | none => []

def spanStep (r : State A × List (SpanOutcome A)) : SpanOp A → State A × List (SpanOutcome A)
  | .computeSlash params =>
    let (s, outcomes) := computeOutcomes cfg r.1 params
    (s, r.2 ++ logOf outcomes)
  | .other s =>
    ({ s with
      metadata := { s.metadata with
        slashingSpans := r.1.metadata.slashingSpans, spanSlash := r.1.metadata.spanSlash } }, r.2)

variable {cfg} {rewardProportion : Perbill} {s : State A} {log : List (SpanOutcome A)}

theorem addOffendingValidator_eq (cfg : Config A) (s : State A) (stash : A) (disable : Bool) :
    ∃ offending disabled eras, (eras = s.eras ∨ eras = s.eras.ensureNewEra) ∧
      addOffendingValidator cfg s stash disable =
        { s with offendingValidators := offending, disabled := disabled, eras := eras } := by
  unfold addOffendingValidator
  cases s.sessionValidators.findIdx? (· = stash) with
  | none => exact ⟨_, _, _, .inl rfl, rfl⟩
  | some validatorIndex =>
    dsimp only
    cases Search.binarySearch (s.offendingValidators.map (·.1.toNat)) (BitVec.ofNat 32 validatorIndex).toNat with
    | error index =>
      refine ⟨_, _, _, ?_, rfl⟩
      exact (ite_eq_or_eq _ _ _).symm
    | ok index =>
      dsimp only
      split
      · split
        · exact ⟨_, _, _, .inl rfl, rfl⟩
        · exact ⟨_, _, _, .inl rfl, rfl⟩
      · exact ⟨_, _, _, .inl rfl, rfl⟩

theorem kickOutIfRecent_logged (hl : Logged rewardProportion s.metadata log) (params : SlashParams A) :
    Logged rewardProportion (kickOutIfRecent cfg s params).metadata log := by
  have hi : Inspected rewardProportion (fetchSpans s.metadata params.stash params.windowStart params.rewardProportion).1
      (fetchSpans s.metadata params.stash params.windowStart params.rewardProportion).2 log :=
    fetchSpans_inspected hl.tracked _ _ _
  refine ⟨?_, hl.spanned⟩
  unfold kickOutIfRecent
  dsimp only
  obtain ⟨offending, disabled, eras, -, hadd⟩ := addOffendingValidator_eq cfg _ _ _
  rw [hadd]
  dsimp only
  split
  · exact (hi.endSpan params.now).drop
  · exact hi.drop

theorem computeOutcomes_logged {params : SlashParams A} (hl : Logged rewardProportion s.metadata log)
    (hle : params.rewardProportion.parts ≤ rewardProportion.parts) :
    Logged rewardProportion (computeOutcomes cfg s params).1.metadata
      (log ++ logOf (computeOutcomes cfg s params).2) := by
  unfold computeOutcomes
  dsimp only
  split
  · rw [logOf, append_nil]
    exact kickOutIfRecent_logged hl params
  · split
    · have hown := slashStash_logged (m := { s.metadata with
          validatorSlashInEra := s.metadata.validatorSlashInEra.insert (params.slashEra, params.stash)
            (params.slash, params.slash.mul params.exposure.own) })
        (hl.of_eq rfl rfl) hle params.stash (params.slash.mul params.exposure.own)
      have hall := slashNominators_logged hle
        (((s.metadata.validatorSlashInEra.get? (params.slashEra, params.stash)).map Prod.fst).getD
          (Perbill.fromPercent 0)) params.exposure.others hown
      rw [append_assoc] at hall
      exact hall
    · rw [logOf, append_nil]
      exact hl

theorem amounts_computeSlash (cfg : Config A) (s : State A) (params : SlashParams A) :
    amounts (computeSlash cfg s params).2 =
      (logOf (computeOutcomes cfg s params).2).map fun outcome => (outcome.stash, outcome.slashed) := by
  unfold computeSlash
  rcases computeOutcomes cfg s params with ⟨s', _ | ⟨own, others⟩⟩ <;> rfl

theorem spanStep_logged {r : State A × List (SpanOutcome A)} {op : SpanOp A}
    (hle : ∀ params, op = .computeSlash params → params.rewardProportion.parts ≤ rewardProportion.parts)
    (hl : Logged rewardProportion r.1.metadata r.2) :
    Logged rewardProportion (spanStep cfg r op).1.metadata (spanStep cfg r op).2 := by
  cases op with
  | computeSlash params => exact computeOutcomes_logged hl (hle params rfl)
  | other t => exact hl.of_eq rfl rfl

variable {rewardProportion : Perbill}

/-- Within a span only the worst era counts. After any run of slashes from a state without spans, each span not pruned
has a record of the maximum of the slashes compared and the sum of what was slashed, and has paid out the sum of its
rewards, at most the share of the maximum. What is logged are the amounts of the unapplied slashes. -/
theorem worst_era_counts (cfg : Config A) (s : State A) (hspans : s.metadata.slashingSpans = ∅)
    (hrecords : s.metadata.spanSlash = ∅) (ops : List (SpanOp A))
    (hshare : ∀ params, SpanOp.computeSlash params ∈ ops → params.rewardProportion.parts ≤ rewardProportion.parts) :
    let r := Steps.execute (spanStep cfg) (s, []) ops
    (∀ s params, amounts (computeSlash cfg s params).2 =
        (logOf (computeOutcomes cfg s params).2).map fun outcome => (outcome.stash, outcome.slashed)) ∧
      (∀ outcome ∈ r.2, outcome.span = none → outcome.slashed = 0 ∧ outcome.reward = 0) ∧
      ∀ stash spans, r.1.metadata.slashingSpans.get? stash = some spans → ∀ span ∈ spans.iter,
        Accounts rewardProportion (r.1.metadata.record stash span.index) (comparisons r.2 stash span.index) := by
  intro r
  have hini : Logged rewardProportion s.metadata [] := by
    refine ⟨fun stash => ?_, fun _ h => by cases h⟩
    have hre : s.metadata.record stash = fun _ => default := by
      unfold Metadata.record
      rw [hrecords]
      rfl
    rw [hspans, hre]
    exact .init
  have hke : ∀ op ∈ ops, ∀ r : State A × List (SpanOutcome A),
      Logged rewardProportion r.1.metadata r.2 →
      Logged rewardProportion (spanStep cfg r op).1.metadata (spanStep cfg r op).2 :=
    fun op hop r hl => spanStep_logged (fun params heq => hshare params (heq ▸ hop)) hl
  have hr : Logged rewardProportion r.1.metadata r.2 := Steps.execute_invariant hke hini
  refine ⟨amounts_computeSlash cfg, hr.spanned, fun stash spans hget span hsp => ?_⟩
  have ht := hr.tracked stash
  rw [hget] at ht
  exact ht.accounts spans rfl span.index ((ht.ordered spans rfl).holds hsp)

end

def State.unreported {A : Type} (staking : Staking.State A) (activeEra : EraIndex) (sessionValidators : List A) :
    State A where
  staking := staking
  eras := { Eras.empty 84 with currentEra := some activeEra, activeEra := some activeEra }
  metadata := .empty
  validators := ∅
  nominators := ∅
  invulnerables := []
  offendingValidators := []
  sessionValidators := sessionValidators
  disabled := []
  bondedEras := []
  unappliedSlashes := ∅
  earliestUnappliedSlash := none
  deferredOffences := []

def sampleState (activeEra : EraIndex) : State Nat :=
  { State.unreported sampleStakers activeEra [1] with
    validators := (∅ : StorageMap Nat Perbill).insert 1 (Perbill.fromPercent 0)
    nominators := (∅ : StorageMap Nat (List Nat)).insert 3 [1] }

def sampleParams (percent : Nat) : SlashParams Nat where
  stash := 1
  slash := Perbill.fromPercent percent
  exposure := ⟨250, 50, [⟨3, 200⟩]⟩
  slashEra := 5
  windowStart := 0
  now := 5
  rewardProportion := Perbill.fromPercent 10
  disableStrategy := .whenSlashed

theorem second_slash_tops_up :
    let r := Steps.execute (spanStep sampleConfig) (sampleState 5, [])
      [.computeSlash (sampleParams 10), .computeSlash (sampleParams 20)]
    (comparisons r.2 3 0).map (fun outcome => (outcome.compared, outcome.slashed, outcome.reward)) =
        [(20, 20, 1), (40, 20, 1)] ∧
      r.1.metadata.record 3 0 = ⟨40, 2⟩ ∧
      Accounts (Perbill.fromPercent 10) (r.1.metadata.record 3 0) (comparisons r.2 3 0) := by
  intro r
  have hsp : r.1.metadata.slashingSpans.get? 3 = some ⟨1, 6, 5, [6]⟩ := by decide +kernel
  have hsh : ∀ params,
      SpanOp.computeSlash params ∈ [SpanOp.computeSlash (sampleParams 10), .computeSlash (sampleParams 20)] →
      params.rewardProportion.parts ≤ (Perbill.fromPercent 10).parts := by
    intro params hmem
    rcases mem_pair.mp hmem with h | h
    · cases h
      exact Nat.le_refl _
    · cases h
      exact Nat.le_refl _
  have hall := worst_era_counts sampleConfig (sampleState 5) rfl rfl _ hsh
  exact ⟨by decide +kernel, by decide +kernel, hall.2.2 3 _ hsp ⟨0, 0, some 6⟩ (by decide)⟩

end Staking.Slashing
