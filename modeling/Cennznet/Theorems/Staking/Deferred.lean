import Cennznet.Lib.Lists
import Cennznet.Staking.Offences
import Cennznet.Theorems.Staking.Spans

/-! # Deferred slashes

`EarliestUnappliedSlash` is a lower bound of the eras that slashes are stored under. -/

namespace Staking.Slashing

open StorageMap Steps List Lists

/-! ### Cancelling -/

def dropAt {α : Type} (indices : List (BitVec 32)) : Nat → List α → List α
  | _, [] => []
  | n, x :: l => if indices.any (·.toNat = n) then dropAt indices (n + 1) l else x :: dropAt indices (n + 1) l

section
variable {α : Type} {indices : List (BitVec 32)} {ix : BitVec 32} {n : Nat}

theorem dropAt_nil (l : List α) : dropAt [] n l = l := by
  induction l generalizing n with
  | nil => rfl
  | cons x l ih =>
    rw [dropAt, any_nil, if_neg Bool.false_ne_true, ih]

theorem dropAt_cons_of_lt (h : ix.toNat < n) (l : List α) : dropAt (ix :: indices) n l = dropAt indices n l := by
  induction l generalizing n with
  | nil => rfl
  | cons x l ih =>
    have hne : decide (ix.toNat = n) = false := decide_eq_false (Nat.ne_of_lt h)
    rw [dropAt, dropAt, any_cons, hne, Bool.false_or, ih (Nat.lt_succ_of_lt h)]

theorem isSortedAndUnique_iff :
    isSortedAndUnique indices = true ↔ indices.Pairwise (fun a b => a.toNat < b.toNat) := by
  rw [← isChain_iff_pairwise]
  induction indices with
  | nil => exact iff_of_true rfl .nil
  | cons a l ih =>
    cases l with
    | nil => exact iff_of_true rfl (.singleton a)
    | cons b l => rw [isSortedAndUnique, Bool.and_eq_true, decide_eq_true_eq, ih, isChain_cons_cons]

theorem getLast?_all_lt_iff (hso : indices.Pairwise (fun a b => a.toNat < b.toNat)) :
    indices.getLast?.all (fun last => last.toNat < n) = true ↔ ∀ ix ∈ indices, ix.toNat < n := by
  rcases eq_nil_or_concat indices with rfl | ⟨init, last, rfl⟩
  · exact iff_of_true rfl fun ix h => absurd h not_mem_nil
  · rw [concat_eq_append] at hso ⊢
    rw [getLast?_concat, Option.all_some, decide_eq_true_eq]
    refine ⟨fun hlt ix hmem => ?_, fun h => h last (mem_append_right init (mem_singleton_self last))⟩
    rcases mem_append.mp hmem with hin | hl
    · exact ((pairwise_append.mp hso).2.2 ix hin last (mem_singleton_self last)).trans hlt
    · rwa [mem_singleton.mp hl]

theorem le_of_pairwise (hso : indices.Pairwise (fun a b => a.toNat < b.toNat)) {k : Nat} (h : indices[k]? = some ix) :
    k ≤ ix.toNat := by
  induction k generalizing ix with
  | zero => exact Nat.zero_le _
  | succ k ih =>
    obtain ⟨hk, rfl⟩ := List.getElem?_eq_some_iff.mp h
    have hle := ih (getElem?_eq_getElem (Nat.lt_of_succ_lt hk))
    have hlt := pairwise_iff_getElem.mp hso k (k + 1) (Nat.lt_of_succ_lt hk) hk (Nat.lt_succ_self k)
    omega

/-- The loop of `cancel_deferred_slash`. What stands before the next index is left alone, and the entries from `n` on
have moved by the number removed. -/
theorem removeSlashes_append {removed : Nat} {p l : List α} (hso : indices.Pairwise (fun a b => a.toNat < b.toNat))
    (hlow : ∀ ix ∈ indices, n ≤ ix.toNat) (hhi : ∀ ix ∈ indices, ix.toNat < n + l.length)
    (hmo : n = p.length + removed) : removeSlashes removed indices (p ++ l) = p ++ dropAt indices n l := by
  induction l generalizing n removed p indices with
  | nil =>
    have hn : indices = [] := by
      refine eq_nil_iff_forall_not_mem.mpr fun ix hmem => ?_
      have hl := hlow ix hmem
      have hh := hhi ix hmem
      rw [length_nil] at hh
      omega
    rw [hn]
    rfl
  | cons x l ih =>
    cases indices with
    | nil => rw [dropAt_nil, removeSlashes]
    | cons ix rest =>
      obtain ⟨hfi, hr⟩ := pairwise_cons.mp hso
      have hle : (x :: l).length = l.length + 1 := length_cons
      rcases Nat.eq_or_lt_of_le (hlow ix mem_cons_self) with heq | hlt
      · -- the next entry is removed
        have hpo : ix.toNat - removed = p.length := by omega
        have hee : (p ++ x :: l).eraseIdx p.length = p ++ l := by
          rw [eraseIdx_append_of_length_le (Nat.le_refl _), Nat.sub_self, eraseIdx_cons_zero]
        have hx : removeSlashes (removed + 1) rest (p ++ l) = p ++ dropAt rest (n + 1) l := by
          refine ih hr (fun i hi => ?_) (fun i hi => ?_) (by omega)
          · have hla := hfi i hi
            omega
          · have hh := hhi i (mem_cons_of_mem _ hi)
            omega
        have hhe : (ix :: rest).any (·.toNat = n) = true := by
          rw [any_cons, decide_eq_true heq.symm, Bool.true_or]
        rw [removeSlashes, hpo, hee, hx, dropAt, if_pos hhe, dropAt_cons_of_lt (by omega)]
      · -- the next entry stays
        have hla : ∀ i ∈ ix :: rest, n < i.toNat := forall_mem_cons.mpr ⟨hlt, fun i hi => hlt.trans (hfi i hi)⟩
        have hoth : (ix :: rest).any (·.toNat = n) = false := by
          refine any_eq_false.mpr fun i hi => ?_
          rw [decide_eq_true_eq]
          exact (hla i hi).ne'
        have hx : removeSlashes removed (ix :: rest) ((p ++ [x]) ++ l) =
            (p ++ [x]) ++ dropAt (ix :: rest) (n + 1) l := by
          refine ih hso hla (fun i hi => ?_) ?_
          · have hh := hhi i hi
            omega
          · rw [length_append, length_singleton]
            omega
        rw [append_assoc, append_assoc, singleton_append, singleton_append] at hx
        rw [hx, dropAt, hoth, if_neg Bool.false_ne_true]

theorem removeSlashes_eq {l : List α} (hso : isSortedAndUnique indices = true)
    (hl : indices.getLast?.all (fun last => last.toNat < l.length) = true) :
    removeSlashes 0 indices l = dropAt indices 0 l := by
  have hpa := isSortedAndUnique_iff.mp hso
  have hall := (getLast?_all_lt_iff hpa).mp hl
  exact removeSlashes_append (p := []) hpa (fun _ _ => Nat.zero_le _) (fun ix h => by rw [Nat.zero_add]; exact hall ix h) rfl

end

variable {A : Type} in
/-- The indices are in bounds as each entry is removed: the one at place `k` of the list stands `k` places further to
the front by then. -/
theorem cancellation_exact (s : State A) (era : EraIndex) (slashIndices : List (BitVec 32)) :
    ((∃ t, cancelDeferredSlash s era slashIndices = .ok t) ↔
      slashIndices ≠ [] ∧ slashIndices.Pairwise (fun a b => a.toNat < b.toNat) ∧
        ∀ index ∈ slashIndices, index.toNat < (s.unappliedSlashes.getD era []).length) ∧
    ∀ t, cancelDeferredSlash s era slashIndices = .ok t →
      t = { s with
        unappliedSlashes := s.unappliedSlashes.insert era (dropAt slashIndices 0 (s.unappliedSlashes.getD era [])) } ∧
      ∀ (k : Nat) (index : BitVec 32), slashIndices[k]? = some index →
        k ≤ index.toNat ∧ index.toNat < (s.unappliedSlashes.getD era []).length := by
  simp only [cancelDeferredSlash, Result.bind_eq_ok, Result.ensure_eq_ok, Result.pure_eq_ok]
  constructor
  · constructor
    · rintro ⟨t, -, hne, -, hso, -, hl, -⟩
      have hpa := isSortedAndUnique_iff.mp hso
      exact ⟨isEmpty_eq_false_iff.mp hne, hpa, (getLast?_all_lt_iff hpa).mp hl⟩
    · rintro ⟨hne, hpa, hall⟩
      exact ⟨_, (), isEmpty_eq_false_iff.mpr hne, (), isSortedAndUnique_iff.mpr hpa, (), (getLast?_all_lt_iff hpa).mpr hall, rfl⟩
  · rintro t ⟨-, -, -, hso, -, hl, rfl⟩
    have hpa := isSortedAndUnique_iff.mp hso
    rw [removeSlashes_eq hso hl]
    exact ⟨rfl, fun k ix h => ⟨le_of_pairwise hpa h, (getLast?_all_lt_iff hpa).mp hl ix (mem_of_getElem? h)⟩⟩

section
variable {A : Type}

structure Stores (s t : State A) (slashes : List (UnappliedSlash A)) : Prop where
  staking : t.staking = s.staking
  activeEra : t.eras.activeEra = s.eras.activeEra
  unapplied : ∀ era, t.unappliedSlashes.getD era [] =
    s.unappliedSlashes.getD era [] ++ if s.eras.activeEra = some era then slashes else []
  earliest : t.earliestUnappliedSlash = s.earliestUnappliedSlash ∨
    s.earliestUnappliedSlash = none ∧ t.earliestUnappliedSlash = s.eras.activeEra
  /-- A slash is stored only if the bound is set. -/
  bounded : slashes ≠ [] → t.earliestUnappliedSlash ≠ none

namespace Stores

variable {s t u : State A} {slashes slashes' : List (UnappliedSlash A)}

theorem nothing (hst : t.staking = s.staking) (hac : t.eras.activeEra = s.eras.activeEra)
    (hun : t.unappliedSlashes = s.unappliedSlashes)
    (hea : t.earliestUnappliedSlash = s.earliestUnappliedSlash) : Stores s t [] where
  staking := hst
  activeEra := hac
  unapplied era := by rw [hun, ite_self, append_nil]
  earliest := .inl hea
  bounded h := absurd rfl h

theorem trans (h : Stores s t slashes) (h' : Stores t u slashes') : Stores s u (slashes ++ slashes') where
  staking := h'.staking.trans h.staking
  activeEra := h'.activeEra.trans h.activeEra
  unapplied era := by
    rw [h'.unapplied, h.unapplied, h.activeEra, append_assoc]
    split <;> rfl
  earliest := by
    rcases h.earliest with hs | ⟨hn, hset⟩
    · rw [← hs, ← h.activeEra]
      exact h'.earliest
    · rcases h'.earliest with hsa' | ⟨-, hse'⟩
      · exact .inr ⟨hn, hsa'.trans hset⟩
      · exact .inr ⟨hn, hse'.trans h.activeEra⟩
  bounded hne := by
    by_cases hla : slashes' = []
    · have hea : slashes ≠ [] := by
        rintro rfl
        exact hne hla
      rcases h'.earliest with hs | ⟨hn, -⟩
      · rw [hs]
        exact h.bounded hea
      · exact absurd hn (h.bounded hea)
    · exact h'.bounded hla

theorem keep (h : Stores s t slashes) (h' : Stores t u []) : Stores s u slashes := by
  have hbo := h.trans h'
  rwa [append_nil] at hbo

theorem earliest_ne (h : Stores s t slashes)
    (hea : s.earliestUnappliedSlash ≠ none) : t.earliestUnappliedSlash ≠ none := by
  rcases h.earliest with hs | ⟨hn, -⟩
  · rwa [hs]
  · exact absurd hn hea

end Stores

end

section
variable {A : Type} [DecidableEq A] {cfg : Config A}

def slashOf (cfg : Config A) (terms : ReportTerms) (s : State A)
    (offender : OffenceDetails A × Perbill) : Option (UnappliedSlash A) :=
  if offender.1.offender.1 ∈ s.invulnerables then none
  else (slashOffender cfg s offender.1 (terms.params cfg offender.1 offender.2)).2

def slashesOf (cfg : Config A) (terms : ReportTerms) :
    State A → List (OffenceDetails A × Perbill) → List (UnappliedSlash A)
  | _, [] => []
  | s, offender :: offenders =>
    (slashOf cfg terms s offender).toList ++ slashesOf cfg terms (handleOffender cfg terms (s, 0) offender).1 offenders

def reported (cfg : Config A) (s : State A) (offence : DeferredOffence A)
    (disableStrategy : DisableStrategy) : List (UnappliedSlash A) :=
  if s.staking.electionClosed = false then []
  else
    match s.eras.activeEra with
    | none => []
    | some activeEra =>
      match (slashEra cfg s activeEra offence.slashSession).1 with
      | none => []
      | some era =>
        let terms : ReportTerms :=
          { activeEra := activeEra, slashEra := era
            windowStart := Word.saturatingSub activeEra cfg.staking.bondingDuration, disableStrategy := disableStrategy }
        slashesOf cfg terms { s with earliestUnappliedSlash := some (s.earliestUnappliedSlash.getD activeEra) }
          (offence.offenders.zip offence.slashFraction)

def replayed (cfg : Config A) (s : State A) (consumed : Weight) : List (DeferredOffence A) → List (UnappliedSlash A)
  | [] => []
  | offence :: deferred =>
    if cfg.weightSoftLimit.toNat ≤ consumed.toNat then replayed cfg s consumed deferred
    else
      reported cfg s offence .whenSlashed ++
        replayed cfg (onOffence cfg s offence .whenSlashed).1 (consumed + (onOffence cfg s offence .whenSlashed).2) deferred

variable {s : State A} {terms : ReportTerms}

theorem addOffendingValidator_stores (cfg : Config A) (s : State A) (stash : A) (disable : Bool) :
    Stores s (addOffendingValidator cfg s stash disable) [] := by
  obtain ⟨offending, disabled, eras, hera, heq⟩ := addOffendingValidator_eq cfg s stash disable
  rw [heq]
  refine .nothing rfl ?_ rfl rfl
  rcases hera with rfl | rfl
  · rfl
  · unfold Eras.ensureNewEra
    split <;> rfl

theorem chillStash_stores (s : State A) (stash : A) (p : Prop) [Decidable p] :
    Stores s (if p then chillStash s stash else s) [] := by
  split <;> exact .nothing rfl rfl rfl rfl

theorem chilledOffender_stores (s : State A) (stash : A) (recent disable : Bool) (m : Metadata A) :
    Stores s { addOffendingValidator cfg (if recent then chillStash s stash else s) stash disable with metadata := m } [] :=
  ((chillStash_stores s stash (recent = true)).keep (addOffendingValidator_stores cfg _ stash disable)).keep
    (.nothing rfl rfl rfl rfl)

theorem computeSlash_stores (s : State A) (params : SlashParams A) : Stores s (computeSlash cfg s params).1 [] := by
  show Stores s (computeOutcomes cfg s params).1 []
  unfold computeOutcomes
  dsimp only
  split
  · -- the validator is kicked out
    unfold kickOutIfRecent
    dsimp only
    refine Stores.keep ?_ (addOffendingValidator_stores cfg _ _ _)
    exact (chillStash_stores s params.stash _).keep (.nothing rfl rfl rfl rfl)
  · split
    · exact chilledOffender_stores s _ _ _ _
    · exact .nothing rfl rfl rfl rfl

theorem handleOffender_weight (offender : OffenceDetails A × Perbill) (w : Weight) :
    (handleOffender cfg terms (s, w) offender).1 = (handleOffender cfg terms (s, 0) offender).1 := by
  unfold handleOffender
  split
  · rfl
  · rcases slashOffender cfg s offender.1 (terms.params cfg offender.1 offender.2) with ⟨t, _ | unapplied⟩ <;> rfl

section
variable (hd : cfg.slashDeferDuration ≠ 0)
include hd

theorem recordSlash_stores {activeEra : EraIndex} {unapplied : UnappliedSlash A}
    (hac : s.eras.activeEra = some activeEra) (hea : s.earliestUnappliedSlash ≠ none) :
    Stores s (recordSlash cfg s activeEra unapplied) [unapplied] := by
  unfold recordSlash
  rw [if_neg hd]
  refine ⟨rfl, rfl, fun era => ?_, .inl rfl, fun _ => hea⟩
  rw [getD_insert, hac]
  by_cases hera : era = activeEra
  · rw [if_pos hera, hera, if_pos rfl]
  · rw [if_neg hera, if_neg (fun h => hera (Option.some.inj h).symm), append_nil]

theorem handleOffender_stores {offender : OffenceDetails A × Perbill} {w : Weight}
    (hac : s.eras.activeEra = some terms.activeEra)
    (hea : s.earliestUnappliedSlash ≠ none) :
    Stores s (handleOffender cfg terms (s, w) offender).1 (slashOf cfg terms s offender).toList := by
  unfold handleOffender slashOf
  split
  · exact .nothing rfl rfl rfl rfl
  · have hco : Stores s (slashOffender cfg s offender.1 (terms.params cfg offender.1 offender.2)).1 [] :=
      computeSlash_stores s _
    rcases hsl : slashOffender cfg s offender.1 (terms.params cfg offender.1 offender.2) with ⟨t, _ | unapplied⟩
    · rw [hsl] at hco
      exact hco
    · rw [hsl] at hco
      exact hco.trans (recordSlash_stores hd (hco.activeEra.trans hac) (hco.earliest_ne hea))

theorem handleOffenders_stores {offenders : List (OffenceDetails A × Perbill)} {w : Weight}
    (hac : s.eras.activeEra = some terms.activeEra) (hea : s.earliestUnappliedSlash ≠ none) :
    Stores s (offenders.foldl (handleOffender cfg terms) (s, w)).1 (slashesOf cfg terms s offenders) := by
  induction offenders generalizing s w with
  | nil => exact .nothing rfl rfl rfl rfl
  | cons offender offenders ih =>
    have hone : Stores s (handleOffender cfg terms (s, w) offender).1 (slashOf cfg terms s offender).toList :=
      handleOffender_stores hd hac hea
    have hr : Stores (handleOffender cfg terms (s, w) offender).1
        (offenders.foldl (handleOffender cfg terms) (handleOffender cfg terms (s, w) offender)).1
        (slashesOf cfg terms (handleOffender cfg terms (s, w) offender).1 offenders) :=
      ih (hone.activeEra.trans hac) (hone.earliest_ne hea)
    rw [slashesOf, ← handleOffender_weight offender w]
    exact hone.trans hr

theorem onOffence_stores (s : State A) (off : DeferredOffence A) (strat : DisableStrategy) :
    Stores s (onOffence cfg s off strat).1 (reported cfg s off strat) := by
  unfold onOffence reported
  split
  · exact .nothing rfl rfl rfl rfl
  · cases hac : s.eras.activeEra with
    | none => exact .nothing rfl rfl rfl rfl
    | some activeEra =>
      dsimp only
      cases (slashEra cfg s activeEra off.slashSession).1 with
      | none => exact .nothing rfl rfl rfl rfl
      | some era =>
        -- the bound is set before the slashes are recorded
        have hbo : Stores s { s with
            earliestUnappliedSlash := some (s.earliestUnappliedSlash.getD activeEra) } [] := by
          refine ⟨rfl, rfl, fun era => by rw [ite_self, append_nil], ?_, fun h => absurd rfl h⟩
          cases hea : s.earliestUnappliedSlash with
          | none => exact .inr ⟨rfl, hac.symm⟩
          | some earliest => exact .inl rfl
        exact hbo.trans (handleOffenders_stores hd hac (Option.some_ne_none _))

theorem retainDeferred_stores {deferred : List (DeferredOffence A)} {used : Weight} :
    Stores s (retainDeferred cfg s used deferred).1 (replayed cfg s used deferred) := by
  induction deferred generalizing s used with
  | nil => exact .nothing rfl rfl rfl rfl
  | cons off deferred ih =>
    rw [retainDeferred, replayed]
    split
    · exact ih
    · exact (onOffence_stores hd s off .whenSlashed).trans ih

def replayedOnInitialize (cfg : Config A) (s : State A) : List (UnappliedSlash A) :=
  if s.staking.electionClosed = false then [] else replayed cfg s 0 s.deferredOffences

theorem offencesOnInitialize_stores (s : State A) :
    Stores s (offencesOnInitialize cfg s).1 (replayedOnInitialize cfg s) := by
  unfold offencesOnInitialize replayedOnInitialize
  split
  · exact .nothing rfl rfl rfl rfl
  · exact Stores.keep (retainDeferred_stores hd) (.nothing rfl rfl rfl rfl)

end

/-! ### Starts of eras -/

theorem applyEras_staking {eras : List EraIndex} (hno : eras.Nodup) : (eras.foldl (applyEraSlashes cfg) s).staking =
      (eras.flatMap fun era => s.unappliedSlashes.getD era []).foldl (applySlash cfg) s.staking := by
  induction eras generalizing s with
  | nil => rfl
  | cons era eras ih =>
    obtain ⟨hera, hr⟩ := nodup_cons.mp hno
    have hoth : (eras.flatMap fun e => (s.unappliedSlashes.remove era).getD e []) =
        eras.flatMap fun e => s.unappliedSlashes.getD e [] := by
      refine flatMap_congr fun e he => ?_
      rw [getD_remove, if_neg (fun heq : e = era => hera (heq ▸ he))]
    rw [foldl_cons, ih hr, flatMap_cons, foldl_append]
    exact congrArg (List.foldl (applySlash cfg) _) hoth

theorem applyEras_unapplied {eras : List EraIndex} {e : EraIndex} :
    (eras.foldl (applyEraSlashes cfg) s).unappliedSlashes.getD e [] =
      if e ∈ eras then [] else s.unappliedSlashes.getD e [] := by
  induction eras generalizing s with
  | nil => rfl
  | cons era eras ih =>
    rw [foldl_cons, ih]
    show (if e ∈ eras then [] else (s.unappliedSlashes.remove era).getD e []) = _
    rw [getD_remove]
    by_cases hmem : e ∈ eras
    · rw [if_pos hmem, if_pos (mem_cons_of_mem era hmem)]
    · have hco : e ∈ era :: eras ↔ e = era := by
        rw [mem_cons]
        exact or_iff_left hmem
      rw [if_neg hmem, if_congr hco rfl rfl]

theorem applyEras_eras {eras : List EraIndex} : (eras.foldl (applyEraSlashes cfg) s).eras = s.eras := by
  induction eras generalizing s with
  | nil => rfl
  | cons era eras ih => exact ih

def erasToApply (earliest keepFrom : EraIndex) : List EraIndex :=
  (List.range' earliest.toNat (keepFrom.toNat - earliest.toNat)).map (BitVec.ofNat 32)

theorem mem_erasToApply {earliest keepFrom e : EraIndex} :
    e ∈ erasToApply earliest keepFrom ↔ earliest.toNat ≤ e.toNat ∧ e.toNat < keepFrom.toNat := by
  have hke := keepFrom.isLt
  constructor
  · intro hmem
    obtain ⟨n, hn, rfl⟩ := mem_map.mp hmem
    have hra := mem_range'_1.mp hn
    have hnat : (BitVec.ofNat 32 n).toNat = n := by
      rw [BitVec.toNat_ofNat]
      exact Nat.mod_eq_of_lt (by omega)
    omega
  · intro hbo
    refine mem_map.mpr ⟨e.toNat, mem_range'_1.mpr (by omega), ?_⟩
    rw [BitVec.ofNat_toNat, BitVec.setWidth_eq]

theorem erasToApply_nodup (earliest keepFrom : EraIndex) : (erasToApply earliest keepFrom).Nodup := by
  refine List.Nodup.map_on (fun a ha b hb heq => ?_) nodup_range'
  have hke := keepFrom.isLt
  have hra := mem_range'_1.mp ha
  have hrn := mem_range'_1.mp hb
  have hnat := congrArg BitVec.toNat heq
  rw [BitVec.toNat_ofNat, BitVec.toNat_ofNat, Nat.mod_eq_of_lt (by omega), Nat.mod_eq_of_lt (by omega)] at hnat
  exact hnat

def nextEra (s : State A) : EraIndex := (s.eras.activeEra.map (· + 1)).getD 0

def keptFrom (cfg : Config A) (s : State A) : EraIndex :=
  Word.saturatingSub (nextEra s) cfg.slashDeferDuration

def dueEras (cfg : Config A) (s : State A) : List EraIndex :=
  match s.earliestUnappliedSlash with
  | none => []
  | some earliest => erasToApply earliest (keptFrom cfg s)

structure Starts (cfg : Config A) (s t : State A) : Prop where
  activeEra : t.eras.activeEra = some (nextEra s)
  staking : t.staking =
    ((dueEras cfg s).flatMap fun era => s.unappliedSlashes.getD era []).foldl (applySlash cfg) s.staking
  unapplied : ∀ e, t.unappliedSlashes.getD e [] = if e ∈ dueEras cfg s then [] else s.unappliedSlashes.getD e []
  earliest : t.earliestUnappliedSlash = s.earliestUnappliedSlash.map fun earliest =>
    if earliest.toNat ≤ (keptFrom cfg s).toNat then keptFrom cfg s else earliest

theorem startEra_pruned (cfg : Config A) (s : State A) (startSession : SessionIndex) :
    ∃ bonded metadata, startEra cfg s startSession = applyUnappliedSlashes cfg
      { s with eras := s.eras.startEra, bondedEras := bonded, metadata := metadata } (nextEra s) := by
  obtain ⟨bonded, metadata, hpr⟩ : ∃ bonded metadata,
      pruneBondedEras cfg { s with eras := s.eras.startEra } (nextEra s) startSession =
        { s with eras := s.eras.startEra, bondedEras := bonded, metadata := metadata } := by
    unfold pruneBondedEras
    dsimp only
    split <;> exact ⟨_, _, rfl⟩
  exact ⟨bonded, metadata, congrArg (applyUnappliedSlashes cfg · (nextEra s)) hpr⟩

theorem startEra_starts (cfg : Config A) (s : State A) (startSession : SessionIndex) :
    Starts cfg s (startEra cfg s startSession) := by
  obtain ⟨bonded, metadata, hst⟩ := startEra_pruned cfg s startSession
  rw [hst]
  unfold applyUnappliedSlashes
  cases hea : s.earliestUnappliedSlash with
  | none =>
    have hdue : dueEras cfg s = [] := by rw [dueEras, hea]
    refine ⟨rfl, ?_, fun e => ?_, ?_⟩
    · rw [hdue]
      rfl
    · rw [hdue]
      rfl
    · rw [hea]
      rfl
  | some earliest =>
    have hdue : dueEras cfg s = erasToApply earliest (keptFrom cfg s) := by rw [dueEras, hea]
    refine ⟨congrArg Eras.activeEra applyEras_eras, ?_, fun e => ?_, ?_⟩
    · rw [hdue]
      exact applyEras_staking (erasToApply_nodup earliest (keptFrom cfg s))
    · rw [hdue]
      exact applyEras_unapplied
    · rw [hea]
      rfl

end

/-! ### The docket -/

/-- Eras counted from zero, without a bound, each with the slashes recorded while it was active and not cancelled. -/
structure Docket (A : Type) where
  /-- The number of the active era. -/
  era : Option Nat
  kept : Nat → List (UnappliedSlash A)

namespace Docket

variable {A : Type}

def next (dk : Docket A) : Nat := (dk.era.map (· + 1)).getD 0

def record (dk : Docket A) (slashes : List (UnappliedSlash A)) : Docket A :=
  match dk.era with
  | none => dk
  | some n => { dk with kept := Function.update dk.kept n (dk.kept n ++ slashes) }

def cancel (dk : Docket A) (n : Nat) (indices : List (BitVec 32)) : Docket A :=
  { dk with kept := Function.update dk.kept n (dropAt indices 0 (dk.kept n)) }

def due (dk : Docket A) (dur n : Nat) : List (UnappliedSlash A) :=
  if dur + 1 ≤ n then dk.kept (n - (dur + 1)) else []

def Passed (dk : Docket A) (dur n : Nat) : Prop := ∃ active ∈ dk.era, n + dur + 1 ≤ active

end Docket

section
variable {A : Type} [DecidableEq A] (cfg : Config A)

/-- A report, the hook for deferred reports, the start of an era, the cancelling of slashes, or anything else that
leaves the active era and the unapplied slashes alone. -/
inductive DeferOp (A : Type) where
  | onOffence (offence : DeferredOffence A) (disableStrategy : DisableStrategy)
  | offencesOnInitialize
  | startEra (startSession : SessionIndex)
  | cancelDeferredSlash (era : EraIndex) (slashIndices : List (BitVec 32))
  | other (s : State A)

def deferStep (s : State A) : DeferOp A → State A
  | .onOffence offence disableStrategy => (onOffence cfg s offence disableStrategy).1
  | .offencesOnInitialize => (offencesOnInitialize cfg s).1
  | .startEra startSession => startEra cfg s startSession
  | .cancelDeferredSlash era slashIndices => Result.getD (cancelDeferredSlash s era slashIndices) s
  | .other t =>
    { t with
      eras := { t.eras with activeEra := s.eras.activeEra }
      unappliedSlashes := s.unappliedSlashes
      earliestUnappliedSlash := s.earliestUnappliedSlash }

/-- What is recorded is what the report or the hook computes in the state. -/
def docketStep (s : State A) (dk : Docket A) : DeferOp A → Docket A
  | .onOffence offence disableStrategy => dk.record (reported cfg s offence disableStrategy)
  | .offencesOnInitialize => dk.record (replayedOnInitialize cfg s)
  | .startEra _ => { dk with era := some dk.next }
  | .cancelDeferredSlash era slashIndices =>
    if (cancelDeferredSlash s era slashIndices).isOk then dk.cancel era.toNat slashIndices else dk
  | .other _ => dk

def docketed (r : State A × Docket A) (op : DeferOp A) : State A × Docket A :=
  (deferStep cfg r.1 op, docketStep cfg r.1 r.2 op)

def Docket.init (s : State A) : Docket A := ⟨s.eras.activeEra.map BitVec.toNat, fun _ => []⟩

/-- The start of an era applies what is due, and nothing else does. -/
def OnTime (r : State A × Docket A) : DeferOp A → Prop
  | .startEra startSession => (startEra cfg r.1 startSession).staking =
      (r.2.due cfg.slashDeferDuration.toNat r.2.next).foldl (applySlash cfg) r.1.staking
  | .other _ => True
  | op => (deferStep cfg r.1 op).staking = r.1.staking

def EraFits (r : State A × Docket A) : DeferOp A → Prop
  | .startEra _ => r.2.next < 2 ^ 32
  | _ => True

end

section
variable {A : Type} (cfg : Config A)

/-- The storage holds the slashes of the docket that are not due yet, under eras not before the bound. -/
structure Pending (r : State A × Docket A) : Prop where
  era : r.2.era = r.1.eras.activeEra.map BitVec.toNat
  due : ∀ e : EraIndex, r.2.Passed cfg.slashDeferDuration.toNat e.toNat → r.1.unappliedSlashes.getD e [] = []
  stored : ∀ e : EraIndex, ¬ r.2.Passed cfg.slashDeferDuration.toNat e.toNat →
    r.1.unappliedSlashes.getD e [] = r.2.kept e.toNat
  earliest_le : ∀ earliest ∈ r.1.earliestUnappliedSlash, ∃ active ∈ r.2.era, earliest.toNat ≤ active
  bounded : ∀ e : EraIndex, r.1.unappliedSlashes.getD e [] ≠ [] →
    ∃ earliest ∈ r.1.earliestUnappliedSlash, earliest.toNat ≤ e.toNat

variable {cfg} {r : State A × Docket A}

theorem Pending.init (s : State A) (hun : s.unappliedSlashes = ∅)
    (hea : s.earliestUnappliedSlash = none) : Pending cfg (s, Docket.init s) where
  era := rfl
  due e _ := by
    rw [hun]
    rfl
  stored e _ := by
    rw [hun]
    rfl
  earliest_le earliest h := by
    rw [hea] at h
    cases h
  bounded e h := by
    rw [hun] at h
    exact absurd rfl h

variable {s t : State A} {dk : Docket A}

theorem Docket.not_passed {n : Nat} (dur : Nat) (hera : dk.era = some n) : ¬ dk.Passed dur n := by
  rintro ⟨active, hac, hle⟩
  rw [hera] at hac
  cases hac
  omega

theorem Pending.of_eq (h : Pending cfg (s, dk)) (hac : t.eras.activeEra = s.eras.activeEra)
    (hun : ∀ e, t.unappliedSlashes.getD e [] = s.unappliedSlashes.getD e [])
    (hea : t.earliestUnappliedSlash = s.earliestUnappliedSlash) : Pending cfg (t, dk) := by
  refine ⟨?_, fun e => ?_, fun e => ?_, ?_, fun e => ?_⟩
  · rw [hac]
    exact h.era
  · rw [hun]
    exact h.due e
  · rw [hun]
    exact h.stored e
  · rw [hea]
    exact h.earliest_le
  · rw [hun, hea]
    exact h.bounded e

theorem Docket.record_era (slashes : List (UnappliedSlash A)) : (dk.record slashes).era = dk.era := by
  unfold Docket.record
  split <;> rfl

theorem Docket.record_kept (slashes : List (UnappliedSlash A)) (n : Nat) :
    (dk.record slashes).kept n = dk.kept n ++ if dk.era = some n then slashes else [] := by
  unfold Docket.record
  cases dk.era with
  | none => rw [if_neg (fun h => by cases h), append_nil]
  | some active =>
    dsimp only
    by_cases hn : n = active
    · rw [hn, Function.update_self, if_pos rfl]
    · rw [Function.update_of_ne hn, if_neg (fun h => hn (Option.some.inj h).symm), append_nil]

theorem Pending.era_eq_iff (h : Pending cfg (s, dk)) (e : EraIndex) :
    dk.era = some e.toNat ↔ s.eras.activeEra = some e := by
  have hera := h.era
  rw [hera, Option.map_eq_some_iff]
  constructor
  · rintro ⟨active, hac, hnat⟩
    rw [hac, BitVec.eq_of_toNat_eq hnat]
  · exact fun hac => ⟨e, hac, rfl⟩

theorem Pending.record {slashes : List (UnappliedSlash A)} (h : Pending cfg (s, dk))
    (hs : Stores s t slashes) : Pending cfg (t, dk.record slashes) := by
  have hpa (n : Nat) : (dk.record slashes).Passed cfg.slashDeferDuration.toNat n ↔
      dk.Passed cfg.slashDeferDuration.toNat n := by
    unfold Docket.Passed
    rw [Docket.record_era]
  have hle : ∀ earliest ∈ t.earliestUnappliedSlash, ∃ active ∈ (dk.record slashes).era, earliest.toNat ≤ active := by
    intro earliest hmem
    rw [Docket.record_era]
    rcases hs.earliest with hsa | ⟨-, hset⟩
    · rw [hsa] at hmem
      exact h.earliest_le earliest hmem
    · rw [hset] at hmem
      exact ⟨_, (h.era_eq_iff earliest).mpr hmem, Nat.le_refl _⟩
  refine ⟨?_, fun e hdue => ?_, fun e hdue => ?_, hle, fun e hne => ?_⟩
  · rw [hs.activeEra, Docket.record_era]
    exact h.era
  · have hla : ¬ s.eras.activeEra = some e := fun hac =>
      Docket.not_passed _ ((h.era_eq_iff e).mpr hac) ((hpa _).mp hdue)
    rw [hs.unapplied, if_neg hla, append_nil]
    exact h.due e ((hpa _).mp hdue)
  · rw [hs.unapplied, Docket.record_kept, if_congr (h.era_eq_iff e) rfl rfl]
    exact congrArg (· ++ _) (h.stored e (mt (hpa _).mpr hdue))
  · by_cases hbe : s.unappliedSlashes.getD e [] = []
    · -- the first slash of the era
      have hnew : s.eras.activeEra = some e ∧ slashes ≠ [] := by
        rw [hs.unapplied, hbe, nil_append] at hne
        by_cases hac : s.eras.activeEra = some e
        · rw [if_pos hac] at hne
          exact ⟨hac, hne⟩
        · exact absurd (if_neg hac) hne
      obtain ⟨earliest, hmem⟩ := Option.ne_none_iff_exists'.mp (hs.bounded hnew.2)
      obtain ⟨active, hac, hlow⟩ := hle earliest hmem
      rw [Docket.record_era, (h.era_eq_iff e).mpr hnew.1] at hac
      cases hac
      exact ⟨earliest, hmem, hlow⟩
    · obtain ⟨earliest, hmem, hlow⟩ := h.bounded e hbe
      refine ⟨earliest, ?_, hlow⟩
      rcases hs.earliest with hsa | ⟨hn, -⟩
      · rwa [hsa]
      · rw [hn] at hmem
        cases hmem

theorem Pending.cancel {era : EraIndex} {ixs : List (BitVec 32)} (h : Pending cfg (s, dk))
    (hca : cancelDeferredSlash s era ixs = .ok t) :
    t.staking = s.staking ∧ Pending cfg (t, dk.cancel era.toNat ixs) := by
  simp only [cancelDeferredSlash, Result.bind_eq_ok, Result.ensure_eq_ok, Result.pure_eq_ok] at hca
  obtain ⟨_, hind, _, hso, _, hl, rfl⟩ := hca
  -- the slashes are stored, so they are not due yet
  have hst : s.unappliedSlashes.getD era [] ≠ [] := by
    intro hnil
    cases hget : ixs.getLast? with
    | none =>
      rw [getLast?_eq_none_iff.mp hget] at hind
      cases hind
    | some last =>
      rw [hget, hnil, Option.all_some, decide_eq_true_eq] at hl
      exact absurd hl (Nat.not_lt_zero _)
  have hnp : ¬ dk.Passed cfg.slashDeferDuration.toNat era.toNat := fun hpa => hst (h.due era hpa)
  have hre : removeSlashes 0 ixs (s.unappliedSlashes.getD era []) = dropAt ixs 0 (dk.kept era.toNat) := by
    rw [removeSlashes_eq hso hl, h.stored era hnp]
  refine ⟨rfl, h.era, fun e hpa => ?_, fun e hpa => ?_, h.earliest_le, fun e hne => ?_⟩
  · have hoth : e ≠ era := by
      rintro rfl
      exact hnp hpa
    show (s.unappliedSlashes.insert era _).getD e [] = []
    rw [getD_insert, if_neg hoth]
    exact h.due e hpa
  · show (s.unappliedSlashes.insert era _).getD e [] = Function.update dk.kept era.toNat _ e.toNat
    rw [getD_insert, hre]
    by_cases heq : e = era
    · rw [if_pos heq, heq, Function.update_self]
    · have hnat : e.toNat ≠ era.toNat := fun hcon => heq (BitVec.eq_of_toNat_eq hcon)
      rw [if_neg heq, Function.update_of_ne hnat]
      exact h.stored e hpa
  · by_cases heq : e = era
    · rw [heq]
      exact h.bounded era hst
    · refine h.bounded e ?_
      have hs : (s.unappliedSlashes.insert era (removeSlashes 0 ixs (s.unappliedSlashes.getD era []))).getD e [] =
          s.unappliedSlashes.getD e [] := by rw [getD_insert, if_neg heq]
      rw [← hs]
      exact hne

theorem Docket.passed_iff {dur n : Nat} : dk.Passed dur n ↔ n + dur + 1 < dk.next := by
  unfold Docket.Passed Docket.next
  cases dk.era with
  | none => exact iff_of_false (fun ⟨_, h, _⟩ => by cases h) (Nat.not_lt_zero _)
  | some active =>
    constructor
    · rintro ⟨_, h, hle⟩
      cases h
      exact Nat.lt_succ_of_le hle
    · exact fun hlt => ⟨active, rfl, Nat.le_of_lt_succ hlt⟩

theorem Docket.lt_next {active : Nat} (h : active ∈ dk.era) : active < dk.next := by
  have hera : dk.era = some active := h
  rw [Docket.next, hera]
  exact Nat.lt_succ_self active

theorem mem_dueEras {e : EraIndex} : e ∈ dueEras cfg s ↔ ∃ earliest ∈ s.earliestUnappliedSlash,
      earliest.toNat ≤ e.toNat ∧ e.toNat < (keptFrom cfg s).toNat := by
  unfold dueEras
  cases s.earliestUnappliedSlash with
  | none => exact iff_of_false not_mem_nil (fun ⟨_, h, _⟩ => by cases h)
  | some earliest =>
    rw [mem_erasToApply]
    exact ⟨fun h => ⟨earliest, rfl, h⟩, fun ⟨_, hmem, h⟩ => by cases hmem; exact h⟩

theorem dueEras_nodup : (dueEras cfg s).Nodup := by
  unfold dueEras
  cases s.earliestUnappliedSlash with
  | none => exact nodup_nil
  | some earliest => exact erasToApply_nodup earliest _

section
variable (h : Pending cfg (s, dk)) (hf : dk.next < 2 ^ 32)
include h hf

theorem Pending.toNat_nextEra : (nextEra s).toNat = dk.next := by
  have hera := h.era
  rw [Docket.next, hera] at hf ⊢
  unfold nextEra
  cases hac : s.eras.activeEra with
  | none => rfl
  | some active =>
    rw [hac] at hf
    have hlt : active.toNat + 1 < 2 ^ 32 := hf
    show (active + 1).toNat = active.toNat + 1
    bv_omega

theorem Pending.toNat_keptFrom : (keptFrom cfg s).toNat = dk.next - cfg.slashDeferDuration.toNat := by
  rw [keptFrom, Word.toNat_saturatingSub, h.toNat_nextEra hf]

theorem Pending.due_of_mem {e : EraIndex} (hmem : e ∈ dueEras cfg s) :
    e.toNat + cfg.slashDeferDuration.toNat + 1 ≤ dk.next := by
  obtain ⟨earliest, -, -, hlt⟩ := mem_dueEras.mp hmem
  rw [h.toNat_keptFrom hf] at hlt
  omega

theorem Pending.nil_of_not_mem {e : EraIndex}
    (hdue : e.toNat + cfg.slashDeferDuration.toNat + 1 ≤ dk.next) (hmem : e ∉ dueEras cfg s) :
    s.unappliedSlashes.getD e [] = [] := by
  by_contra hne
  obtain ⟨earliest, hea, hle⟩ := h.bounded e hne
  refine hmem (mem_dueEras.mpr ⟨earliest, hea, hle, ?_⟩)
  rw [h.toNat_keptFrom hf]
  omega

theorem Pending.flatMap_due :
    ((dueEras cfg s).flatMap fun era => s.unappliedSlashes.getD era []) =
      dk.due cfg.slashDeferDuration.toNat dk.next := by
  unfold Docket.due
  split_ifs with hre
  · obtain ⟨last, hl⟩ : ∃ last : EraIndex, last.toNat = dk.next - (cfg.slashDeferDuration.toNat + 1) :=
      ⟨BitVec.ofNat 32 _, by
        rw [BitVec.toNat_ofNat]
        exact Nat.mod_eq_of_lt (by omega)⟩
    have hey : ∀ e ∈ dueEras cfg s, e ≠ last → s.unappliedSlashes.getD e [] = [] := by
      intro e hmem hne
      have hnat : e.toNat ≠ last.toNat := fun hcon => hne (BitVec.eq_of_toNat_eq hcon)
      have hle := h.due_of_mem hf hmem
      have hpa : dk.Passed cfg.slashDeferDuration.toNat e.toNat := Docket.passed_iff.mpr (by omega)
      exact h.due e hpa
    have hnp : ¬ dk.Passed cfg.slashDeferDuration.toNat last.toNat := by
      rw [Docket.passed_iff]
      omega
    have hst := h.stored last hnp
    rw [flatMap_of_single dueEras_nodup hey, ← hl, ← hst]
    split_ifs with hmem
    · rfl
    · exact (h.nil_of_not_mem hf (by omega) hmem).symm
  · have hn : dueEras cfg s = [] := by
      refine eq_nil_iff_forall_not_mem.mpr fun e hmem => ?_
      have hle := h.due_of_mem hf hmem
      omega
    rw [hn]
    rfl

end

end

section
variable {A : Type} [DecidableEq A] {cfg : Config A} {s t : State A}
  {dk : Docket A} {r : State A × Docket A} {op : DeferOp A}

theorem Pending.start (h : Pending cfg (s, dk)) (hf : dk.next < 2 ^ 32) (hs : Starts cfg s t) :
    Pending cfg (t, { dk with era := some dk.next }) := by
  have hpa (n : Nat) : Docket.Passed { dk with era := some dk.next } cfg.slashDeferDuration.toNat n ↔
      n + cfg.slashDeferDuration.toNat + 1 ≤ dk.next := by
    rw [Docket.passed_iff]
    exact Nat.lt_succ_iff
  refine ⟨?_, fun e hdue => ?_, fun e hdue => ?_, fun earliest hea => ?_, fun e hne => ?_⟩
  · rw [hs.activeEra]
    exact congrArg some (h.toNat_nextEra hf).symm
  · rw [hs.unapplied]
    split_ifs with hmem
    · rfl
    · exact h.nil_of_not_mem hf ((hpa _).mp hdue) hmem
  · have hla := mt (hpa _).mpr hdue
    have hmem : e ∉ dueEras cfg s := fun hmem => hla (h.due_of_mem hf hmem)
    have hnp : ¬ dk.Passed cfg.slashDeferDuration.toNat e.toNat := by
      rw [Docket.passed_iff]
      omega
    rw [hs.unapplied, if_neg hmem]
    exact h.stored e hnp
  · refine ⟨dk.next, rfl, ?_⟩
    rw [hs.earliest] at hea
    obtain ⟨before, hbe, rfl⟩ := Option.mem_map.mp hea
    split
    · rw [h.toNat_keptFrom hf]
      exact Nat.sub_le _ _
    · obtain ⟨active, hac, hle⟩ := h.earliest_le before hbe
      exact hle.trans (Docket.lt_next hac).le
  · rw [hs.unapplied] at hne
    have hmem : e ∉ dueEras cfg s := fun hmem => hne (if_pos hmem)
    rw [if_neg hmem] at hne
    obtain ⟨before, hbe, hle⟩ := h.bounded e hne
    refine ⟨_, hs.earliest ▸ Option.mem_map_of_mem _ hbe, ?_⟩
    have hk : (keptFrom cfg s).toNat ≤ e.toNat := by
      by_contra hlt
      exact hmem (mem_dueEras.mpr ⟨before, hbe, hle, Nat.lt_of_not_le hlt⟩)
    split
    · exact hk
    · exact hle

theorem Pending.step (hd : cfg.slashDeferDuration ≠ 0) (hf : EraFits r op) (h : Pending cfg r) :
    OnTime cfg r op ∧ Pending cfg (docketed cfg r op) := by
  obtain ⟨s, dk⟩ := r
  cases op with
  | onOffence off strat =>
    have hs := onOffence_stores hd s off strat
    exact ⟨hs.staking, h.record hs⟩
  | offencesOnInitialize =>
    have hs := offencesOnInitialize_stores hd s
    exact ⟨hs.staking, h.record hs⟩
  | startEra startSession =>
    have hs := startEra_starts cfg s startSession
    refine ⟨?_, h.start hf hs⟩
    show (startEra cfg s startSession).staking = _
    rw [hs.staking, h.flatMap_due hf]
  | cancelDeferredSlash era ixs =>
    cases hca : cancelDeferredSlash s era ixs with
    | error e =>
      have hstep : docketed cfg (s, dk) (.cancelDeferredSlash era ixs) = (s, dk) := by
        simp only [docketed, deferStep, docketStep, hca]
        rfl
      rw [hstep]
      refine ⟨?_, h⟩
      exact congrArg (fun r : State A × Docket A => r.1.staking) hstep
    | ok t =>
      have hstep : docketed cfg (s, dk) (.cancelDeferredSlash era ixs) = (t, dk.cancel era.toNat ixs) := by
        simp only [docketed, deferStep, docketStep, hca]
        rfl
      obtain ⟨hst, hpe⟩ := h.cancel hca
      rw [hstep]
      refine ⟨?_, hpe⟩
      exact (congrArg (fun r : State A × Docket A => r.1.staking) hstep).trans hst
  | other t => exact ⟨trivial, h.of_eq rfl (fun _ => rfl) rfl⟩

/-- Deferred slashes take effect once and on time: from a state in which nothing has been recorded, as long as the index
of the era fits, each start of an era applies, in order, the slashes recorded while the era `slashDeferDuration + 1`
before was active and not cancelled, and nothing else does. -/
theorem deferred_slashes_apply_once (cfg : Config A) (hd : cfg.slashDeferDuration ≠ 0) (s : State A)
    (hunapplied : s.unappliedSlashes = ∅) (hearliest : s.earliestUnappliedSlash = none) (ops : List (DeferOp A))
    (hfits : Each (docketed cfg) EraFits (s, Docket.init s) ops) :
    Each (docketed cfg) (OnTime cfg) (s, Docket.init s) ops := by
  have hs : ∀ r op, EraFits r op → Pending cfg r → OnTime cfg r op ∧ Pending cfg (docketed cfg r op) :=
    fun r op hfits h => h.step hd hfits
  exact hfits.imp (fun r op hfits h => (hs r op hfits h).2) (fun r op h hfits => (hs r op hfits h).1)
    (Pending.init s hunapplied hearliest)

end

def sampleReport : DeferredOffence Nat where
  offenders := [⟨(1, ⟨250, 50, [⟨3, 200⟩]⟩), [5]⟩]
  slashFraction := [Perbill.fromPercent 10]
  slashSession := 0

def nextEraConfig : Config Nat := { sampleConfig with slashDeferDuration := 1 }

theorem slash_applied_two_eras_later :
    let ops : List (DeferOp Nat) :=
      [.onOffence sampleReport .whenSlashed,
        .onOffence { sampleReport with slashFraction := [Perbill.fromPercent 20] } .whenSlashed,
        .cancelDeferredSlash 5 [0], .startEra 0, .startEra 0]
    let balances (n : Nat) := [1, 3].map
      ((execute (deferStep nextEraConfig) (sampleState 5) (ops.take n)).staking.assets.freeOf 16000)
    [balances 3, balances 4, balances 5] = [[100, 100], [100, 100], [95, 80]] ∧
      Each (docketed nextEraConfig) (OnTime nextEraConfig) (sampleState 5, Docket.init (sampleState 5)) ops := by
  intro ops balances
  refine ⟨by decide +kernel, deferred_slashes_apply_once nextEraConfig (by decide) (sampleState 5) rfl rfl ops ?_⟩
  refine ⟨trivial, trivial, trivial, ?_, ?_, trivial⟩
  · show Docket.next _ < 2 ^ 32
    decide +kernel
  · show Docket.next _ < 2 ^ 32
    decide +kernel

theorem execute_startEra {A : Type} [DecidableEq A] (cfg : Config A)
    (kept : Nat → List (UnappliedSlash A)) (n : Nat) {s : State A} {active : Nat} (hea : s.earliestUnappliedSlash = none)
    (hac : s.eras.activeEra = some (BitVec.ofNat 32 active)) :
    ∃ t, execute (docketed cfg) (s, ⟨some active, kept⟩) (List.replicate n (.startEra 0)) =
        (t, ⟨some (active + n), kept⟩) ∧
      t.unappliedSlashes = s.unappliedSlashes ∧ t.earliestUnappliedSlash = none ∧
      t.eras.activeEra = some (BitVec.ofNat 32 (active + n)) := by
  induction n generalizing s active with
  | zero => exact ⟨s, rfl, rfl, hea, hac⟩
  | succ n ih =>
    have hs : (startEra cfg s 0).unappliedSlashes = s.unappliedSlashes ∧
        (startEra cfg s 0).earliestUnappliedSlash = none := by
      obtain ⟨bonded, metadata, hst⟩ := startEra_pruned cfg s 0
      rw [hst, applyUnappliedSlashes]
      simp only [hea, and_self]
    have hx : (startEra cfg s 0).eras.activeEra = some (BitVec.ofNat 32 (active + 1)) := by
      rw [(startEra_starts cfg s 0).activeEra, nextEra, hac, BitVec.ofNat_add]
      rfl
    obtain ⟨t, hrun, hun, hn, hera⟩ := ih hs.2 hx
    rw [Nat.add_right_comm] at hrun hera
    exact ⟨t, hrun, hun.trans hs.1, hn, hera⟩

/-- The index of the era wraps around: a slash recorded in the era with the largest index is not applied two eras later,
although slashes are deferred by one. -/
theorem wrapped_era_skips_slash :
    ¬ Each (docketed nextEraConfig) (OnTime nextEraConfig) (sampleState 0, Docket.init (sampleState 0))
      (List.replicate 4294967295 (.startEra 0) ++
        [.other (sampleState 0), .onOffence sampleReport .whenSlashed, .startEra 0, .startEra 0]) := by
  intro hall
  have hr := (each_append.mp hall).2
  have hera : (sampleState 0).eras.activeEra = some (BitVec.ofNat 32 0) := rfl
  obtain ⟨t, hrun, hun, hea, hac⟩ :=
    execute_startEra nextEraConfig (fun _ => []) 4294967295 (s := sampleState 0) rfl hera
  have hini : Docket.init (sampleState 0) = ⟨some 0, fun _ => []⟩ := rfl
  rw [hini, hrun] at hr
  have hoth : docketed nextEraConfig (t, ⟨some (0 + 4294967295), fun _ => []⟩) (.other (sampleState 0)) =
      ({ sampleState 0 with eras := { (sampleState 0).eras with activeEra := some 4294967295 } },
        ⟨some 4294967295, fun _ => []⟩) := by
    simp only [docketed, deferStep, docketStep, hun, hea, hac]
    rfl
  obtain ⟨-, -, -, hl, -⟩ := hr
  rw [hoth] at hl
  have hba := congrArg (fun staking : Staking.State Nat => staking.assets.freeOf 16000 1) hl
  revert hba
  decide +kernel

end Staking.Slashing
