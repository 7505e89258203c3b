import Mathlib.Data.List.AList
import Mathlib.Data.List.Sort
import Mathlib.Algebra.BigOperators.Group.List.Basic
import Mathlib.Algebra.Order.BigOperators.Group.List
import Mathlib.Algebra.Order.Group.Nat
import Mathlib.Algebra.Ring.Nat

/-! # Storage maps

A storage map holds finitely many keys, each with one value (`AList`). A map whose keys are pairs is a double map:
`iterPrefix` lists and `removePrefix` clears the entries that share a first key. The order of iteration is that of the
hashed keys, so a walk that depends on it takes it as an argument (`iterBy`). -/

/-- A map with finitely many keys. -/
structure StorageMap (K V : Type) where
  toAList : AList (fun _ : K => V)
deriving DecidableEq

namespace StorageMap

variable {K V : Type}

instance : EmptyCollection (StorageMap K V) := ⟨⟨∅⟩⟩

def entries (m : StorageMap K V) : List (K × V) := m.toAList.entries.map fun e => (e.1, e.2)

def iterBy (le : K → K → Bool) (m : StorageMap K V) : List (K × V) :=
  m.entries.insertionSort fun a b => le a.1 b.1 = true

def sumBy (f : K → V → Nat) (m : StorageMap K V) : Nat := (m.entries.map fun e => f e.1 e.2).sum

def filterKeys (p : K → Bool) (m : StorageMap K V) : StorageMap K V :=
  ⟨⟨m.toAList.entries.filter fun e => p e.1, m.toAList.nodupKeys.sublist List.filter_sublist⟩⟩

def mapValues (f : V → V) (m : StorageMap K V) : StorageMap K V :=
  ⟨⟨m.toAList.entries.map fun e => ⟨e.1, f e.2⟩, by
    have hkeys : (m.toAList.entries.map fun e => (⟨e.1, f e.2⟩ : Sigma fun _ : K => V)).keys = m.toAList.entries.keys := by
      unfold List.keys
      rw [List.map_map]
      rfl
    unfold List.NodupKeys
    rw [hkeys]
    exact m.toAList.nodupKeys⟩⟩

theorem nodup_keys (m : StorageMap K V) : (m.entries.map Prod.fst).Nodup := by
  have h := AList.keys_nodup m.toAList
  unfold entries
  rw [List.map_map]
  exact h

section
variable [DecidableEq K]

def get? (m : StorageMap K V) (k : K) : Option V := m.toAList.lookup k

def getD (m : StorageMap K V) (k : K) (d : V) : V := (m.get? k).getD d

def contains (m : StorageMap K V) (k : K) : Bool := (m.get? k).isSome

def insert (m : StorageMap K V) (k : K) (v : V) : StorageMap K V := ⟨m.toAList.insert k v⟩

def remove (m : StorageMap K V) (k : K) : StorageMap K V := ⟨m.toAList.erase k⟩

/-- Writes one value under each key of a list. -/
def insertAll (m : StorageMap K V) (ks : List K) (v : V) : StorageMap K V := ks.foldl (fun m k => m.insert k v) m

def removeAll (m : StorageMap K V) (ks : List K) : StorageMap K V := ks.foldl remove m

/-! ### Reading after writing -/

variable {m : StorageMap K V} {k k' : K} {v : V} {d : V}

@[simp] theorem get?_empty : (∅ : StorageMap K V).get? k = none := AList.lookup_empty k

@[simp] theorem get?_insert : (m.insert k v).get? k' = if k' = k then some v else m.get? k' := by
  unfold get? insert
  split_ifs with h
  · rw [h, AList.lookup_insert]
  · exact AList.lookup_insert_ne h

@[simp] theorem get?_remove : (m.remove k).get? k' = if k' = k then none else m.get? k' := by
  unfold get? remove
  split_ifs with h
  · rw [h, AList.lookup_erase]
  · exact AList.lookup_erase_ne h

@[simp] theorem getD_insert : (m.insert k v).getD k' d = if k' = k then v else m.getD k' d := by
  unfold getD
  rw [get?_insert]
  split <;> rfl

@[simp] theorem getD_remove : (m.remove k).getD k' d = if k' = k then d else m.getD k' d := by
  unfold getD
  rw [get?_remove]
  split <;> rfl

theorem getD_of_get? (h : m.get? k = some v) : m.getD k d = v := by
  unfold getD
  rw [h]
  rfl

theorem contains_iff : m.contains k = true ↔ ∃ v, m.get? k = some v := Option.isSome_iff_exists

theorem not_contains_iff : m.contains k = false ↔ m.get? k = none := by
  simp [contains]

theorem contains_insert : (m.insert k v).contains k' = true ↔ k' = k ∨ m.contains k' = true := by
  unfold contains
  rw [get?_insert]
  by_cases h : k' = k <;> simp [h]

theorem contains_remove : (m.remove k).contains k' = true ↔ k' ≠ k ∧ m.contains k' = true := by
  unfold contains
  rw [get?_remove]
  by_cases h : k' = k <;> simp [h]

theorem get?_insertAll {ks : List K} [hdec : Decidable (k ∈ ks)] :
    (m.insertAll ks v).get? k = if k ∈ ks then some v else m.get? k := by
  unfold insertAll
  induction ks generalizing m hdec with
  | nil => simp
  | cons x ks ih =>
    rw [List.foldl_cons, ih, get?_insert]
    by_cases hk : k ∈ ks
    · simp [hk]
    · by_cases hx : k = x <;> simp [hk, hx]

theorem get?_removeAll {ks : List K} [hdec : Decidable (k ∈ ks)] :
    (m.removeAll ks).get? k = if k ∈ ks then none else m.get? k := by
  unfold removeAll
  induction ks generalizing m hdec with
  | nil => simp
  | cons x ks ih =>
    rw [List.foldl_cons, ih, get?_remove]
    by_cases hk : k ∈ ks
    · simp [hk]
    · by_cases hx : k = x <;> simp [hk, hx]

theorem getD_removeAll {ks : List K} [Decidable (k ∈ ks)] :
    (m.removeAll ks).getD k d = if k ∈ ks then d else m.getD k d := by
  unfold getD
  rw [get?_removeAll]
  split <;> rfl

/-! What is read after a write was written, or was there before. -/

theorem get?_insert_eq_some {v' : V} :
    (m.insert k v).get? k' = some v' ↔ (k' = k ∧ v = v') ∨ (k' ≠ k ∧ m.get? k' = some v') := by
  by_cases h : k' = k <;> simp [h]

theorem get?_insert_self : (m.insert k v).get? k = some v := get?_insert.trans (if_pos rfl)

theorem get?_insert_ne (h : k' ≠ k) : (m.insert k v).get? k' = m.get? k' := get?_insert.trans (if_neg h)

theorem get?_remove_self : (m.remove k).get? k = none := get?_remove.trans (if_pos rfl)

theorem get?_remove_ne (h : k' ≠ k) : (m.remove k).get? k' = m.get? k' := get?_remove.trans (if_neg h)

theorem get?_of_insert {v' : V} (h : (m.insert k v).get? k' = some v') (hne : v ≠ v') :
    k' ≠ k ∧ m.get? k' = some v' := (get?_insert_eq_some.mp h).resolve_left fun hw => hne hw.2

theorem get?_remove_eq_some : (m.remove k).get? k' = some v ↔ k' ≠ k ∧ m.get? k' = some v := by
  by_cases h : k' = k <;> simp [h]

theorem get?_removeAll_eq_some {ks : List K} : (m.removeAll ks).get? k = some v ↔ k ∉ ks ∧ m.get? k = some v := by
  by_cases h : k ∈ ks <;> simp [get?_removeAll, h]

/-! ### Lists under a key -/

section
variable {α : Type} {lists : StorageMap K (List α)} {a x : α}

theorem mem_getD_push : x ∈ (lists.insert k (lists.getD k [] ++ [a])).getD k' [] ↔
    x ∈ lists.getD k' [] ∨ (k' = k ∧ x = a) := by
  by_cases h : k' = k <;> simp [h]

theorem mem_getD_filter {p : α → Bool} : x ∈ (lists.insert k ((lists.getD k []).filter p)).getD k' [] ↔
    x ∈ lists.getD k' [] ∧ (k' = k → p x = true) := by
  by_cases h : k' = k <;> simp [h]

theorem mem_getD_remove : x ∈ (lists.remove k).getD k' [] ↔ k' ≠ k ∧ x ∈ lists.getD k' [] := by
  by_cases h : k' = k <;> simp [h]

end

/-! ### Entries -/

theorem mem_entries : (k, v) ∈ m.entries ↔ m.get? k = some v := by
  have h := AList.mem_lookup_iff (a := k) (b := v) (s := m.toAList)
  rw [Option.mem_def] at h
  unfold get? entries
  rw [h, List.mem_map]
  constructor
  · rintro ⟨⟨a, b⟩, he, heq⟩
    cases heq
    exact he
  · intro he
    exact ⟨⟨k, v⟩, he, rfl⟩

theorem mem_iterBy {le : K → K → Bool} : (k, v) ∈ m.iterBy le ↔ m.get? k = some v := by
  unfold iterBy
  rw [List.mem_insertionSort, mem_entries]

theorem nodup_iterBy_keys {K : Type} (m : StorageMap K V) (le : K → K → Bool) : ((m.iterBy le).map Prod.fst).Nodup :=
  ((List.perm_insertionSort _ _).map Prod.fst).nodup_iff.mpr m.nodup_keys

theorem get?_filterKeys {p : K → Bool} : (m.filterKeys p).get? k = if p k then m.get? k else none := by
  have hmem : ∀ v, (m.filterKeys p).get? k = some v ↔ p k = true ∧ m.get? k = some v := by
    intro v
    have h := AList.mem_lookup_iff (a := k) (b := v) (s := m.toAList)
    have h' := AList.mem_lookup_iff (a := k) (b := v) (s := (m.filterKeys p).toAList)
    rw [Option.mem_def] at h h'
    unfold get?
    rw [h, h']
    unfold filterKeys
    rw [List.mem_filter, and_comm]
  apply Option.ext
  intro v
  rw [hmem v]
  split <;> rename_i hp <;> simp [hp]

@[simp] theorem get?_mapValues {g : V → V} : (m.mapValues g).get? k = (m.get? k).map g := by
  have hmem : ∀ v, (m.mapValues g).get? k = some v ↔ ∃ u, m.get? k = some u ∧ g u = v := by
    intro v
    simp only [← mem_entries, entries, mapValues, List.map_map, List.mem_map, Function.comp_apply, Prod.mk.injEq]
    constructor
    · rintro ⟨e, he, rfl, rfl⟩
      exact ⟨e.2, ⟨e, he, rfl, rfl⟩, rfl⟩
    · rintro ⟨u, ⟨e, he, rfl, rfl⟩, rfl⟩
      exact ⟨e, he, rfl, rfl⟩
  apply Option.ext
  intro v
  rw [hmem v, Option.map_eq_some_iff]

/-! ### Sums -/

variable {f : K → V → Nat}

/-- What the key `k` contributes to the sum of `f`. -/
def share (f : K → V → Nat) (m : StorageMap K V) (k : K) : Nat := ((m.get? k).map (f k)).getD 0

theorem sumBy_remove : (m.remove k).sumBy f + m.share f k = m.sumBy f := by
  have key : ∀ l : List (Sigma fun _ : K => V),
      ((List.kerase k l).map fun e => f e.1 e.2).sum + ((List.dlookup k l).map (f k)).getD 0 =
        (l.map fun e => f e.1 e.2).sum := by
    intro l
    induction l with
    | nil => rfl
    | cons e l ih =>
      obtain ⟨a, b⟩ := e
      by_cases h : k = a
      · subst h
        have h' : k = (⟨k, b⟩ : Sigma fun _ : K => V).1 := rfl
        rw [List.kerase_cons_eq h', List.dlookup_cons_eq, List.map_cons, List.sum_cons]
        exact Nat.add_comm _ _
      · have h' : k ≠ (⟨a, b⟩ : Sigma fun _ : K => V).1 := h
        rw [List.kerase_cons_ne h', List.dlookup_cons_ne l ⟨a, b⟩ h', List.map_cons, List.sum_cons, List.map_cons,
          List.sum_cons]
        omega
  have h := key m.toAList.entries
  unfold sumBy entries share get? remove
  rw [List.map_map, List.map_map]
  exact h

theorem sumBy_insert : (m.insert k v).sumBy f + m.share f k = m.sumBy f + f k v := by
  have h : (m.insert k v).sumBy f = f k v + (m.remove k).sumBy f := by
    unfold sumBy entries insert remove
    simp only [AList.entries_insert, List.map_cons, List.sum_cons]
    rfl
  rw [h, ← sumBy_remove (m := m) (k := k)]
  omega

theorem sumBy_eq_zero (h : ∀ k v, m.get? k = some v → f k v = 0) : m.sumBy f = 0 := by
  unfold sumBy
  rw [List.sum_eq_zero_iff_forall_eq_nat]
  intro n hn
  obtain ⟨⟨k, v⟩, hmem, rfl⟩ := List.mem_map.mp hn
  exact h k v (mem_entries.mp hmem)

theorem sumBy_le {g : K → V → Nat} (h : ∀ k v, m.get? k = some v → f k v ≤ g k v) : m.sumBy f ≤ m.sumBy g := by
  unfold sumBy
  refine List.sum_le_sum fun e he => ?_
  exact h e.1 e.2 (mem_entries.mp he)

theorem sumBy_congr {g : K → V → Nat} (h : ∀ k v, m.get? k = some v → f k v = g k v) : m.sumBy f = m.sumBy g :=
  Nat.le_antisymm (sumBy_le fun k v hget => (h k v hget).le) (sumBy_le fun k v hget => (h k v hget).ge)

theorem sumBy_change {g : K → V → Nat} (h : ∀ k' v, k' ≠ k → f k' v = g k' v) :
    m.sumBy f + m.share g k = m.sumBy g + m.share f k := by
  have hr : (m.remove k).sumBy f = (m.remove k).sumBy g :=
    sumBy_congr fun k' v hget => h k' v (get?_remove_eq_some.mp hget).1
  rw [← sumBy_remove (m := m) (k := k) (f := f), ← sumBy_remove (m := m) (k := k) (f := g), hr]
  omega

theorem share_of_get? {v : V} (h : m.get? k = some v) : m.share f k = f k v := by
  unfold share
  rw [h]
  rfl

theorem share_of_none (h : m.get? k = none) : m.share f k = 0 := by
  unfold share
  rw [h]
  rfl

/-! ### Counting in lists under keys -/

section
variable {α : Type} [DecidableEq α] {m : StorageMap K (List α)} {l : List α} {a x : α}

/-- How often the lists of a map name an element. -/
def occurrences {K : Type} (m : StorageMap K (List α)) (x : α) : Nat := m.sumBy fun _ l => l.count x

theorem share_count : m.share (fun _ l => l.count x) k = (m.getD k []).count x := by
  unfold share getD
  cases m.get? k <;> rfl

theorem occurrences_insert : occurrences (m.insert k l) x + (m.getD k []).count x = occurrences m x + l.count x := by
  rw [← share_count]
  exact sumBy_insert

theorem occurrences_remove : occurrences (m.remove k) x + (m.getD k []).count x = occurrences m x := by
  rw [← share_count]
  exact sumBy_remove

theorem occurrences_push :
    occurrences (m.insert k (m.getD k [] ++ [a])) x = occurrences m x + if x = a then 1 else 0 := by
  have hins := occurrences_insert (m := m) (k := k) (l := m.getD k [] ++ [a]) (x := x)
  simp only [List.count_append, List.count_singleton, beq_iff_eq, eq_comm (a := a)] at hins
  omega

theorem occurrences_eq_zero : occurrences m x = 0 ↔ ∀ k, x ∉ m.getD k [] := by
  constructor
  · intro hz k
    have hre := occurrences_remove (m := m) (k := k) (x := x)
    exact List.count_eq_zero.mp (by omega)
  · intro hn
    refine sumBy_eq_zero fun k l hget => List.count_eq_zero.mpr ?_
    rw [← getD_of_get? (d := []) hget]
    exact hn k

theorem occurrences_filter (hkey : ∀ k', a ∈ m.getD k' [] → k' = k) :
    occurrences (m.insert k ((m.getD k []).filter (· ≠ a))) x = if x = a then 0 else occurrences m x := by
  split_ifs with hx
  · subst hx
    refine occurrences_eq_zero.mpr fun k' hmem => ?_
    obtain ⟨hold, hk⟩ := mem_getD_filter.mp hmem
    simpa using hk (hkey k' hold)
  · have hins := occurrences_insert (m := m) (k := k) (l := (m.getD k []).filter (· ≠ a)) (x := x)
    rw [List.count_filter (by simp [hx])] at hins
    omega

end

/-! Writing or removing a list of distinct keys. -/

theorem sumBy_insertAll_of_contains {ks : List K} {g : K → Nat} (h : ∀ k ∈ ks, m.contains k = true) :
    (m.insertAll ks v).sumBy (fun k _ => g k) = m.sumBy fun k _ => g k := by
  induction ks generalizing m with
  | nil => rfl
  | cons k ks ih =>
    have hr : ∀ k' ∈ ks, (m.insert k v).contains k' = true :=
      fun k' hk' => contains_insert.mpr (Or.inr (h k' (List.mem_cons_of_mem k hk')))
    obtain ⟨w, hw⟩ := contains_iff.mp (h k List.mem_cons_self)
    have hsum := sumBy_insert (m := m) (k := k) (v := v) (f := fun k _ => g k)
    rw [share_of_get? hw] at hsum
    exact (ih hr).trans (Nat.add_right_cancel hsum)

theorem get?_foldl_count {ι : Type} {w : Nat} {m : StorageMap K (BitVec w)} {f : ι → K} (l : List ι) (k : K) :
    (l.foldl (fun m x => m.insert (f x) (m.getD (f x) 0 + 1)) m).get? k =
      if l.countP (fun x => f x = k) = 0 then m.get? k
      else some (m.getD k 0 + BitVec.ofNat w (l.countP fun x => f x = k)) := by
  induction l generalizing m with
  | nil => rfl
  | cons x l ih =>
    rw [List.foldl_cons, ih, List.countP_cons]
    by_cases hx : f x = k
    · subst hx
      simp only [get?_insert, getD_insert, if_true, decide_true, Nat.add_eq_zero_iff, Nat.one_ne_zero, and_false, if_false]
      split_ifs with hz
      · rw [hz]
        rfl
      · rw [BitVec.add_assoc, BitVec.ofNat_add, BitVec.add_comm 1]
        rfl
    · simp only [get?_insert_ne (Ne.symm hx), getD_insert, if_neg (Ne.symm hx), decide_eq_true_eq, hx, if_false,
        Nat.add_zero]

theorem getD_foldl_update {W : Type} {m : StorageMap K W} {d : W} {g : W → V → W} {es : List (K × V)}
    (hke : (es.map Prod.fst).Nodup) (k : K) :
    (∀ v, (k, v) ∈ es → (es.foldl (fun m e => m.insert e.1 (g (m.getD e.1 d) e.2)) m).getD k d = g (m.getD k d) v) ∧
      (k ∉ es.map Prod.fst → (es.foldl (fun m e => m.insert e.1 (g (m.getD e.1 d) e.2)) m).getD k d = m.getD k d) := by
  induction es generalizing m with
  | nil => exact ⟨(fun v hv => nomatch hv), fun _ => rfl⟩
  | cons e es ih =>
    obtain ⟨hfi, hr⟩ := List.nodup_cons.mp hke
    obtain ⟨hin, hout⟩ := ih (m := m.insert e.1 (g (m.getD e.1 d) e.2)) hr
    refine ⟨fun v hv => ?_, fun hnot => ?_⟩
    · rcases List.mem_cons.mp hv with rfl | hv
      · exact (hout hfi).trans (getD_insert.trans (if_pos rfl))
      · have hne : k ≠ e.1 := fun heq => hfi (heq ▸ List.mem_map_of_mem (f := Prod.fst) hv)
        rw [List.foldl_cons, hin v hv, getD_insert, if_neg hne]
    · obtain ⟨hne, hnot⟩ := not_or.mp (fun hor => hnot (List.mem_cons.mpr hor))
      rw [List.foldl_cons, hout hnot, getD_insert, if_neg hne]

theorem sumBy_insertAll {ks : List K} (h : ks.Nodup) :
    (m.insertAll ks v).sumBy f + (ks.map (m.share f)).sum = m.sumBy f + (ks.map fun k => f k v).sum := by
  induction ks generalizing m with
  | nil => rfl
  | cons k ks ih =>
    obtain ⟨hk, hks⟩ := List.nodup_cons.mp h
    have hr : ks.map ((m.insert k v).share f) = ks.map (m.share f) :=
      List.map_congr_left fun k' hk' => by rw [share, share, get?_insert_ne fun heq : k' = k => hk (heq ▸ hk')]
    have hfi := sumBy_insert (m := m) (k := k) (v := v) (f := f)
    have hoth := ih (m := m.insert k v) hks
    rw [hr] at hoth
    have hun : m.insertAll (k :: ks) v = (m.insert k v).insertAll ks v := rfl
    rw [hun]
    simp only [List.map_cons, List.sum_cons]
    omega

theorem sumBy_removeAll {ks : List K} (h : ks.Nodup) :
    (m.removeAll ks).sumBy f + (ks.map (m.share f)).sum = m.sumBy f := by
  induction ks generalizing m with
  | nil => rfl
  | cons k ks ih =>
    obtain ⟨hk, hks⟩ := List.nodup_cons.mp h
    have hr : ks.map ((m.remove k).share f) = ks.map (m.share f) :=
      List.map_congr_left fun k' hk' => by rw [share, share, get?_remove_ne fun heq : k' = k => hk (heq ▸ hk')]
    have hfi := sumBy_remove (m := m) (k := k) (f := f)
    have hoth := ih (m := m.remove k) hks
    rw [hr] at hoth
    have hun : m.removeAll (k :: ks) = (m.remove k).removeAll ks := rfl
    rw [hun]
    simp only [List.map_cons, List.sum_cons]
    omega

end

/-! ### Double maps -/

section
variable {K₁ K₂ : Type} [DecidableEq K₁] [DecidableEq K₂]

def iterPrefix (m : StorageMap (K₁ × K₂) V) (a : K₁) : List (K₂ × V) :=
  (m.entries.filter fun e => e.1.1 = a).map fun e => (e.1.2, e.2)

def iterPrefixBy (le : K₂ → K₂ → Bool) (m : StorageMap (K₁ × K₂) V) (a : K₁) : List (K₂ × V) :=
  (m.iterPrefix a).insertionSort fun x y => le x.1 y.1 = true

def removePrefix (m : StorageMap (K₁ × K₂) V) (a : K₁) : StorageMap (K₁ × K₂) V :=
  m.filterKeys fun k => k.1 ≠ a

variable {m : StorageMap (K₁ × K₂) V} {a a' : K₁} {b : K₂} {v : V}

@[simp] theorem get?_removePrefix : (m.removePrefix a).get? (a', b) = if a' = a then none else m.get? (a', b) := by
  unfold removePrefix
  rw [get?_filterKeys]
  by_cases h : a' = a <;> simp [h]

theorem get?_removePrefix_eq_some : (m.removePrefix a).get? (a', b) = some v ↔ a' ≠ a ∧ m.get? (a', b) = some v := by
  by_cases h : a' = a <;> simp [h]

theorem mem_iterPrefix : (b, v) ∈ m.iterPrefix a ↔ m.get? (a, b) = some v := by
  unfold iterPrefix
  rw [List.mem_map, ← mem_entries]
  constructor
  · rintro ⟨⟨⟨x, y⟩, z⟩, he, heq⟩
    obtain ⟨hmem, hx⟩ := List.mem_filter.mp he
    cases heq
    obtain rfl : x = a := by simpa using hx
    exact hmem
  · intro he
    exact ⟨((a, b), v), List.mem_filter.mpr ⟨he, by simp⟩, rfl⟩

theorem perm_iterPrefixBy {K₂ : Type} (le : K₂ → K₂ → Bool) (m : StorageMap (K₁ × K₂) V) (a : K₁) :
    (m.iterPrefixBy le a).Perm (m.iterPrefix a) :=
  List.perm_insertionSort _ _

theorem iterPrefix_insert_of_none (h : m.get? (a, b) = none) :
    (m.insert (a, b) v).iterPrefix a = (b, v) :: m.iterPrefix a := by
  have hke : (a, b) ∉ m.toAList.keys := AList.lookup_eq_none.mp h
  have hent : (m.insert (a, b) v).entries = ((a, b), v) :: m.entries := by
    unfold entries insert
    rw [AList.entries_insert_of_notMem hke]
    rfl
  unfold iterPrefix
  rw [hent, List.filter_cons_of_pos (by simp), List.map_cons]

theorem nodup_iterPrefix_keys {K₂ : Type} (m : StorageMap (K₁ × K₂) V) (a : K₁) : ((m.iterPrefix a).map Prod.fst).Nodup := by
  unfold iterPrefix
  rw [List.map_map]
  have hsub : ((m.entries.filter fun e => e.1.1 = a).map Prod.fst).Nodup :=
    m.nodup_keys.sublist (List.filter_sublist.map Prod.fst)
  have hfst : ∀ k ∈ (m.entries.filter fun e => e.1.1 = a).map Prod.fst, k.1 = a := by
    intro k hk
    obtain ⟨e, he, rfl⟩ := List.mem_map.mp hk
    simpa using (List.mem_filter.mp he).2
  have hmap : (((m.entries.filter fun e => e.1.1 = a).map Prod.fst).map Prod.snd).Nodup := by
    refine List.Nodup.map_on ?_ hsub
    intro x hx y hy hxy
    exact Prod.ext ((hfst x hx).trans (hfst y hy).symm) hxy
  rw [List.map_map] at hmap
  exact hmap

/-! ### Sums below a first key -/

/-- What an entry adds to the sum of `f` below the first key `a`. -/
def under (f : V → Nat) (a : K₁) (k : K₁ × K₂) (v : V) : Nat := if k.1 = a then f v else 0

variable {f : V → Nat} {d : V}

theorem share_under (hd : f d = 0) : m.share (under f a) (a, b) = f (m.getD (a, b) d) := by
  unfold share under getD
  cases m.get? (a, b) <;> simp [hd]

theorem share_under_ne (h : a ≠ a') : m.share (under f a) (a', b) = 0 := by
  unfold share under
  cases m.get? (a', b) <;> simp [h.symm]

theorem sumBy_under_insert (hd : f d = 0) :
    (m.insert (a, b) v).sumBy (under f a) + f (m.getD (a, b) d) = m.sumBy (under f a) + f v := by
  rw [← share_under hd, sumBy_insert]
  congr 1
  exact if_pos rfl

theorem sumBy_under_remove (hd : f d = 0) :
    (m.remove (a, b)).sumBy (under f a) + f (m.getD (a, b) d) = m.sumBy (under f a) := by
  rw [← share_under hd, sumBy_remove]

theorem sumBy_under_insert_ne (h : a ≠ a') : (m.insert (a', b) v).sumBy (under f a) = m.sumBy (under f a) := by
  have hsum := sumBy_insert (m := m) (k := (a', b)) (v := v) (f := under f a)
  have hv : under f a (a', b) v = 0 := if_neg h.symm
  rw [share_under_ne h] at hsum
  omega

theorem sumBy_under_remove_ne (h : a ≠ a') : (m.remove (a', b)).sumBy (under f a) = m.sumBy (under f a) := by
  have hsum := sumBy_remove (m := m) (k := (a', b)) (f := under f a)
  rw [share_under_ne h] at hsum
  exact hsum

theorem sumBy_under_removePrefix {K₂ : Type} (m : StorageMap (K₁ × K₂) V) (f : V → Nat) (a a' : K₁) :
    (m.removePrefix a').sumBy (under f a) = if a = a' then 0 else m.sumBy (under f a) := by
  have key : ∀ l : List (Sigma fun _ : K₁ × K₂ => V),
      ((l.filter fun e => e.1.1 ≠ a').map fun e => under f a e.1 e.2).sum =
        if a = a' then 0 else (l.map fun e => under f a e.1 e.2).sum := by
    intro l
    induction l with
    | nil => simp
    | cons e l ih =>
      by_cases he : e.1.1 = a'
      · rw [List.filter_cons_of_neg (by simp [he]), ih, List.map_cons, List.sum_cons, under, he]
        by_cases ha : a = a'
        · simp [ha]
        · simp [ha, Ne.symm ha]
      · rw [List.filter_cons_of_pos (by simp [he]), List.map_cons, List.sum_cons, ih, List.map_cons, List.sum_cons]
        by_cases ha : a = a'
        · simp [ha, under, he]
        · simp [ha]
  have h := key m.toAList.entries
  unfold sumBy removePrefix filterKeys entries
  rw [List.map_map, List.map_map]
  exact h

/-! ### Counts below a first key -/

theorem iterPrefix_removePrefix {K₂ : Type} (m : StorageMap (K₁ × K₂) V) (a a' : K₁) :
    (m.removePrefix a').iterPrefix a = if a = a' then [] else m.iterPrefix a := by
  have hent : (m.removePrefix a').entries = m.entries.filter fun e => e.1.1 ≠ a' := by
    unfold removePrefix filterKeys entries
    rw [List.filter_map]
    rfl
  unfold iterPrefix
  rw [hent, List.filter_filter]
  split_ifs with h
  · subst h
    simp
  · congr 1
    refine List.filter_congr fun e _ => ?_
    by_cases he : e.1.1 = a <;> simp [he, h]

theorem countP_iterPrefix_eq_sumBy {K₂ : Type} (m : StorageMap (K₁ × K₂) V) (a : K₁) (p : V → Bool) :
    (m.iterPrefix a).countP (fun e => p e.2) = m.sumBy (under (fun v => if p v then 1 else 0) a) := by
  unfold iterPrefix sumBy
  rw [List.countP_map]
  induction m.entries with
  | nil => rfl
  | cons e rest ih =>
    rw [List.map_cons, List.sum_cons, ← ih]
    by_cases he : e.1.1 = a
    · rw [List.filter_cons_of_pos (by simpa using he), List.countP_cons, under, if_pos he, Nat.add_comm]
      rfl
    · rw [List.filter_cons_of_neg (by simpa using he), under, if_neg he, Nat.zero_add]

theorem countP_iterPrefix_insert_ne {p : V → Bool} (h : a ≠ a') :
    ((m.insert (a', b) v).iterPrefix a).countP (fun e => p e.2) = (m.iterPrefix a).countP (fun e => p e.2) := by
  rw [countP_iterPrefix_eq_sumBy, countP_iterPrefix_eq_sumBy, sumBy_under_insert_ne h]

theorem countP_iterPrefix_le (p : V → Bool) {g : K₂ → Nat} {bound : Nat} (hg : Function.Injective g)
    (h : ∀ n v, m.get? (a, n) = some v → g n < bound) : (m.iterPrefix a).countP (fun e => p e.2) ≤ bound := by
  have hno : (((m.iterPrefix a).map Prod.fst).map g).Nodup := (m.nodup_iterPrefix_keys a).map hg
  have hsub : ((m.iterPrefix a).map Prod.fst).map g ⊆ List.range bound := by
    intro x hx
    obtain ⟨n, hn, rfl⟩ := List.mem_map.mp hx
    obtain ⟨⟨n, v⟩, hmem, rfl⟩ := List.mem_map.mp hn
    exact List.mem_range.mpr (h n v (mem_iterPrefix.mp hmem))
  have hle := (List.subperm_of_subset hno hsub).length_le
  rw [List.length_map, List.length_map, List.length_range] at hle
  exact List.countP_le_length.trans hle

section
variable {ns : List K₂} {p : V → Bool} {o : Option V}

theorem sum_share_under (hold : ∀ n ∈ ns, m.get? (a, n) = o) :
    ((ns.map fun n => (a, n)).map (m.share (under (fun v => if p v then 1 else 0) a'))).sum =
      if a = a' ∧ o.any p then ns.length else 0 := by
  induction ns with
  | nil => simp
  | cons n ns ih =>
    have hr := ih fun n' hn' => hold n' (List.mem_cons_of_mem n hn')
    have hfi : m.share (under (fun v => if p v then 1 else 0) a') (a, n) = if a = a' ∧ o.any p then 1 else 0 := by
      unfold share under
      rw [hold n List.mem_cons_self]
      by_cases h : a = a' <;> cases o <;> simp [h]
    simp only [List.map_cons, List.sum_cons, List.length_cons]
    rw [hr, hfi]
    split <;> omega

theorem sum_under_const {K₂ : Type} {ns : List K₂} :
    ((ns.map fun n => (a, n)).map fun k => under (fun v => if p v then 1 else 0) a' k v).sum =
      if a = a' ∧ p v then ns.length else 0 := by
  induction ns with
  | nil => simp
  | cons n ns ih =>
    simp only [List.map_cons, List.sum_cons, List.length_cons]
    rw [ih]
    by_cases h : a = a' <;> by_cases hv : p v <;> simp [under, h, hv, Nat.add_comm]

/-- Giving `v` to keys with the value `o` moves their number from the count of `o` to that of `v`. -/
theorem countP_iterPrefix_insertAll (p : V → Bool) (a' : K₁) (hns : ns.Nodup) (hold : ∀ n ∈ ns, m.get? (a, n) = o) :
    ((m.insertAll (ns.map fun n => (a, n)) v).iterPrefix a').countP (fun e => p e.2) +
        (if a = a' ∧ o.any p then ns.length else 0) =
      (m.iterPrefix a').countP (fun e => p e.2) + if a = a' ∧ p v then ns.length else 0 := by
  have hke : (ns.map fun n => (a, n)).Nodup := hns.map fun _ _ h => (Prod.mk.inj h).2
  rw [countP_iterPrefix_eq_sumBy, countP_iterPrefix_eq_sumBy, ← sum_share_under hold, ← sum_under_const,
    sumBy_insertAll hke]

theorem countP_iterPrefix_removeAll (p : V → Bool) (a' : K₁) (hns : ns.Nodup) (hold : ∀ n ∈ ns, m.get? (a, n) = o) :
    ((m.removeAll (ns.map fun n => (a, n))).iterPrefix a').countP (fun e => p e.2) +
        (if a = a' ∧ o.any p then ns.length else 0) = (m.iterPrefix a').countP (fun e => p e.2) := by
  have hke : (ns.map fun n => (a, n)).Nodup := hns.map fun _ _ h => (Prod.mk.inj h).2
  rw [countP_iterPrefix_eq_sumBy, countP_iterPrefix_eq_sumBy, ← sum_share_under hold, sumBy_removeAll hke]

end

end

end StorageMap
