import Cennznet.Theorems.Nft.Catalogue

/-! # Paging through listings

A page without ids counts as one that ends with listing 0. -/

namespace Nft

open StorageMap

variable {A : Type}

/-- Following the cursors from one on visits these ids, page by page, and stops. -/
inductive Visits (s : State A) (c : CollectionId) (limit : BitVec 16) : ListingId → List ListingId → Prop
  | last {cursor : ListingId} (h : (collectionListings s c cursor limit).1 = none) :
      Visits s c limit cursor ((collectionListings s c cursor limit).2.map Prod.fst)
  | next {cursor next : ListingId} {rest : List ListingId} (h : (collectionListings s c cursor limit).1 = some next)
      (hrest : Visits s c limit next rest) :
      Visits s c limit cursor ((collectionListings s c cursor limit).2.map Prod.fst ++ rest)

def State.IsOpen (s : State A) (c : CollectionId) (id : ListingId) : Prop :=
  s.openCollectionListings.contains (c, id) = true

/-- The open listings from a cursor on, in ascending order. -/
structure OpenFrom (s : State A) (c : CollectionId) (cursor : ListingId) (ids : List ListingId) : Prop where
  sorted : ids.Pairwise fun a b => a.toNat < b.toNat
  mem : ∀ id, id ∈ ids ↔ s.IsOpen c id ∧ cursor.toNat ≤ id.toNat

/-- A page is the first of the open listings from its cursor on, and its new cursor is that of the others. -/
structure PageRight (s : State A) (c : CollectionId) (cursor : ListingId) (limit : BitVec 16)
    (ids : List ListingId) : Prop where
  page : (collectionListings s c cursor limit).2.map Prod.fst = ids.take (pageSize limit)
  listings : ∀ e ∈ (collectionListings s c cursor limit).2, s.listings.get? e.1 = some e.2
  stops : (collectionListings s c cursor limit).1 = none ↔ ids.drop (pageSize limit) = []
  goesOn : ∀ next ∈ (collectionListings s c cursor limit).1, OpenFrom s c next (ids.drop (pageSize limit))

/-- Open listings are stored, under ids below the largest one. -/
structure Listable (s : State A) (c : CollectionId) : Prop where
  listed : ∀ id, s.IsOpen c id → s.listings.contains id = true
  below : ∀ id, s.IsOpen c id → id.toNat + 1 < 2 ^ 128

section
variable {s : State A} {c : CollectionId} {cursor : ListingId} {limit : BitVec 16} {ids ids' : List ListingId}

theorem OpenFrom.nodup (h : OpenFrom s c cursor ids) : ids.Nodup :=
  h.sorted.imp fun hlt heq => Nat.ne_of_lt hlt (congrArg BitVec.toNat heq)

theorem OpenFrom.eq (h : OpenFrom s c cursor ids) (h' : OpenFrom s c cursor ids') : ids = ids' := by
  refine List.Perm.eq_of_pairwise (fun a b _ _ hab hba => ?_) h.sorted h'.sorted
    ((List.perm_ext_iff_of_nodup h.nodup h'.nodup).mpr fun id => (h.mem id).trans (h'.mem id).symm)
  exact absurd hab (Nat.lt_asymm hba)

theorem openListingIds_perm : (openListingIds s c).Perm ((s.openCollectionListings.iterPrefix c).map Prod.fst) :=
  List.perm_insertionSort _ _

theorem openListingIds_sorted : (openListingIds s c).Pairwise fun a b => a.toNat < b.toNat := by
  have : IsTrans ListingId fun a b => a.toNat ≤ b.toNat := ⟨fun _ _ _ => Nat.le_trans⟩
  have : Std.Total fun a b : ListingId => a.toNat ≤ b.toNat := ⟨fun _ _ => Nat.le_total _ _⟩
  have hle : (openListingIds s c).Pairwise fun a b => a.toNat ≤ b.toNat := List.pairwise_insertionSort _ _
  have hnd : (openListingIds s c).Nodup := openListingIds_perm.nodup_iff.mpr (nodup_iterPrefix_keys _ c)
  exact (hle.and hnd).imp fun ⟨hle, hne⟩ => Nat.lt_of_le_of_ne hle fun heq => hne (BitVec.eq_of_toNat_eq heq)

theorem mem_openListingIds {id : ListingId} : id ∈ openListingIds s c ↔ s.IsOpen c id := by
  rw [openListingIds_perm.mem_iff, List.mem_map, State.IsOpen, contains_iff]
  simp only [Prod.exists, exists_and_right, exists_eq_right, mem_iterPrefix]

theorem OpenFrom.filter_eq (h : OpenFrom s c cursor ids) :
    ((openListingIds s c).filter fun id => cursor.toNat ≤ id.toNat) = ids := by
  refine OpenFrom.eq ⟨openListingIds_sorted.filter _, fun id => ?_⟩ h
  rw [List.mem_filter, decide_eq_true_eq, mem_openListingIds]

theorem last_openListingIds (h : ∃ id, s.IsOpen c id) :
    ∃ m, (openListingIds s c).getLast? = some m ∧ s.IsOpen c m ∧ ∀ id, s.IsOpen c id → id.toNat ≤ m.toNat := by
  simp only [← mem_openListingIds] at h ⊢
  obtain ⟨id, hid⟩ := h
  obtain ⟨init, m, hcat⟩ := (List.eq_nil_or_concat' (openListingIds s c)).resolve_left (List.ne_nil_of_mem hid)
  have hs := openListingIds_sorted (s := s) (c := c)
  rw [hcat] at hs ⊢
  refine ⟨m, List.getLast?_concat, List.mem_append_right _ (List.mem_singleton_self m), fun id hid => ?_⟩
  rcases List.mem_append.mp hid with hin | hin
  · exact ((List.pairwise_append.mp hs).2.2 id hin m (List.mem_singleton_self m)).le
  · rw [List.mem_singleton.mp hin]

theorem newCursor_eq (h : OpenFrom s c cursor ids) : (collectionListings s c cursor limit).1 =
    (openListingIds s c).getLast?.bind fun id => if (ids.take (pageSize limit)).getLast?.getD 0 ≠ id
      then some ((ids.take (pageSize limit)).getLast?.getD 0 + 1) else none := by
  rw [← h.filter_eq]
  rfl

theorem newCursor_of_empty (limit : BitVec 16) (h : OpenFrom s c cursor []) :
    (collectionListings s c cursor limit).1 = none ↔ ∀ id, s.IsOpen c id → id = 0 := by
  rw [newCursor_eq h, List.take_nil, List.getLast?_nil, Option.getD_none]
  by_cases hex : ∃ id, s.IsOpen c id
  · obtain ⟨m, hm, hopn, hmax⟩ := last_openListingIds hex
    rw [hm, Option.bind_some, ite_eq_right_iff]
    constructor
    · intro hz id hid
      have hm : 0 = m := by_contra fun hne => nomatch hz hne
      have hle : id.toNat ≤ (0 : ListingId).toNat := hm ▸ hmax id hid
      exact BitVec.eq_of_toNat_eq (Nat.le_zero.mp hle)
    · exact fun hall hne => absurd (hall m hopn).symm hne
  · have hnil : openListingIds s c = [] :=
      List.eq_nil_iff_forall_not_mem.mpr fun id hid => hex ⟨id, mem_openListingIds.mp hid⟩
    rw [hnil]
    exact iff_of_true rfl fun id hid => absurd ⟨id, hid⟩ hex

theorem page_eq (limit : BitVec 16) (hl : Listable s c) (h : OpenFrom s c cursor ids) :
    (collectionListings s c cursor limit).2.map Prod.fst = ids.take (pageSize limit) ∧
      ∀ e ∈ (collectionListings s c cursor limit).2, s.listings.get? e.1 = some e.2 := by
  have hpa : (collectionListings s c cursor limit).2 =
      (ids.take (pageSize limit)).filterMap fun id => (s.listings.get? id).map (id, ·) := by
    rw [← h.filter_eq]
    rfl
  rw [hpa]
  constructor
  · rw [List.map_filterMap]
    refine (List.filterMap_congr fun id hid => ?_).trans List.filterMap_some
    obtain ⟨l, hget⟩ := contains_iff.mp (hl.listed id ((h.mem id).mp (List.mem_of_mem_take hid)).1)
    rw [hget]
    rfl
  · intro e he
    obtain ⟨id, -, hget⟩ := List.mem_filterMap.mp he
    obtain ⟨l, hl, rfl⟩ := Option.map_eq_some_iff.mp hget
    exact hl

theorem OpenFrom.rest {init rest : List ListingId} {p : ListingId} (h : OpenFrom s c cursor (init ++ [p] ++ rest))
    (hl : Listable s c) : s.IsOpen c p ∧ (p + 1).toNat = p.toNat + 1 ∧ OpenFrom s c (p + 1) rest := by
  obtain ⟨hini, hr, hlt⟩ := List.pairwise_append.mp h.sorted
  have hp : p ∈ init ++ [p] := List.mem_append_right _ (List.mem_singleton_self p)
  obtain ⟨hopn, hfr⟩ := (h.mem p).mp (List.mem_append_left _ hp)
  have hsu : (p + 1).toNat = p.toNat + 1 := BitVec.toNat_add_of_lt (hl.below p hopn)
  refine ⟨hopn, hsu, hr, fun id => ?_⟩
  rw [hsu]
  constructor
  · intro hid
    exact ⟨((h.mem id).mp (List.mem_append_right _ hid)).1, hlt p hp id hid⟩
  · rintro ⟨hid, hle⟩
    refine (List.mem_append.mp ((h.mem id).mpr ⟨hid, by omega⟩)).resolve_left fun hin => ?_
    rcases List.mem_append.mp hin with hin | hin
    · have := (List.pairwise_append.mp hini).2.2 id hin p (List.mem_singleton_self p)
      omega
    · rw [List.mem_singleton.mp hin] at hle
      omega

theorem pageRight (hl : Listable s c) (hk : 0 < pageSize limit) (h : OpenFrom s c cursor ids) (hne : ids ≠ []) :
    PageRight s c cursor limit ids := by
  obtain ⟨hpa, hli⟩ := page_eq limit hl h
  obtain ⟨init, p, hp⟩ : ∃ init p, ids.take (pageSize limit) = init ++ [p] :=
    (List.eq_nil_or_concat' _).resolve_left fun hnil => hne ((List.take_eq_nil_iff.mp hnil).resolve_left hk.ne')
  have hcat := List.take_append_drop (pageSize limit) ids
  rw [hp] at hcat
  obtain ⟨hopn, hsu, hfr⟩ := OpenFrom.rest (hcat.symm ▸ h) hl
  obtain ⟨m, hm, hmo, hmax⟩ := last_openListingIds ⟨p, hopn⟩
  have hcur : (collectionListings s c cursor limit).1 = if p ≠ m then some (p + 1) else none := by
    rw [newCursor_eq h, hm, hp, List.getLast?_concat]
    rfl
  have hr : p = m ↔ ids.drop (pageSize limit) = [] := by
    rw [List.eq_nil_iff_forall_not_mem]
    simp only [hfr.mem, hsu, not_and]
    constructor
    · rintro rfl id hid hle
      exact absurd (hmax id hid) (Nat.not_le_of_lt hle)
    · intro hn
      exact BitVec.eq_of_toNat_eq (Nat.le_antisymm (hmax p hopn) (Nat.le_of_not_lt (hn m hmo)))
  refine ⟨hpa, hli, ?_, ?_⟩
  · rw [hcur, ← hr, ite_eq_right_iff]
    exact ⟨fun h => by_contra fun hne => (nomatch h hne), fun heq hne => absurd heq hne⟩
  · rw [hcur]
    intro next hx
    split at hx <;> cases hx
    exact hfr

theorem visits (hl : Listable s c) (hk : 0 < pageSize limit) (h : OpenFrom s c cursor ids) (hne : ids ≠ []) :
    Visits s c limit cursor ids := by
  induction hn : ids.length using Nat.strong_induction_on generalizing cursor ids with
  | _ n ih =>
    have hri := pageRight hl hk h hne
    have hcat := List.take_append_drop (pageSize limit) ids
    rw [← hri.page] at hcat
    cases hcur : (collectionListings s c cursor limit).1 with
    | none =>
      rw [hri.stops.mp hcur, List.append_nil] at hcat
      exact hcat ▸ .last hcur
    | some next =>
      have hr : ids.drop (pageSize limit) ≠ [] := fun hnil => by
        rw [hri.stops.mpr hnil] at hcur
        cases hcur
      have hpos := List.length_pos_iff.mpr hne
      have hlen : (ids.drop (pageSize limit)).length < n := by
        rw [List.length_drop]
        omega
      exact hcat ▸ .next hcur (ih _ hlen (hri.goesOn next hcur) hr rfl)

end

/-- Paging is right from a cursor on exactly if a listing is open from there on, or none but listing 0 is open at all.
-/
theorem paging_complete_iff (s : State A) (c : CollectionId) (hl : Listable s c) (cursor : ListingId)
    (limit : BitVec 16) (hli : limit ≠ 0) (ids : List ListingId) (h : OpenFrom s c cursor ids) :
    (PageRight s c cursor limit ids ∧ Visits s c limit cursor ids) ↔ ids ≠ [] ∨ ∀ id, s.IsOpen c id → id = 0 := by
  have hk : 0 < pageSize limit := by
    have hpos : 0 < limit.toNat := Nat.pos_of_ne_zero fun hz => hli (BitVec.eq_of_toNat_eq hz)
    exact Nat.lt_min.mpr ⟨hpos, by decide⟩
  by_cases hne : ids = []
  · subst hne
    obtain ⟨hpa, hls⟩ := page_eq limit hl h
    rw [List.take_nil] at hpa
    rw [or_iff_right (not_not.mpr rfl), ← newCursor_of_empty limit h]
    refine ⟨fun ⟨hri, _⟩ => hri.stops.mpr List.drop_nil, fun hcur => ⟨⟨?_, hls, ?_, ?_⟩, ?_⟩⟩
    · rw [hpa, List.take_nil]
    · exact iff_of_true hcur List.drop_nil
    · rw [hcur]
      exact fun _ h => nomatch h
    · exact hpa ▸ .last hcur
  · exact iff_of_true ⟨pageRight hl hk h hne, visits hl hk h hne⟩ (.inl hne)

/-- Where the records agree, open listings are stored under ids that the counter has passed. -/
theorem Agrees.listable {s : State A} (h : Agrees s.catalogue) (c : CollectionId) : Listable s c := by
  refine ⟨fun id hid => ?_, fun id hid => ?_⟩
  all_goals obtain ⟨l, hget, -⟩ := (h.opened c id).mp hid
  · exact contains_iff.mpr ⟨l, hget⟩
  · exact Nat.lt_of_le_of_lt (h.ids id l hget) s.nextListingId.isLt

/-- Listing 5 of collection 0 is open. -/
def oneOpen : State Nat :=
  { State.genesis (.genesis 0) with
    listings := (∅ : StorageMap ListingId (Listing Nat)).insert 5 (.fixedPrice ⟨1, 10, 100, none, 1, ⟨(0, 0, 0), []⟩, ⟨[]⟩, none⟩)
    openCollectionListings := (∅ : StorageMap (CollectionId × ListingId) Bool).insert (0, 5) true }

theorem oneOpen_isOpen {id : ListingId} : oneOpen.IsOpen 0 id ↔ id = 5 := by
  simp [State.IsOpen, oneOpen, contains_iff]

theorem oneOpen_listable : Listable oneOpen 0 := by
  refine ⟨fun id hid => ?_, fun id hid => ?_⟩ <;> rw [oneOpen_isOpen.mp hid] <;> decide

theorem listing_paged : PageRight oneOpen 0 3 10 [5] ∧ Visits oneOpen 0 10 3 [5] := by
  refine (paging_complete_iff oneOpen 0 oneOpen_listable 3 10 (by decide) [5] ⟨by simp, fun id => ?_⟩).mpr (.inl (by simp))
  rw [oneOpen_isOpen, List.mem_singleton]
  exact ⟨fun h => ⟨h, h ▸ by decide⟩, And.left⟩

/-- From cursor 6 on there is no listing, but the paging goes on, back to cursor 1 and listing 5. -/
theorem paging_starts_over : (∀ id, oneOpen.IsOpen 0 id → id.toNat < (6 : ListingId).toNat) ∧
    (collectionListings oneOpen 0 6 10).1 = some 1 ∧ Visits oneOpen 0 10 6 [5] := by
  have hcur : (collectionListings oneOpen 0 6 10).1 = some 1 := by decide
  have hl : (collectionListings oneOpen 0 1 10).1 = none := by decide
  refine ⟨fun id hid => ?_, hcur, .next hcur (.last hl)⟩
  rw [oneOpen_isOpen.mp hid]
  decide

end Nft
