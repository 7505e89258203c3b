import Cennznet.Theorems.Nft.Book
import Cennznet.Theorems.Nft.Settle

/-! # Listed tokens stay with the seller

Every call that moves or burns tokens consults the locks, except `accept_offer`. -/

namespace Nft

open GenericAsset (AssetId Balance)
open Result StorageMap Steps List

variable {A : Type}

def OneSeries (tokens : List TokenId) : Prop := ∀ t ∈ tokens, ∀ u ∈ tokens, (t.1, t.2.1) = (u.1, u.2.1)

-- over the lists, since instance search may enumerate all token ids instead
instance (tokens : List TokenId) : Decidable (OneSeries tokens) :=
  decidable_of_iff (tokens.all fun t => tokens.all fun u => (t.1, t.2.1) = (u.1, u.2.1)) (by simp [OneSeries])

theorem settled_of_oneSeries {b : Bundle} (h : OneSeries b.tokens) {t : TokenId} (ht : t ∈ b.tokens) :
    b.settled t = t := by
  obtain ⟨c, s, n⟩ := t
  have hfi := h (c, s, n) ht b.first mem_cons_self
  simp only [Prod.mk.injEq] at hfi
  obtain ⟨rfl, rfl⟩ := hfi
  rfl

structure Listed (r : Records A) : Prop where
  held : ∀ lid li, r.listings.get? lid = some li → ∀ t ∈ li.bundle.tokens,
    r.owner.get? (ownerKey t) = some li.seller ∧ r.locks.get? t = some (.listed lid)
  oneSeries : ∀ lid li, r.listings.get? lid = some li → OneSeries li.bundle.tokens
  ids : ∀ lid li, r.listings.get? lid = some li → lid.toNat < r.nextListing.toNat

structure Counted (r : Records A) : Prop where
  minted : ∀ key n owner, r.owner.get? (key, n) = some owner →
    key.2.toNat < (r.nextSeries.getD key.1 0).toNat ∧ n.toNat < (r.nextSerial.getD key 0).toNat
  series : ∀ key n, r.nextSerial.get? key = some n → key.2.toNat < (r.nextSeries.getD key.1 0).toNat

section
variable {r r' : Records A}

theorem Listed.of_owner (h : Listed r) (hli : r'.listings = r.listings) (hlo : r'.locks = r.locks)
    (hx : r'.nextListing = r.nextListing)
    (hwn : ∀ t reason owner, r.locks.get? t = some reason → r.owner.get? (ownerKey t) = some owner →
      r'.owner.get? (ownerKey t) = some owner) : Listed r' where
  held := by
    intro lid li hget t ht
    rw [hli] at hget
    obtain ⟨hse, hlc⟩ := h.held lid li hget t ht
    exact ⟨hwn t _ _ hlc hse, hlo ▸ hlc⟩
  oneSeries := by
    rw [hli]
    exact h.oneSeries
  ids := by
    rw [hli, hx]
    exact h.ids

theorem Counted.of_owner (h : Counted r) (hse : r'.nextSeries = r.nextSeries) (hsr : r'.nextSerial = r.nextSerial)
    (hwn : ∀ k owner, r'.owner.get? k = some owner → ∃ owner', r.owner.get? k = some owner') : Counted r' where
  minted := by
    intro key n owner hget
    obtain ⟨owner', hge'⟩ := hwn (key, n) owner hget
    rw [hse, hsr]
    exact h.minted key n owner' hge'
  series := by
    rw [hse, hsr]
    exact h.series

theorem Counted.grow (h : Counted r) {key : SeriesKey} {last : SerialNumber}
    (hse : ∀ c, (r.nextSeries.getD c 0).toNat ≤ (r'.nextSeries.getD c 0).toNat)
    (hsr : r'.nextSerial = r.nextSerial.insert key last)
    (hkey : key.2.toNat < (r'.nextSeries.getD key.1 0).toNat)
    (hl : (r.nextSerial.getD key 0).toNat ≤ last.toNat)
    (hwn : ∀ k n owner, r'.owner.get? (k, n) = some owner →
      (k = key ∧ n.toNat < last.toNat) ∨ r.owner.get? (k, n) = some owner) : Counted r' where
  minted := by
    intro k n owner hget
    rw [hsr, getD_insert]
    rcases hwn k n owner hget with ⟨rfl, hn⟩ | hold
    · rw [if_pos rfl]
      exact ⟨hkey, hn⟩
    · obtain ⟨hs, hn⟩ := h.minted k n owner hold
      refine ⟨Nat.lt_of_lt_of_le hs (hse k.1), ?_⟩
      split_ifs with heq
      · subst heq
        exact Nat.lt_of_lt_of_le hn hl
      · exact hn
  series := by
    intro k n hget
    rw [hsr] at hget
    rcases get?_insert_eq_some.mp hget with ⟨rfl, -⟩ | ⟨-, hold⟩
    · exact hkey
    · exact Nat.lt_of_lt_of_le (h.series k n hold) (hse k.1)

end

/-! ### Effects -/

inductive Effect (r : Records A) : Records A → Prop
  | same : Effect r r
  | relist {lid : ListingId} {li li' : Listing A}
      (hget : r.listings.get? lid = some li) (hseller : li'.seller = li.seller)
      (hbundle : li'.bundle = li.bundle) : Effect r (r.list lid li')
  | mintSeries (owner : A) (cid : CollectionId) (qty : TokenCount) {next : SeriesId}
      (hnext : (r.nextSeries.getD cid 0).toNat + 1 = next.toNat) :
      Effect r ((r.mint owner (cid, r.nextSeries.getD cid 0) 0 qty).setNextSeries cid next)
  | mintAdditional (owner : A) {key : SeriesKey} {first : SerialNumber} {qty : TokenCount}
      (hfirst : r.nextSerial.get? key = some first) (hpos : 0 < qty.toNat)
      (hfit : first.toNat + qty.toNat < 2 ^ 32) : Effect r (r.mint owner key first qty)
  | move {keys : List (SeriesKey × SerialNumber)} (newOwner : A)
      (hmovable : ∀ t, ownerKey t ∈ keys → r.locks.get? t = none ∧ ∃ owner, r.owner.get? (ownerKey t) = some owner) :
      Effect r (r.give keys newOwner)
  | burn {keys : List (SeriesKey × SerialNumber)} (hfree : ∀ t, ownerKey t ∈ keys → r.locks.get? t = none) :
      Effect r (r.burn keys)
  | publish {li : Listing A} {next : ListingId} (hseries : OneSeries li.bundle.tokens)
      (hnext : r.nextListing.toNat + 1 = next.toNat)
      (hmovable : ∀ t ∈ li.bundle.tokens, r.locks.get? t = none ∧ r.owner.get? (ownerKey t) = some li.seller) :
      Effect r (r.publish li next)
  | release {lid : ListingId} {li : Listing A} (hget : r.listings.get? lid = some li) :
      Effect r (r.release lid li.bundle)
  | settle {lid : ListingId} {li : Listing A} (hget : r.listings.get? lid = some li)
      (buyer : A) : Effect r ((r.release lid li.bundle).settle li.bundle buyer)

section
variable {r : Records A}

theorem Effect.of_eq {r' : Records A} (h : r' = r) : Effect r r' := h ▸ .same

section
variable {keys : List (SeriesKey × SerialNumber)} (hfree : ∀ t, ownerKey t ∈ keys → r.locks.get? t = none)
include hfree

theorem not_mem_of_locked {t : TokenId} {reason : TokenLockReason} (hlo : r.locks.get? t = some reason) :
    ownerKey t ∉ keys := by
  intro hin
  cases (hfree t hin).symm.trans hlo

theorem Listed.give (h : Listed r) (owner : A) : Listed (r.give keys owner) := by
  refine h.of_owner rfl rfl rfl fun t reason seller hlo hse => ?_
  exact (get?_insertAll.trans (if_neg (not_mem_of_locked hfree hlo))).trans hse

theorem Listed.burn (h : Listed r) : Listed (r.burn keys) := by
  refine h.of_owner rfl rfl rfl fun t reason seller hlo hse => ?_
  exact (get?_removeAll.trans (if_neg (not_mem_of_locked hfree hlo))).trans hse

end

variable {li : Listing A} {lid : ListingId}

theorem Listed.relist (h : Listed r) {li' : Listing A} (hget : r.listings.get? lid = some li)
    (hse : li'.seller = li.seller) (hbu : li'.bundle = li.bundle) :
    Listed (r.list lid li') := by
  -- every listing is an old one up to its price and closing block
  have hold : ∀ id l, (r.list lid li').listings.get? id = some l →
      ∃ l₀, r.listings.get? id = some l₀ ∧ l.seller = l₀.seller ∧ l.bundle = l₀.bundle := by
    intro id l hl
    rcases get?_insert_eq_some.mp hl with ⟨rfl, rfl⟩ | ⟨-, hold⟩
    · exact ⟨li, hget, hse, hbu⟩
    · exact ⟨l, hold, rfl, rfl⟩
  refine ⟨fun id l hl t ht => ?_, fun id l hl => ?_, fun id l hl => ?_⟩
  · obtain ⟨l₀, hl₀, hs, hb⟩ := hold id l hl
    rw [hs]
    exact h.held id l₀ hl₀ t (hb ▸ ht)
  · obtain ⟨l₀, hl₀, -, hb⟩ := hold id l hl
    rw [hb]
    exact h.oneSeries id l₀ hl₀
  · obtain ⟨l₀, hl₀, -, -⟩ := hold id l hl
    exact h.ids id l₀ hl₀

theorem Listed.publish (h : Listed r) {next : ListingId} (hse : OneSeries li.bundle.tokens)
    (hx : r.nextListing.toNat + 1 = next.toNat)
    (hmo : ∀ t ∈ li.bundle.tokens, r.locks.get? t = none ∧ r.owner.get? (ownerKey t) = some li.seller) :
    Listed (r.publish li next) := by
  have hca : ∀ id l, (r.publish li next).listings.get? id = some l →
      (id = r.nextListing ∧ li = l) ∨ r.listings.get? id = some l :=
    fun id l hl => (get?_insert_eq_some.mp hl).imp_right And.right
  have hlo : ∀ t, (r.publish li next).locks.get? t =
      if t ∈ li.bundle.tokens then some (.listed r.nextListing) else r.locks.get? t :=
    fun t => get?_insertAll
  refine ⟨fun id l hl t ht => ?_, fun id l hl => ?_, fun id l hl => ?_⟩
  · rcases hca id l hl with ⟨rfl, rfl⟩ | hl
    · rw [hlo, if_pos ht]
      exact ⟨(hmo t ht).2, rfl⟩
    · -- the tokens of another listing are locked, so they are not in the new bundle
      have hno : t ∉ li.bundle.tokens := by
        intro hin
        cases (hmo t hin).1.symm.trans (h.held id l hl t ht).2
      rw [hlo, if_neg hno]
      exact h.held id l hl t ht
  · rcases hca id l hl with ⟨-, rfl⟩ | hl
    · exact hse
    · exact h.oneSeries id l hl
  · show id.toNat < next.toNat
    rcases hca id l hl with ⟨rfl, -⟩ | hl
    · omega
    · have := h.ids id l hl
      omega

theorem Listed.release (h : Listed r) (hget : r.listings.get? lid = some li) : Listed (r.release lid li.bundle) := by
  have hk : ∀ id l, (r.release lid li.bundle).listings.get? id = some l →
      id ≠ lid ∧ r.listings.get? id = some l := fun id l => get?_remove_eq_some.mp
  refine ⟨fun id l hl t ht => ?_, fun id l hl => ?_, fun id l hl => ?_⟩
  · obtain ⟨hne, hl⟩ := hk id l hl
    obtain ⟨hwn, hlo⟩ := h.held id l hl t ht
    refine ⟨hwn, ?_⟩
    -- the lock names its own listing, so it is not one of those released
    have hno : t ∉ li.bundle.tokens := by
      intro hin
      have hlo' := (h.held lid li hget t hin).2
      rw [hlo] at hlo'
      cases hlo'
      exact hne rfl
    show (r.locks.removeAll li.bundle.tokens).get? t = _
    rw [get?_removeAll, if_neg hno]
    exact hlo
  · exact h.oneSeries id l (hk id l hl).2
  · exact h.ids id l (hk id l hl).2

theorem Listed.settle (h : Listed r) (hget : r.listings.get? lid = some li) (buyer : A) :
    Listed ((r.release lid li.bundle).settle li.bundle buyer) := by
  refine Listed.give (fun t ht => ?_) (h.release hget) buyer
  obtain ⟨u, hu, heq⟩ := mem_map.mp ht
  rw [settled_of_oneSeries (h.oneSeries lid li hget) hu] at heq
  obtain rfl := ownerKey_injective heq
  exact get?_removeAll.trans (if_pos hu)

variable {owner : A} {key : SeriesKey} {first : SerialNumber} {qty : TokenCount}

theorem mem_serialRange {last n : SerialNumber} :
    n ∈ serialRange first last ↔ first.toNat ≤ n.toNat ∧ n.toNat < last.toNat := by
  unfold serialRange
  rw [mem_map]
  constructor
  · rintro ⟨m, hm, rfl⟩
    have hm' := mem_range'_1.mp hm
    have hl := last.isLt
    rw [BitVec.toNat_ofNat, Nat.mod_eq_of_lt (by omega)]
    omega
  · rintro ⟨hge, hlt⟩
    refine ⟨n.toNat, mem_range'_1.mpr ⟨hge, by omega⟩, ?_⟩
    rw [BitVec.ofNat_toNat, BitVec.setWidth_eq]

theorem mint_owner (hfit : first.toNat + qty.toNat < 2 ^ 32) (k : SeriesKey) (n : SerialNumber) :
    (r.mint owner key first qty).owner.get? (k, n) =
      if k = key ∧ first.toNat ≤ n.toNat ∧ n.toNat < first.toNat + qty.toNat then some owner
      else r.owner.get? (k, n) := by
  have hsum := BitVec.toNat_add_of_lt hfit
  unfold Records.mint
  split
  · have hmem : (k, n) ∈ (serialRange first (first + qty)).map (fun n => (key, n)) ↔
        k = key ∧ first.toNat ≤ n.toNat ∧ n.toNat < first.toNat + qty.toNat := by
      rw [← hsum, ← mem_serialRange]
      simp only [mem_map, Prod.mk.injEq]
      constructor
      · rintro ⟨m, hm, rfl, rfl⟩
        exact ⟨rfl, hm⟩
      · rintro ⟨rfl, hm⟩
        exact ⟨n, hm, rfl, rfl⟩
    show (r.owner.insertAll _ owner).get? (k, n) = _
    rw [get?_insertAll]
    simp only [hmem]
  · rw [if_neg (by omega)]

theorem mint_owner_inv (hfit : first.toNat + qty.toNat < 2 ^ 32) {k : SeriesKey} {n : SerialNumber} {a : A}
    (hget : (r.mint owner key first qty).owner.get? (k, n) = some a) :
    (k = key ∧ n.toNat < first.toNat + qty.toNat) ∨ r.owner.get? (k, n) = some a := by
  rw [mint_owner hfit] at hget
  split_ifs at hget with hnew
  · exact Or.inl ⟨hnew.1, hnew.2.2⟩
  · exact Or.inr hget

theorem mint_nextSerial (hfi : r.nextSerial.getD key 0 = first) (hfit : first.toNat + qty.toNat < 2 ^ 32)
    (hey : qty.toNat = 0 → first = 0) :
    ∃ last : SerialNumber, last.toNat = first.toNat + qty.toNat ∧
      (r.mint owner key first qty).nextSerial = r.nextSerial.insert key last := by
  unfold Records.mint
  split_ifs with hz
  · refine ⟨Word.saturatingAdd (r.nextSerial.getD key 0) qty, ?_, rfl⟩
    rw [Word.toNat_saturatingAdd, hfi]
    omega
  · refine ⟨0, ?_, rfl⟩
    rw [hey (by omega)]
    simp
    omega

theorem mint_frame (r : Records A) (owner : A) (key : SeriesKey) (first : SerialNumber) (qty : TokenCount) :
    (r.mint owner key first qty).listings = r.listings ∧ (r.mint owner key first qty).locks = r.locks ∧
    (r.mint owner key first qty).nextListing = r.nextListing ∧
    (r.mint owner key first qty).nextSeries = r.nextSeries := by
  unfold Records.mint
  split <;> exact ⟨rfl, rfl, rfl, rfl⟩

theorem Listed.mint (h : Listed r) (hfit : first.toNat + qty.toNat < 2 ^ 32)
    (hfr : ∀ n owner, r.owner.get? (key, n) = some owner → n.toNat < first.toNat) :
    Listed (r.mint owner key first qty) := by
  obtain ⟨hli, hlo, hx, -⟩ := mint_frame r owner key first qty
  refine h.of_owner hli hlo hx fun t reason seller _ hse => ?_
  unfold ownerKey at hse ⊢
  rw [mint_owner hfit, if_neg]
  · exact hse
  · rintro ⟨hkey, hge, -⟩
    rw [hkey] at hse
    have := hfr _ _ hse
    omega

theorem Counted.mintAdditional (h : Counted r) (hfi : r.nextSerial.get? key = some first)
    (hpos : 0 < qty.toNat) (hfit : first.toNat + qty.toNat < 2 ^ 32) :
    Counted (r.mint owner key first qty) := by
  have hco : r.nextSerial.getD key 0 = first := getD_of_get? hfi
  obtain ⟨last, hl, hsr⟩ := mint_nextSerial (r := r) hco hfit (fun hz => by omega)
  obtain ⟨-, -, -, hse⟩ := mint_frame r owner key first qty
  refine h.grow (fun c => ?_) hsr ?_ ?_ fun k n a hget => ?_
  · rw [hse]
  · rw [hse]
    exact h.series key first hfi
  · rw [hco, hl]
    exact Nat.le_add_right _ _
  · rw [hl]
    exact mint_owner_inv hfit hget

section
variable {cid : CollectionId} {next : SeriesId}

theorem Counted.next_fresh (h : Counted r) (cid : CollectionId) :
    r.nextSerial.getD (cid, r.nextSeries.getD cid 0) 0 = 0 ∧
    ∀ n, r.owner.get? ((cid, r.nextSeries.getD cid 0), n) = none := by
  refine ⟨?_, fun n => ?_⟩
  · cases hget : r.nextSerial.get? (cid, r.nextSeries.getD cid 0) with
    | none =>
      unfold StorageMap.getD at hget ⊢
      rw [hget]
      rfl
    | some m => exact absurd (h.series _ m hget) (Nat.lt_irrefl _)
  · cases hget : r.owner.get? ((cid, r.nextSeries.getD cid 0), n) with
    | none => rfl
    | some a => exact absurd (h.minted _ n a hget).1 (Nat.lt_irrefl _)

theorem fits_from_zero (qty : TokenCount) : (0 : SerialNumber).toNat + qty.toNat < 2 ^ 32 := by
  have hlt := qty.isLt
  simpa using hlt

theorem Counted.mintSeries (h : Counted r) (hx : (r.nextSeries.getD cid 0).toNat + 1 = next.toNat) :
    Counted ((r.mint owner (cid, r.nextSeries.getD cid 0) 0 qty).setNextSeries cid next) := by
  obtain ⟨hco, -⟩ := h.next_fresh cid
  have hfit := fits_from_zero qty
  obtain ⟨last, hl, hse⟩ := mint_nextSerial (r := r) hco hfit (fun _ => rfl)
  obtain ⟨-, -, -, hsr⟩ := mint_frame r owner (cid, r.nextSeries.getD cid 0) 0 qty
  have hgr : ∀ c, (((r.mint owner (cid, r.nextSeries.getD cid 0) 0 qty).setNextSeries
      cid next).nextSeries.getD c 0) = if c = cid then next else r.nextSeries.getD c 0 := by
    intro c
    unfold Records.setNextSeries
    rw [hsr, getD_insert]
  refine h.grow (fun c => ?_) hse ?_ ?_ fun k n a hget => ?_
  · rw [hgr]
    split_ifs with heq
    · rw [heq]
      omega
    · exact Nat.le_refl _
  · rw [hgr, if_pos rfl]
    show (r.nextSeries.getD cid 0).toNat < next.toNat
    omega
  · rw [hco]
    exact Nat.zero_le _
  · rw [hl]
    exact mint_owner_inv hfit hget

theorem Listed.mintSeries (h : Listed r) (hc : Counted r) :
    Listed ((r.mint owner (cid, r.nextSeries.getD cid 0) 0 qty).setNextSeries cid next) := by
  have hfit := fits_from_zero qty
  have hmi : Listed (r.mint owner (cid, r.nextSeries.getD cid 0) 0 qty) := by
    refine h.mint hfit fun n a hget => ?_
    rw [(hc.next_fresh cid).2 n] at hget
    cases hget
  exact hmi.of_owner rfl rfl rfl fun _ _ _ _ hwn => hwn

end

/-! ### The effects keep the invariant -/

theorem Counted.give (h : Counted r) {keys : List (SeriesKey × SerialNumber)} (dst : A)
    (hhe : ∀ k ∈ keys, ∃ owner, r.owner.get? k = some owner) : Counted (r.give keys dst) := by
  refine h.of_owner rfl rfl fun k a hget => ?_
  have hge' := get?_insertAll.symm.trans hget
  split_ifs at hge' with hin
  · exact hhe k hin
  · exact ⟨a, hge'⟩

theorem Counted.burn (h : Counted r) {keys : List (SeriesKey × SerialNumber)} : Counted (r.burn keys) := by
  refine h.of_owner rfl rfl fun k a hget => ?_
  have hge' := get?_removeAll.symm.trans hget
  split at hge'
  · cases hge'
  · exact ⟨a, hge'⟩

theorem Effect.keeps {r' : Records A} (e : Effect r r') (h : Listed r ∧ Counted r) : Listed r' ∧ Counted r' := by
  obtain ⟨hl, hc⟩ := h
  cases e with
  | same => exact ⟨hl, hc⟩
  | relist hget hse hbu => exact ⟨hl.relist hget hse hbu, ⟨hc.minted, hc.series⟩⟩
  | mintSeries owner cid qty hx => exact ⟨hl.mintSeries hc, hc.mintSeries hx⟩
  | @mintAdditional owner key first qty hfi hpos hfit =>
    refine ⟨hl.mint hfit fun n a hget => ?_, hc.mintAdditional hfi hpos hfit⟩
    have hn := (hc.minted key n a hget).2
    rwa [getD_of_get? hfi] at hn
  | move dst hmo =>
    refine ⟨Listed.give (fun t ht => (hmo t ht).1) hl dst, hc.give dst fun k hk => ?_⟩
    exact (hmo (k.1.1, k.1.2, k.2) hk).2
  | burn hfree => exact ⟨Listed.burn hfree hl, hc.burn⟩
  | publish hsr hx hmo => exact ⟨hl.publish hsr hx hmo, ⟨hc.minted, hc.series⟩⟩
  | release hget => exact ⟨hl.release hget, ⟨hc.minted, hc.series⟩⟩
  | @settle lid li hget buyer =>
    have hre : Counted (r.release lid li.bundle) := ⟨hc.minted, hc.series⟩
    refine ⟨hl.settle hget buyer, hre.give buyer fun k hk => ?_⟩
    obtain ⟨t, ht, rfl⟩ := mem_map.mp hk
    rw [settled_of_oneSeries (hl.oneSeries lid li hget) ht]
    exact ⟨_, (hl.held lid li hget t ht).1⟩

end

def Call.accepted (s : State A) : Call A → Option TokenId
  | .acceptOffer offerId =>
    match s.offers.get? offerId with
    | some (.simple offer) => some offer.tokenId
    | none => none
  | _ => none

section
variable {cfg : Config A} {s s' : State A} {o : A}

def Kept (s : State A) : Prop := Listed s.records ∧ Counted s.records

theorem genesis_kept (assets : GenericAsset.State A) : Kept (.genesis assets) := by
  refine ⟨⟨fun _ _ hget => ?_, fun _ _ hget => ?_, fun _ _ hget => ?_⟩, ⟨fun _ _ _ hget => ?_, fun _ _ hget => ?_⟩⟩ <;>
    cases hget

section
variable [DecidableEq A]

theorem closeListing_effect (cfg : Config A) (s : State A) (lid : ListingId) :
    Effect s.records (closeListing cfg s lid).records := by
  rcases closeListing_records cfg s lid with hs | ⟨li, hget, hre | ⟨winner, hse⟩⟩
  · exact .of_eq hs
  · rw [hre]
    exact .release hget
  · rw [hse]
    exact .settle hget winner

end

variable [Inhabited A]

def ListedHeld (s : State A) : Prop :=
  ∀ lid li, s.listings.get? lid = some li → ∀ t ∈ li.bundle.tokens,
    s.ownerOf t = li.seller ∧ s.tokenLocks.get? t = some (.listed lid)

theorem listedHeld_of_listed (h : Listed s.records) : ListedHeld s := by
  intro lid li hget t ht
  obtain ⟨hse, hlo⟩ := h.held lid li hget t ht
  exact ⟨getD_of_get? hse, hlo⟩

theorem Listed.deliverable (h : Listed s.records) {lid : ListingId} {li : Listing A}
    (hget : s.listings.get? lid = some li) (buyer : A) :
    Deliverable s li.bundle li.seller buyer := by
  have hse : ∀ t ∈ li.bundle.tokens, li.bundle.settled t = t :=
    fun t ht => settled_of_oneSeries (h.oneSeries lid li hget) ht
  refine ⟨fun t ht => Or.inl (hse t ht), fun t ht => Or.inr ?_⟩
  rw [hse t ht]
  exact ⟨ht, (listedHeld_of_listed h lid li hget t ht).1⟩

/-- The step lists tokens of one series only, accepts no offer on a locked token, and is not signed by the default
account, the owner of what was never minted. -/
def MarketSafe (s : State A) : Op A → Prop
  | .call o call => o ≠ default ∧ OneSeries call.listed ∧
    ∀ t ∈ call.accepted s, s.tokenLocks.contains t = false
  | .onInitialize _ => True

theorem owner_of_ownerOf {t : TokenId} (h : s.ownerOf t = o) (hde : o ≠ default) :
    s.records.owner.get? (ownerKey t) = some o := by
  have h' : (s.records.owner.get? (ownerKey t)).getD default = o := h
  cases hget : s.records.owner.get? (ownerKey t) with
  | none =>
    rw [hget] at h'
    exact absurd h'.symm hde
  | some owner =>
    rw [hget] at h'
    exact congrArg some h'

theorem Filed.effect {listed : List TokenId} {c : Catalogue A} (hde : o ≠ default)
    (hse : OneSeries listed) (h : Filed s o listed c) : Effect s.records (c.records s.tokens) := by
  cases h with
  | same => exact .same
  | published hsl hli hx hmo =>
    refine .publish (hli ▸ hse) hx fun t ht => ?_
    obtain ⟨hfree, hwn⟩ := hmo t (hli ▸ ht)
    exact ⟨hfree, hsl ▸ owner_of_ownerOf hwn hde⟩
  | repriced p hget => exact .relist hget rfl rfl
  | bid => exact .same
  | lateBid close hget => exact .relist hget rfl rfl
  | removed hget => exact .release hget
  | sold hget => exact .release hget

variable [DecidableEq A]

instance (s : State A) : ∀ op, Decidable (MarketSafe s op)
  | .call o call =>
    decidable_of_iff (o ≠ default ∧ OneSeries call.listed ∧ (call.accepted s).all fun t => !s.tokenLocks.contains t)
      (and_congr_right' (and_congr_right' (by cases call.accepted s <;> simp)))
  | .onInitialize _ => isTrue trivial

theorem transferBatch_effect {cid : CollectionId} {sid : SeriesId} {ns : List SerialNumber}
    {dst : A} (hde : o ≠ default)
    (h : transferBatch s o cid sid ns dst = .ok s') :
    Effect s.records s'.records := by
  obtain ⟨hmo, hre⟩ := transferBatch_inv h
  rw [hre]
  refine .move dst fun t ht => ?_
  obtain ⟨n, hn, heq⟩ := mem_map.mp ht
  obtain rfl : (cid, sid, n) = t := ownerKey_injective heq
  obtain ⟨hfree, hwn⟩ := hmo n hn
  exact ⟨hfree, o, owner_of_ownerOf hwn hde⟩

theorem burnBatch_effect {cid : CollectionId} {sid : SeriesId} {ns : List SerialNumber}
    (h : burnBatch s o cid sid ns = .ok s') : Effect s.records s'.records := by
  obtain ⟨hfree, hre⟩ := burnBatch_inv h
  rw [hre]
  refine .burn fun t ht => ?_
  obtain ⟨n, hn, heq⟩ := mem_map.mp ht
  obtain rfl : (cid, sid, n) = t := ownerKey_injective heq
  exact hfree n hn

theorem acceptOffer_effect {oid : OfferId} (hde : o ≠ default)
    (hfree : ∀ t ∈ (Call.acceptOffer oid).accepted s, s.tokenLocks.contains t = false)
    (h : acceptOffer cfg s o oid = .ok s') : Effect s.records s'.records := by
  obtain ⟨offer, hof, hwn, hre⟩ := acceptOffer_inv h
  have hac : (Call.acceptOffer oid).accepted s = some offer.tokenId := by
    simp only [Call.accepted, hof]
  have hun := hfree offer.tokenId hac
  rw [not_contains_iff] at hun
  rw [hre]
  refine .move offer.buyer fun t ht => ?_
  obtain rfl : t = offer.tokenId := ownerKey_injective (mem_singleton.mp ht)
  exact ⟨hun, o, owner_of_ownerOf hwn hde⟩

theorem dispatch_effect {call : Call A} (hsa : MarketSafe s (.call o call))
    (h : dispatch cfg s o call = .ok s') : Effect s.records s'.records := by
  obtain ⟨hde, hsr, hfree⟩ := hsa
  cases hc : call.leavesTokens with
  | true =>
    have htr := dispatch_traded hc h
    have hre : s'.records = s'.catalogue.records s.tokens := congrArg s'.catalogue.records htr.tokens
    rw [hre]
    exact htr.filed.effect hde hsr
  | false =>
    cases call with
    | updateTokenBalance => exact .of_eq (updateTokenBalance_kept h).2
    | mintSeries cid qty owner scheme roy =>
      obtain ⟨⟨s₁, sid⟩, hmi, rfl⟩ := Result.map_eq_ok.mp h
      obtain ⟨next, rfl, hx, hre⟩ := doMintSeries_inv hmi
      rw [hre]
      exact .mintSeries (owner.getD o) cid qty hx
    | mintAdditional cid sid qty owner =>
      obtain ⟨first, hfi, hpos, hfit, hre⟩ := mintAdditional_inv h
      rw [hre]
      exact .mintAdditional (owner.getD o) hfi hpos hfit
    | transfer | transferBatch => exact transferBatch_effect hde h
    | burn | burnBatch => exact burnBatch_effect h
    | buy lid =>
      obtain ⟨li, hget, hre⟩ := buy_inv h
      have hge' : s.records.listings.get? lid = some (.fixedPrice li) := hget
      have hse := Effect.settle hge' o
      rw [hre]
      exact hse
    | acceptOffer => exact acceptOffer_effect hde hfree h
    | _ => cases hc

theorem step_keeps {op : Op A} (hsa : MarketSafe s op) (h : Kept s) : Kept (step cfg s op) := by
  cases op with
  | call o call =>
    rw [step_call]
    exact getD_cases (fun s₁ hc => (dispatch_effect hsa hc).keeps h) h
  | onInitialize now =>
    rw [step_onInitialize]
    have hst : Kept (startClosing s now) := h
    exact execute_invariant (fun lid _ s₁ => (closeListing_effect cfg s₁ lid).keeps) hst

theorem listed_of_marketSafe {assets : GenericAsset.State A} {ops done : List (Op A)}
    (hsa : Each (step cfg) MarketSafe (.genesis assets) ops) (hdo : done <+: ops) :
    Listed (execute (step cfg) (.genesis assets) done).records := by
  obtain ⟨rest, rfl⟩ := hdo
  have hrun := (each_append.mp hsa).1
  exact (hrun.invariant (fun _ _ => step_keeps) (genesis_kept assets)).1

/-- In every run of safe steps the open listings hold their tokens all along. -/
theorem listedHeld_of_marketSafe (cfg : Config A) (assets : GenericAsset.State A) (ops : List (Op A))
    (hsafe : Each (step cfg) MarketSafe (.genesis assets) ops) :
    ∀ done, done <+: ops → ListedHeld (execute (step cfg) (.genesis assets) done) :=
  fun _ hdo => listedHeld_of_listed (listed_of_marketSafe hsafe hdo)

theorem settlesDeliverable_of_kept {op : Op A} (h : Kept s) : SettlesDeliverable cfg s op := by
  cases op with
  | call o call =>
    cases call with
    | buy lid =>
      intro x hx s' _
      simp only [Call.settlement] at hx
      split at hx
      · rename_i li hli
        cases hx
        exact h.1.deliverable hli o
      · cases hx
    | _ => trivial
  | onInitialize now =>
    have hst : Kept (startClosing s now) := h
    refine each_of_invariant (fun s₁ lid => (closeListing_effect cfg s₁ lid).keeps) ?_ hst
    intro s₁ lid h₁ x hx
    unfold closingSettlement at hx
    split at hx
    · rename_i li winner p hli hbid
      split at hx
      · cases hx
        exact h₁.1.deliverable hli winner
      · cases hx
    · cases hx

/-- In a run of safe steps each settlement moves exactly its tokens. -/
theorem settlesExactly_of_marketSafe {assets : GenericAsset.State A} {ops : List (Op A)}
    (hsa : Each (step cfg) MarketSafe (.genesis assets) ops) :
    Each (step cfg) (SettlesExactly cfg) (.genesis assets) ops :=
  Each.imp (fun _ _ => step_keeps) (fun _ _ h _ => settlesExactly_iff.mpr (settlesDeliverable_of_kept h)) hsa
    (genesis_kept assets)

end

/-! ### An offer on a listed token -/

def offerAccepted (token : TokenId) : List (Op Nat) := [
  .call 1 (.createCollection [97] none),
  .call 1 (.mintSeries 0 2 none (.https [97]) none),
  .call 1 (.sellBundle [(0, 0, 0)] none 1 5 none none),
  .call 2 (.makeSimpleOffer token 1 1 none),
  .call 1 (.acceptOffer 0)]

theorem accepted_offer_empties_listing : ∃ s, execute (step plainConfig) fundedBuyer (offerAccepted (0, 0, 0)) = s ∧
      (s.listings.get? 0).map (fun l => (l.seller, l.bundle.tokens)) = some (1, [(0, 0, 0)]) ∧
      s.ownerOf (0, 0, 0) = 2 ∧ ¬ListedHeld s := by
  obtain ⟨s, hrun, sale, hsa, hse, hin, hwn⟩ : ∃ s,
      execute (step plainConfig) fundedBuyer (offerAccepted (0, 0, 0)) = s ∧
      ∃ sale, s.listings.get? 0 = some sale ∧ sale.seller = 1 ∧ sale.bundle.tokens = [(0, 0, 0)] ∧
        s.ownerOf (0, 0, 0) = 2 := ⟨_, rfl, _, rfl, rfl, rfl, rfl⟩
  refine ⟨s, hrun, ?_, hwn, fun hhe => ?_⟩
  · rw [hsa, Option.map_some, hse, hin]
  · have hk := (hhe 0 sale hsa (0, 0, 0) (by rw [hin]; exact mem_singleton_self _)).1
    rw [hwn, hse] at hk
    cases hk

theorem accepted_offer_beside_listing : Each (step plainConfig) MarketSafe fundedBuyer (offerAccepted (0, 0, 1)) ∧
    (execute (step plainConfig) fundedBuyer (offerAccepted (0, 0, 1))).listings.contains 0 = true ∧
    ∀ done, done <+: offerAccepted (0, 0, 1) → ListedHeld (execute (step plainConfig) fundedBuyer done) := by
  have hsa : Each (step plainConfig) MarketSafe fundedBuyer (offerAccepted (0, 0, 1)) := by decide
  exact ⟨hsa, by decide, listedHeld_of_marketSafe plainConfig _ _ hsa⟩

theorem accepted_offer_settlesExactly :
    Each (step plainConfig) (SettlesExactly plainConfig) fundedBuyer (offerAccepted (0, 0, 1)) :=
  settlesExactly_of_marketSafe (by decide)

end Nft
