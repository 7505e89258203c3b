import Cennznet.Theorems.Nft.Book

/-! # Open offers and bids

The offers of a token are listed in the order of their ids, as `binary_search` needs. -/

namespace Nft

open GenericAsset (AssetId Balance)
open Result StorageMap List

variable {A : Type}

/-! ### Open offers are found -/

/-- `slice::binary_search` finds what is in a sorted list. -/
def FindsSorted (search : List OfferId → OfferId → Option Nat) : Prop :=
  ∀ ids id, ids.Pairwise (fun a b => a.toNat < b.toNat) → id ∈ ids → ∃ ix, search ids id = some ix ∧ ids[ix]? = some id

structure Queued (b : Book A) : Prop where
  found : ∀ offerId offer, b.offers.get? offerId = some (.simple offer) → offerId ∈ b.tokenOffers.getD offer.tokenId []
  sorted : ∀ t, (b.tokenOffers.getD t []).Pairwise fun x y => x.toNat < y.toNat
  below : ∀ t, ∀ offerId ∈ b.tokenOffers.getD t [], offerId.toNat < b.nextOffer.toNat

section
variable {b b' : Book A} {offerId : OfferId} {o : SimpleOffer A} {ix : Nat}

theorem Queued.of_eq (h : Queued b) (hofs : b'.offers = b.offers) (hto : b'.tokenOffers = b.tokenOffers)
    (hx : b'.nextOffer = b.nextOffer) : Queued b' := by
  refine ⟨?_, ?_, ?_⟩
  · rw [hofs, hto]
    exact h.found
  · rw [hto]
    exact h.sorted
  · rw [hto, hx]
    exact h.below

theorem Queued.fresh (h : Queued b) : b.offers.get? b.nextOffer = none := by
  cases hget : b.offers.get? b.nextOffer with
  | none => rfl
  | some o =>
    obtain ⟨o⟩ := o
    exact absurd (h.below _ _ (h.found _ o hget)) (Nat.lt_irrefl _)

theorem Queued.offer (h : Queued b) {next : OfferId} (hnx : b.nextOffer.toNat + 1 = next.toNat) :
    Queued (b.offer o next) := by
  refine ⟨fun id o' hget => ?_, fun t => ?_, fun t id hid => ?_⟩
  · refine mem_getD_push.mpr ?_
    rcases get?_insert_eq_some.mp hget with ⟨rfl, heq⟩ | ⟨-, hold⟩
    · cases heq
      exact Or.inr ⟨rfl, rfl⟩
    · exact Or.inl (h.found id o' hold)
  · unfold Book.offer
    rw [getD_insert]
    split
    · refine pairwise_append.mpr ⟨h.sorted _, pairwise_singleton _ _, fun x hx y hy => ?_⟩
      rw [mem_singleton.mp hy]
      exact h.below _ x hx
    · exact h.sorted t
  · show id.toNat < next.toNat
    rcases mem_getD_push.mp hid with hold | ⟨-, rfl⟩
    · have hlt := h.below t id hold
      omega
    · omega

theorem Queued.strike (h : Queued b) (hix : (b.tokenOffers.getD o.tokenId [])[ix]? = some offerId) :
    Queued (b.strike offerId o.tokenId ix) := by
  have hli : ∀ t, (b.strike offerId o.tokenId ix).tokenOffers.getD t [] =
      if t = o.tokenId then (b.tokenOffers.getD o.tokenId []).eraseIdx ix else b.tokenOffers.getD t [] :=
    fun t => getD_insert
  have hsu : ∀ t, ((b.strike offerId o.tokenId ix).tokenOffers.getD t []).Sublist (b.tokenOffers.getD t []) := by
    intro t
    rw [hli]
    split_ifs with heq
    · rw [heq]
      exact eraseIdx_sublist _ _
    · exact List.Sublist.refl _
  refine ⟨fun id o' hk => ?_, fun t => (h.sorted t).sublist (hsu t), fun t id hid => h.below t id ((hsu t).mem hid)⟩
  -- another offer of the token stands elsewhere in its list
  obtain ⟨hne, hold⟩ := get?_remove_eq_some.mp hk
  have hmem := h.found id o' hold
  rw [hli]
  split_ifs with heq
  · rw [heq] at hmem
    obtain ⟨i, hi⟩ := mem_iff_getElem?.mp hmem
    refine mem_eraseIdx_iff_getElem?.mpr ⟨i, fun hi' => ?_, hi⟩
    rw [hi', hix] at hi
    exact hne (Option.some.inj hi).symm
  · exact hmem

theorem Queued.search (h : Queued b) {search : List OfferId → OfferId → Option Nat} (hse : FindsSorted search)
    (hget : b.offers.get? offerId = some (.simple o)) :
    ∃ ix, search (b.tokenOffers.getD o.tokenId []) offerId = some ix ∧
      (b.tokenOffers.getD o.tokenId [])[ix]? = some offerId :=
  hse _ _ (h.sorted _) (h.found offerId o hget)

end

section
variable [DecidableEq A] {cfg : Config A} {s : State A} {org : A} {call : Call A} {b : Book A}
  {lid : ListingId}

theorem Trade.queued (hse : FindsSorted cfg.binarySearch) (ht : Trade cfg s org call b) (h : Queued s.book) :
    Queued b := by
  cases ht with
  | same => exact h
  | opened | bought | cancelled | repriced => exact h.of_eq rfl rfl rfl
  | bid =>
    unfold Book.extend
    split <;> exact h.of_eq rfl rfl rfl
  | @offered _ _ _ _ _ assets _ hx =>
    have hp : Queued (s.book.pay assets) := h.of_eq rfl rfl rfl
    exact hp.offer hx
  | @withdrawn offerId offer ix hget _ hix =>
    obtain ⟨ix', hin', hpl⟩ := h.search hse hget
    obtain rfl : ix' = ix := Option.some.inj (hin'.symm.trans hix)
    have hp : Queued (s.book.pay
      (GenericAsset.MultiCurrency.unreserve s.assets org offer.assetId offer.amount).1) := h.of_eq rfl rfl rfl
    exact hp.strike hpl
  | @accepted offerId offer ix roy assets hget _ _ hix =>
    obtain ⟨ix', hin', hpl⟩ := h.search hse hget
    obtain rfl : ix' = ix := Option.some.inj (hin'.symm.trans hix)
    have hp : Queued (s.book.pay assets) := h.of_eq rfl rfl rfl
    exact hp.strike hpl

theorem Closure.queued (hc : Closure cfg s lid b) (h : Queued s.book) : Queued b := by
  cases hc <;> exact h.of_eq rfl rfl rfl

end

section
variable [DecidableEq A] {cfg : Config A} {s : State A} {org : A} {offerId : OfferId}

theorem checkBundleRoyalties_ends {A : Type} (s : State A) (bundle : Bundle) (mid : Option MarketplaceId) :
    Ends (checkBundleRoyalties s bundle mid) (fun _ => True) fun e => e ≠ .panicked := by
  refine Ends.bind (Ends.forM fun t => ?_) fun _ _ _ => ?_
  · refine Ends.bind (Ends.ensure (fun h => nomatch h)) fun _ _ _ => ?_
    exact (Ends.ensure (fun h => nomatch h)).mono fun _ _ => trivial
  · cases mid with
    | none => exact trivial
    | some id =>
      refine Ends.bind (Ends.okOr (fun h => nomatch h)) fun marketplace _ _ => ?_
      exact Ends.bind (Ends.ensure (fun h => nomatch h)) fun _ _ _ => trivial

theorem payReserved_ends (cfg : Config A) (assets : GenericAsset.State A) (buyer seller : A)
    (a : AssetId) (n : Balance) (r : RoyaltiesSchedule A) :
    Ends (payReserved cfg assets buyer seller a n r) (fun _ => True) fun e => e ≠ .panicked :=
  Ends.bind (Ends.ensure (fun h => nomatch h)) fun _ _ _ => trivial

theorem removeOffer_ends {A : Type} {cfg : Config A} {s : State A} {tokenId : TokenId} {ix : Nat}
    (hix : cfg.binarySearch (s.tokenOffers.getD tokenId []) offerId = some ix) :
    Ends (removeOffer cfg s offerId tokenId) (fun _ => True) fun e => e ≠ .panicked := by
  refine Ends.bind (P := fun _ => True) ?_ fun _ _ _ => trivial
  rw [hix]
  exact trivial

theorem cancelOffer_ends (hse : FindsSorted cfg.binarySearch) (h : Queued s.book) :
    Ends (cancelOffer cfg s org offerId) (fun _ => True) fun e => e ≠ .panicked := by
  unfold cancelOffer
  split
  · rename_i offer hof
    obtain ⟨ix, hix, -⟩ := h.search hse hof
    refine Ends.bind (Ends.ensure (fun h => nomatch h)) fun _ _ _ => ?_
    exact removeOffer_ends hix
  · exact fun h => nomatch h

theorem acceptOffer_ends [Inhabited A] (hsr : FindsSorted cfg.binarySearch) (h : Queued s.book) :
    Ends (acceptOffer cfg s org offerId) (fun _ => True) fun e => e ≠ .panicked := by
  unfold acceptOffer
  split
  · rename_i offer hof
    obtain ⟨ix, hix, -⟩ := h.search hsr hof
    refine Ends.bind (Ends.ensure (fun h => nomatch h)) fun _ _ _ => ?_
    refine Ends.bind (checkBundleRoyalties_ends s _ _) fun roy _ _ => ?_
    refine Ends.bind (P := fun _ => True) ?_ fun s₁ hse _ => ?_
    · exact Ends.bind (payReserved_ends cfg _ _ _ _ _ _) fun _ _ _ => trivial
    · -- the settlement leaves the lists of offers
      obtain ⟨assets, -, hbo, -⟩ := processPaymentAndTransfer_market hse
      have hli : s₁.tokenOffers = s.book.tokenOffers := congrArg Book.tokenOffers hbo
      exact removeOffer_ends (hli ▸ hix)
  · exact fun h => nomatch h

end

/-! ### Bids are on open auctions -/

structure Standing (b : Book A) : Prop where
  auctioned : ∀ lid bid, b.bids.get? lid = some bid → ∃ auction, b.listings.get? lid = some (.auction auction)
  ids : ∀ lid li, b.listings.get? lid = some li → lid.toNat < b.nextListing.toNat

section
variable {b b' : Book A} {lid : ListingId}

theorem Standing.fresh (h : Standing b) : b.listings.get? b.nextListing = none := by
  cases hget : b.listings.get? b.nextListing with
  | none => rfl
  | some li => exact absurd (h.ids _ li hget) (Nat.lt_irrefl _)

theorem Standing.noBid (h : Standing b) (hget : ∀ au, b.listings.get? lid ≠ some (.auction au)) :
    b.bids.get? lid = none := by
  cases hbid : b.bids.get? lid with
  | none => rfl
  | some bid =>
    obtain ⟨au, hau⟩ := h.auctioned lid bid hbid
    exact absurd hau (hget au)

variable {li : Listing A}

theorem Standing.noBid_of_listing (h : Standing b) (hget : b.listings.get? lid = some li)
    (hno : ∀ auction, li = .auction auction → b.bids.get? lid = none) : b.bids.get? lid = none := by
  cases li with
  | fixedPrice sale =>
    refine h.noBid fun auction hau => ?_
    rw [hget] at hau
    cases hau
  | auction auction => exact hno auction rfl

theorem Standing.publish (h : Standing b) {next : ListingId} (hx : b.nextListing.toNat + 1 = next.toNat) :
    Standing (b.publish li next) := by
  refine ⟨fun id bid hbid => ?_, fun id l hget => ?_⟩
  · obtain ⟨au, hau⟩ := h.auctioned id bid hbid
    refine ⟨au, (get?_insert_ne ?_).trans hau⟩
    rintro rfl
    cases hau.symm.trans h.fresh
  · show id.toNat < next.toNat
    rcases get?_insert_eq_some.mp hget with ⟨rfl, -⟩ | ⟨-, hold⟩
    · omega
    · have hlt := h.ids id l hold
      omega

theorem Standing.unlist (h : Standing b) (hli : b'.listings = b.listings.remove lid)
    (hbi : ∀ id bid, b'.bids.get? id = some bid → id ≠ lid ∧ b.bids.get? id = some bid)
    (hx : b'.nextListing = b.nextListing) : Standing b' := by
  refine ⟨fun id bid hbid => ?_, fun id l hget => ?_⟩
  · obtain ⟨hne, hold⟩ := hbi id bid hbid
    rw [hli, get?_remove_ne hne]
    exact h.auctioned id bid hold
  · rw [hli] at hget
    rw [hx]
    exact h.ids id l (get?_remove_eq_some.mp hget).2

theorem Standing.unlist_of_noBid (h : Standing b) (hli : b'.listings = b.listings.remove lid)
    (hbi : b'.bids = b.bids) (hno : b.bids.get? lid = none) (hx : b'.nextListing = b.nextListing) :
    Standing b' := by
  refine h.unlist hli (fun id bid hbid => ?_) hx
  rw [hbi] at hbid
  refine ⟨?_, hbid⟩
  rintro rfl
  cases hno.symm.trans hbid

theorem Standing.close (h : Standing b) (hli : b'.listings = b.listings.remove lid)
    (hbi : b'.bids = b.bids.remove lid) (hx : b'.nextListing = b.nextListing) : Standing b' := by
  refine h.unlist hli (fun id bid hbid => ?_) hx
  rw [hbi] at hbid
  exact get?_remove_eq_some.mp hbid

theorem Standing.relist (h : Standing b) {li' : Listing A}
    (hget : b.listings.get? lid = some li) (hli : b'.listings = b.listings.insert lid li')
    (hau : ∀ au, li = .auction au → ∃ au', li' = .auction au')
    (hbi : b'.bids = b.bids) (hx : b'.nextListing = b.nextListing) : Standing b' := by
  refine ⟨fun id bid hbid => ?_, fun id l hl => ?_⟩
  · rw [hbi] at hbid
    obtain ⟨au, hold⟩ := h.auctioned id bid hbid
    rw [hli]
    by_cases hid : id = lid
    · subst hid
      obtain ⟨au', rfl⟩ := hau au (Option.some.inj (hget.symm.trans hold))
      exact ⟨au', get?_insert_self⟩
    · exact ⟨au, (get?_insert_ne hid).trans hold⟩
  · rw [hli] at hl
    rw [hx]
    rcases get?_insert_eq_some.mp hl with ⟨rfl, -⟩ | ⟨-, hold⟩
    · exact h.ids id li hget
    · exact h.ids id l hold

theorem Standing.setBid (h : Standing b) {au : AuctionListing A}
    (hget : b.listings.get? lid = some (.auction au)) (bid : A × Balance) :
    Standing (b.setBid lid bid) := by
  refine ⟨fun id bid' hbid => ?_, h.ids⟩
  rcases get?_insert_eq_some.mp hbid with ⟨rfl, -⟩ | ⟨-, hold⟩
  · exact ⟨au, hget⟩
  · exact h.auctioned id bid' hold

theorem Standing.extend (h : Standing b) {au : AuctionListing A}
    (hget : b.listings.get? lid = some (.auction au)) : Standing (b.extend lid au) := by
  unfold Book.extend
  split
  · exact h.relist hget rfl (fun _ _ => ⟨_, rfl⟩) rfl rfl
  · exact h

theorem Standing.pay (h : Standing b) (assets : GenericAsset.State A) : Standing (b.pay assets) :=
  ⟨h.auctioned, h.ids⟩

end

section
variable [DecidableEq A] {cfg : Config A} {s : State A} {org : A} {call : Call A} {b : Book A}
  {lid : ListingId}

theorem Trade.standing (ht : Trade cfg s org call b) (h : Standing s.book) : Standing b := by
  cases ht with
  | same => exact h
  | opened _ _ hx => exact h.publish hx
  | bought => exact h.close rfl rfl rfl
  | bid hget => exact ((h.pay _).setBid hget _).extend hget
  | cancelled hget hno => exact h.unlist_of_noBid rfl rfl (h.noBid_of_listing hget hno) rfl
  | repriced hget => exact h.relist hget rfl (fun _ heq => nomatch heq) rfl rfl
  | offered | withdrawn | accepted => exact ⟨h.auctioned, h.ids⟩

theorem Closure.standing (hc : Closure cfg s lid b) (h : Standing s.book) : Standing b := by
  cases hc with
  | absent => exact h
  | unsold hget hno => exact h.unlist_of_noBid rfl rfl (h.noBid_of_listing hget hno) rfl
  | settled => exact h.close rfl rfl rfl
  | failed => exact h.close rfl rfl rfl

end

end Nft
