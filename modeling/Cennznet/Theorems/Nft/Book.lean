import Cennznet.Theorems.Nft.Records

/-! # What the calls do to the order book

A call that succeeds does one of a few things to the order book (`Trade`, `Filed`, `Closure`). -/

namespace Nft

open GenericAsset (AssetId Balance)
open Result

variable {A : Type}

namespace Listing

def close : Listing A → BlockNumber
  | .fixedPrice listing => listing.close
  | .auction listing => listing.close

def paymentAsset : Listing A → AssetId
  | .fixedPrice listing => listing.paymentAsset
  | .auction listing => listing.paymentAsset

end Listing

structure Book (A : Type) where
  assets : GenericAsset.State A
  now : BlockNumber
  listings : StorageMap ListingId (Listing A)
  nextListing : ListingId
  bids : StorageMap ListingId (A × Balance)
  schedule : StorageMap (BlockNumber × ListingId) Bool
  offers : StorageMap OfferId (OfferType A)
  tokenOffers : StorageMap TokenId (List OfferId)
  nextOffer : OfferId

def State.book (s : State A) : Book A where
  assets := s.assets
  now := s.blockNumber
  listings := s.listings
  nextListing := s.nextListingId
  bids := s.listingWinningBid
  schedule := s.listingEndSchedule
  offers := s.offers
  tokenOffers := s.tokenOffers
  nextOffer := s.nextOfferId

structure Tokens (A : Type) where
  owner : StorageMap (SeriesKey × SerialNumber) A
  balance : StorageMap A (StorageMap SeriesKey TokenCount)
  nextSeries : StorageMap CollectionId SeriesId
  nextSerial : StorageMap SeriesKey SerialNumber

def State.tokens (s : State A) : Tokens A where
  owner := s.tokenOwner
  balance := s.tokenBalance
  nextSeries := s.nextSeriesId
  nextSerial := s.nextSerialNumber

structure Catalogue (A : Type) where
  listings : StorageMap ListingId (Listing A)
  openListings : StorageMap (CollectionId × ListingId) Bool
  bids : StorageMap ListingId (A × Balance)
  locks : StorageMap TokenId TokenLockReason
  nextListing : ListingId

def State.catalogue (s : State A) : Catalogue A where
  listings := s.listings
  openListings := s.openCollectionListings
  bids := s.listingWinningBid
  locks := s.tokenLocks
  nextListing := s.nextListingId

def State.market (s : State A) : Book A × Catalogue A := (s.book, s.catalogue)

namespace Catalogue

def publish (c : Catalogue A) (listing : Listing A) (next : ListingId) : Catalogue A :=
  { c with
    listings := c.listings.insert c.nextListing listing
    openListings := c.openListings.insert (listing.bundle.first.1, c.nextListing) true
    locks := c.locks.insertAll listing.bundle.tokens (.listed c.nextListing)
    nextListing := next }

def relist (c : Catalogue A) (lid : ListingId) (listing : Listing A) : Catalogue A :=
  { c with listings := c.listings.insert lid listing }

def setBid (c : Catalogue A) (lid : ListingId) (bid : A × Balance) : Catalogue A :=
  { c with bids := c.bids.insert lid bid }

def dropBid (c : Catalogue A) (lid : ListingId) : Catalogue A :=
  { c with bids := c.bids.remove lid }

def release (c : Catalogue A) (lid : ListingId) (b : Bundle) : Catalogue A :=
  { c with
    listings := c.listings.remove lid
    openListings := c.openListings.remove (b.first.1, lid)
    locks := c.locks.removeAll b.tokens }

def records (c : Catalogue A) (t : Tokens A) : Records A where
  owner := t.owner
  locks := c.locks
  listings := c.listings
  nextListing := c.nextListing
  nextSeries := t.nextSeries
  nextSerial := t.nextSerial

end Catalogue

namespace Book

def pay (b : Book A) (assets : GenericAsset.State A) : Book A := { b with assets := assets }

def publish (b : Book A) (listing : Listing A) (next : ListingId) : Book A :=
  { b with
    listings := b.listings.insert b.nextListing listing
    schedule := b.schedule.insert (listing.close, b.nextListing) true
    nextListing := next }

def relist (b : Book A) (lid : ListingId) (listing : Listing A) : Book A :=
  { b with listings := b.listings.insert lid listing }

def unlist (b : Book A) (lid : ListingId) : Book A :=
  { b with listings := b.listings.remove lid }

def unschedule (b : Book A) (close : BlockNumber) (lid : ListingId) : Book A :=
  { b with schedule := b.schedule.remove (close, lid) }

def setBid (b : Book A) (lid : ListingId) (bid : A × Balance) : Book A :=
  { b with bids := b.bids.insert lid bid }

def dropBid (b : Book A) (lid : ListingId) : Book A :=
  { b with bids := b.bids.remove lid }

def postpone (b : Book A) (lid : ListingId) (auction : AuctionListing A) (close : BlockNumber) : Book A :=
  { b with
    listings := b.listings.insert lid (.auction { auction with close := close })
    schedule := (b.schedule.remove (auction.close, lid)).insert (close, lid) true }

def extend (b : Book A) (lid : ListingId) (auction : AuctionListing A) : Book A :=
  if (auction.close - b.now).toNat ≤ auctionExtensionPeriod.toNat then
    b.postpone lid auction (b.now + auctionExtensionPeriod)
  else b

def offer (b : Book A) (offer : SimpleOffer A) (next : OfferId) : Book A :=
  { b with
    tokenOffers := b.tokenOffers.insert offer.tokenId (b.tokenOffers.getD offer.tokenId [] ++ [b.nextOffer])
    offers := b.offers.insert b.nextOffer (.simple offer)
    nextOffer := next }

def strike (b : Book A) (oid : OfferId) (tokenId : TokenId) (i : Nat) : Book A :=
  { b with
    offers := b.offers.remove oid
    tokenOffers := b.tokenOffers.insert tokenId ((b.tokenOffers.getD tokenId []).eraseIdx i) }

end Book

def Call.duration (cfg : Config A) : Call A → Option BlockNumber
  | .sell _ _ _ _ dur _ => some (dur.getD cfg.defaultListingDuration)
  | .sellBundle _ _ _ _ dur _ => some (dur.getD cfg.defaultListingDuration)
  | .auction _ _ _ dur _ => some (dur.getD cfg.defaultListingDuration)
  | .auctionBundle _ _ _ dur _ => some (dur.getD cfg.defaultListingDuration)
  | _ => none

def Call.listed : Call A → List TokenId
  | .sell tokenId .. => [tokenId]
  | .sellBundle tokens .. => tokens
  | .auction tokenId .. => [tokenId]
  | .auctionBundle tokens .. => tokens
  | _ => []

inductive Filed [Inhabited A] (s : State A) (o : A) (listed : List TokenId) :
    Catalogue A → Prop
  | same : Filed s o listed s.catalogue
  | published {listing : Listing A} {next : ListingId} (hseller : listing.seller = o)
      (hlisted : listing.bundle.tokens = listed) (hnext : s.nextListingId.toNat + 1 = next.toNat)
      (hmovable : ∀ t ∈ listed, s.tokenLocks.get? t = none ∧ s.ownerOf t = o) :
      Filed s o listed (s.catalogue.publish listing next)
  | repriced {lid : ListingId} {sale : FixedPriceListing A} (p : Balance)
      (hget : s.listings.get? lid = some (.fixedPrice sale)) :
      Filed s o listed (s.catalogue.relist lid (.fixedPrice { sale with fixedPrice := p }))
  | bid {lid : ListingId} {auction : AuctionListing A} {n : Balance}
      (hget : s.listings.get? lid = some (.auction auction))
      (hhigh : bidHighEnough auction n (s.listingWinningBid.get? lid)) :
      Filed s o listed (s.catalogue.setBid lid (o, n))
  | lateBid {lid : ListingId} {auction : AuctionListing A} {n : Balance} (close : BlockNumber)
      (hget : s.listings.get? lid = some (.auction auction))
      (hhigh : bidHighEnough auction n (s.listingWinningBid.get? lid)) :
      Filed s o listed ((s.catalogue.setBid lid (o, n)).relist lid (.auction { auction with close := close }))
  | removed {lid : ListingId} {listing : Listing A} (hget : s.listings.get? lid = some listing)
      (hnobid : ∀ auction, listing = .auction auction → s.listingWinningBid.get? lid = none) :
      Filed s o listed (s.catalogue.release lid listing.bundle)
  | sold {lid : ListingId} {listing : Listing A} (hget : s.listings.get? lid = some listing) :
      Filed s o listed ((s.catalogue.release lid listing.bundle).dropBid lid)

theorem Filed.of_eq [Inhabited A] {s s' : State A} {o : A} {listed : List TokenId}
    (h : s'.catalogue = s.catalogue) : Filed s o listed s'.catalogue := h ▸ .same

section
variable [DecidableEq A]

def refund (assets : GenericAsset.State A) (aid : AssetId) : Option (A × Balance) → GenericAsset.State A
  | some bid => (GenericAsset.MultiCurrency.unreserve assets bid.1 aid bid.2).1
  | none => assets

inductive Trade (cfg : Config A) (s : State A) (o : A) :
    Call A → Book A → Prop
  | same {call : Call A} : Trade cfg s o call s.book
  | opened {call : Call A} {dur : BlockNumber} {listing : Listing A} {next : ListingId}
      (hduration : call.duration cfg = some dur)
      (hclose : listing.close = Word.saturatingAdd s.blockNumber dur)
      (hnext : s.nextListingId.toNat + 1 = next.toNat) (hdistinct : listing.bundle.tokens.Nodup) :
      Trade cfg s o call (s.book.publish listing next)
  | bought {lid : ListingId} {sale : FixedPriceListing A} {assets : GenericAsset.State A}
      (hget : s.listings.get? lid = some (.fixedPrice sale))
      (hpaid : payFixedPrice cfg s.assets o sale = .ok assets) :
      Trade cfg s o (.buy lid) ((((s.book.pay assets).unlist lid).dropBid lid).unschedule sale.close lid)
  | bid {lid : ListingId} {n : Balance} {auction : AuctionListing A}
      {assets : GenericAsset.State A} (hget : s.listings.get? lid = some (.auction auction))
      (hreserved : reserveFunds cfg s.assets o auction.paymentAsset n = .ok assets) :
      Trade cfg s o (.bid lid n)
        (((s.book.pay (refund assets auction.paymentAsset (s.listingWinningBid.get? lid))).setBid lid
          (o, n)).extend lid auction)
  | cancelled {lid : ListingId} {listing : Listing A} (hget : s.listings.get? lid = some listing)
      (hnobid : ∀ auction, listing = .auction auction → s.listingWinningBid.get? lid = none) :
      Trade cfg s o (.cancelSale lid) ((s.book.unlist lid).unschedule listing.close lid)
  | repriced {lid : ListingId} {sale : FixedPriceListing A} {p : Balance}
      (hget : s.listings.get? lid = some (.fixedPrice sale)) :
      Trade cfg s o (.updateFixedPrice lid p) (s.book.relist lid (.fixedPrice { sale with fixedPrice := p }))
  | offered {tokenId : TokenId} {n : Balance} {aid : AssetId} {marketplaceId : Option MarketplaceId}
      {next : OfferId} {assets : GenericAsset.State A}
      (hreserved : reserveFunds cfg s.assets o aid n = .ok assets)
      (hnext : s.nextOfferId.toNat + 1 = next.toNat) :
      Trade cfg s o (.makeSimpleOffer tokenId n aid marketplaceId)
        ((s.book.pay assets).offer ⟨tokenId, aid, n, o, marketplaceId⟩ next)
  | withdrawn {oid : OfferId} {offer : SimpleOffer A} {i : Nat}
      (hget : s.offers.get? oid = some (.simple offer)) (hbuyer : offer.buyer = o)
      (hindex : cfg.binarySearch (s.tokenOffers.getD offer.tokenId []) oid = some i) :
      Trade cfg s o (.cancelOffer oid)
        ((s.book.pay (GenericAsset.MultiCurrency.unreserve s.assets o offer.assetId offer.amount).1).strike oid
          offer.tokenId i)
  | accepted {oid : OfferId} {offer : SimpleOffer A} {i : Nat}
      {royalties : RoyaltiesSchedule A} {assets : GenericAsset.State A}
      (hget : s.offers.get? oid = some (.simple offer))
      (hroyalties : checkBundleRoyalties s ⟨offer.tokenId, []⟩ offer.marketplaceId = .ok royalties)
      (hpaid : payReserved cfg s.assets offer.buyer o offer.assetId offer.amount royalties = .ok assets)
      (hindex : cfg.binarySearch (s.tokenOffers.getD offer.tokenId []) oid = some i) :
      Trade cfg s o (.acceptOffer oid) ((s.book.pay assets).strike oid offer.tokenId i)

inductive Closure (cfg : Config A) (s : State A) (lid : ListingId) : Book A → Prop
  | absent (hget : s.listings.get? lid = none) : Closure cfg s lid s.book
  | unsold {listing : Listing A} (hget : s.listings.get? lid = some listing)
      (hnobid : ∀ auction, listing = .auction auction → s.listingWinningBid.get? lid = none) :
      Closure cfg s lid (s.book.unlist lid)
  | settled {auction : AuctionListing A} {winner : A} {p : Balance}
      {assets : GenericAsset.State A} (hget : s.listings.get? lid = some (.auction auction))
      (hbid : s.listingWinningBid.get? lid = some (winner, p))
      (hpaid : payReserved cfg s.assets winner auction.seller auction.paymentAsset p auction.royaltiesSchedule =
        .ok assets) :
      Closure cfg s lid (((s.book.pay assets).unlist lid).dropBid lid)
  | failed {auction : AuctionListing A} {winner : A} {p : Balance}
      (hget : s.listings.get? lid = some (.auction auction))
      (hbid : s.listingWinningBid.get? lid = some (winner, p)) :
      Closure cfg s lid
        (((s.book.pay (GenericAsset.MultiCurrency.unreserve s.assets winner auction.paymentAsset p).1).unlist
          lid).dropBid lid)

structure Traded [Inhabited A] (cfg : Config A) (s : State A) (o : A)
    (call : Call A) (s' : State A) : Prop where
  trade : Trade cfg s o call s'.book
  filed : Filed s o call.listed s'.catalogue
  tokens : s'.tokens = s.tokens

section
variable {cfg : Config A} {s s' : State A} {o dst : A}

variable {key : SeriesKey} {qty : TokenCount} {ns : List SerialNumber} {cid : CollectionId}
  {sid : SeriesId} {call : Call A} {n : Balance} {oid : OfferId} {lid : ListingId}

theorem decreaseBalance_market (h : decreaseBalance s o key qty = some s') : s'.market = s.market := by
  simp only [decreaseBalance, bind, Option.bind_eq_some_iff] at h
  obtain ⟨balance, -, h⟩ := h
  cases h
  rfl

theorem doTransferUnchecked_market : (doTransferUnchecked s key ns o dst).market = s.market := by
  unfold doTransferUnchecked moveBalance
  dsimp only
  cases h : decreaseBalance _ o key _ with
  | none => rfl
  | some s₁ =>
    have hk := decreaseBalance_market h
    exact hk

theorem doMint_market {first : SerialNumber} : (doMint s dst key first qty).market = s.market := by
  unfold doMint
  split <;> rfl

theorem mintSeries_market {owner : Option A} {scheme : MetadataScheme}
    {roy : Option (RoyaltiesSchedule A)}
    (h : doMintSeries s o cid qty owner scheme roy = .ok (s', sid)) :
    s'.market = s.market := by
  simp only [doMintSeries, bind_eq_ok, pure_eq_ok, Prod.mk.injEq] at h
  obtain ⟨-, -, next, -, _, -, -, -, hend, -⟩ := h
  exact (congrArg State.market hend).symm.trans doMint_market

theorem mintAdditional_market {owner : Option A}
    (h : mintAdditional s o cid sid qty owner = .ok s') : s'.market = s.market := by
  simp only [mintAdditional, bind_eq_ok, pure_eq_ok] at h
  obtain ⟨-, -, -, -, _, -, -, -, rfl⟩ := h
  exact doMint_market

theorem Trade.of_eq (h : s'.book = s.book) : Trade cfg s o call s'.book := by
  rw [h]
  exact Trade.same

theorem processPaymentAndTransfer_market {buyer seller : A} {asset : AssetId} {b : Bundle}
    {roy : RoyaltiesSchedule A}
    (h : processPaymentAndTransfer cfg s buyer seller asset b n roy = .ok s') :
    ∃ assets, payReserved cfg s.assets buyer seller asset n roy = .ok assets ∧
      s'.book = s.book.pay assets ∧ s'.catalogue = s.catalogue := by
  obtain ⟨assets, hp, rfl⟩ := processPaymentAndTransfer_eq_ok.mp h
  exact ⟨assets, hp, Prod.mk.inj doTransferUnchecked_market⟩

theorem removeOffer_book {A : Type} {cfg : Config A} {s s' : State A} {oid : OfferId}
    {tokenId : TokenId} (h : removeOffer cfg s oid tokenId = .ok s') :
    ∃ i, cfg.binarySearch (s.tokenOffers.getD tokenId []) oid = some i ∧
      s'.book = s.book.strike oid tokenId i ∧ s'.catalogue = s.catalogue ∧ s'.tokens = s.tokens := by
  simp only [removeOffer, bind_eq_ok, okOr_eq_ok, pure_eq_ok] at h
  obtain ⟨i, hix, rfl⟩ := h
  exact ⟨i, hix, rfl, rfl, rfl⟩

variable [Inhabited A]

theorem closeListing_closed (cfg : Config A) (s : State A) (lid : ListingId) (o : A)
    (listed : List TokenId) : Closure cfg s lid (closeListing cfg s lid).book ∧
      Filed s o listed (closeListing cfg s lid).catalogue := by
  unfold closeListing
  split
  · rename_i sale hsa
    exact ⟨.unsold hsa nofun, .removed hsa nofun⟩
  · rename_i au hau
    dsimp only
    split
    · rename_i winner p hbid
      split
      · rename_i s₁ hse
        obtain ⟨assets, hp, hbo, hca⟩ := processPaymentAndTransfer_market hse
        rw [hbo, hca]
        exact ⟨.settled hau hbid hp, .sold hau⟩
      · exact ⟨.failed hau hbid, .sold hau⟩
    · rename_i hno
      exact ⟨.unsold hau fun _ _ => hno, .removed hau fun _ _ => hno⟩
  · rename_i hn
    exact ⟨.absent hn, .same⟩

theorem buy_trade (h : buy cfg s o lid = .ok s') : Trade cfg s o (.buy lid) s'.book ∧ Filed s o [] s'.catalogue := by
  unfold buy at h
  split at h
  · rename_i sale hsa
    simp only [bind_eq_ok, ensure_eq_ok, pure_eq_ok] at h
    obtain ⟨-, -, assets, hp, rfl⟩ := h
    have htr := Trade.bought hsa hp
    generalize hmo : doTransferUnchecked _ _ _ sale.seller o = s₁
    have hma : s₁.market =
        (s.book.pay assets, { s.catalogue.release lid sale.bundle with listings := s.listings }) := by
      rw [← hmo, doTransferUnchecked_market]
      rfl
    obtain ⟨hbo, hca⟩ := Prod.mk.inj hma
    have hli : s₁.listings.get? lid = some (.fixedPrice sale) := (congrArg (fun b => b.listings.get? lid) hbo).trans hsa
    have hre : (removeFixedPriceListing s₁ lid).market = (((s₁.book.unlist lid).dropBid lid).unschedule sale.close lid,
          { s₁.catalogue.dropBid lid with listings := s₁.catalogue.listings.remove lid }) := by
      simp only [removeFixedPriceListing, hli]
      rfl
    rw [hbo, hca] at hre
    obtain ⟨hbo', hca'⟩ := Prod.mk.inj hre
    rw [hbo', hca']
    exact ⟨htr, .sold hsa⟩
  · cases h

theorem bid_traded (h : bid cfg s o lid n = .ok s') : Traded cfg s o (.bid lid n) s' := by
  unfold bid at h
  split at h
  · rename_i au hau
    simp only [bind_eq_ok, ensure_eq_ok] at h
    obtain ⟨-, hhi, assets, hre, hend⟩ := h
    have htr := Trade.bid hau hre
    split_ifs at hend with hla
    · cases hend
      have hex : (((s.book.pay (refund assets au.paymentAsset (s.listingWinningBid.get? lid))).setBid
          lid (o, n)).extend lid au) = Book.postpone _ lid au _ := if_pos hla
      rw [hex] at htr
      exact ⟨htr, .lateBid _ hau hhi, rfl⟩
    · cases hend
      have hk : (((s.book.pay (refund assets au.paymentAsset (s.listingWinningBid.get? lid))).setBid
          lid (o, n)).extend lid au) = _ := if_neg hla
      rw [hk] at htr
      exact ⟨htr, .bid hau hhi, rfl⟩
  · cases h

theorem cancelSale_traded (h : cancelSale s o lid = .ok s') : Traded cfg s o (.cancelSale lid) s' := by
  unfold cancelSale at h
  split at h
  · rename_i sale hsa
    simp only [bind_eq_ok, ensure_eq_ok, pure_eq_ok] at h
    obtain ⟨-, -, rfl⟩ := h
    exact ⟨.cancelled hsa (fun _ h => by cases h), .removed hsa (fun _ h => by cases h), rfl⟩
  · rename_i au hau
    simp only [bind_eq_ok, ensure_eq_ok, pure_eq_ok, StorageMap.not_contains_iff] at h
    obtain ⟨-, -, -, hno, rfl⟩ := h
    exact ⟨.cancelled hau fun _ _ => hno, .removed hau fun _ _ => hno, rfl⟩
  · cases h
    exact ⟨.same, .same, rfl⟩

theorem updateFixedPrice_traded {p : Balance} (h : updateFixedPrice s o lid p = .ok s') :
    Traded cfg s o (.updateFixedPrice lid p) s' := by
  unfold updateFixedPrice at h
  split at h
  · rename_i sale hsa
    simp only [bind_eq_ok, ensure_eq_ok, pure_eq_ok] at h
    obtain ⟨-, -, rfl⟩ := h
    exact ⟨.repriced hsa, .repriced p hsa, rfl⟩
  · cases h

theorem cancelOffer_traded (h : cancelOffer cfg s o oid = .ok s') : Traded cfg s o (.cancelOffer oid) s' := by
  unfold cancelOffer at h
  split at h
  · rename_i offer hof
    simp only [bind_eq_ok, ensure_eq_ok] at h
    obtain ⟨-, hbu, hend⟩ := h
    obtain ⟨i, hix, hbo, hca, htok⟩ := removeOffer_book hend
    refine ⟨?_, .of_eq hca, htok⟩
    rw [hbo]
    exact .withdrawn hof hbu hix
  · cases h

theorem makeSimpleOffer_traded {tokenId : TokenId} {a : AssetId} {mid : Option MarketplaceId}
    (h : makeSimpleOffer cfg s o tokenId n a mid = .ok s') :
    Traded cfg s o (.makeSimpleOffer tokenId n a mid) s' := by
  simp only [makeSimpleOffer, bind_eq_ok, okOr_eq_ok, Word.checkedAdd_eq_some, pure_eq_ok] at h
  obtain ⟨-, -, -, -, next, hx, -, -, assets, hre, rfl⟩ := h
  exact ⟨.offered hre hx, .same, rfl⟩

theorem acceptOffer_trade (h : acceptOffer cfg s o oid = .ok s') :
    Trade cfg s o (.acceptOffer oid) s'.book ∧ s'.catalogue = s.catalogue := by
  unfold acceptOffer at h
  split at h
  · rename_i offer hof
    simp only [bind_eq_ok, ensure_eq_ok] at h
    obtain ⟨-, -, roy, hro, s₁, hse, hend⟩ := h
    obtain ⟨assets, hp, hbo, hca⟩ := processPaymentAndTransfer_market hse
    obtain ⟨i, hix, hst, hk, -⟩ := removeOffer_book hend
    have hto : s₁.tokenOffers = s.tokenOffers := congrArg Book.tokenOffers hbo
    rw [hto] at hix
    refine ⟨?_, hk.trans hca⟩
    rw [hst, hbo]
    exact Trade.accepted hof hro hp hix
  · cases h

/-! ### New listings -/

theorem lockTokens_market {tokens : List TokenId} (h : lockTokens o lid s tokens = .ok s') :
    tokens.Nodup ∧ s'.book = s.book ∧ s'.tokens = s.tokens ∧
      s'.catalogue = { s.catalogue with locks := s.tokenLocks.insertAll tokens (.listed lid) } := by
  induction tokens generalizing s with
  | nil =>
    cases h
    exact ⟨List.nodup_nil, rfl, rfl, rfl⟩
  | cons t rest ih =>
    simp only [lockTokens, bind_eq_ok] at h
    obtain ⟨-, -, hr⟩ := h
    obtain ⟨hno, hk⟩ := ih hr
    refine ⟨List.nodup_cons.mpr ⟨fun hin => ?_, hno⟩, hk⟩
    have hf := ((lockTokens_inv hr).1 t hin).1
    rw [StorageMap.get?_insert_self] at hf
    cases hf

theorem openListing_traded {tokens : List TokenId} {dur : Option BlockNumber}
    {mid : Option MarketplaceId}
    {li : Bundle → BlockNumber → RoyaltiesSchedule A → Listing A} (call : Call A)
    (hdu : call.duration cfg = some (dur.getD cfg.defaultListingDuration)) (hli : call.listed = tokens)
    (h : openListing cfg s o tokens dur mid li = .ok s')
    (hls : ∀ b close roy, (li b close roy).close = close ∧ (li b close roy).bundle = b ∧ (li b close roy).seller = o) :
    Traded cfg s o call s' := by
  unfold openListing at h
  split at h
  · cases h
  rename_i first rest
  simp only [bind_eq_ok, okOr_eq_ok, Word.checkedAdd_eq_some, pure_eq_ok] at h
  obtain ⟨roy, -, next, hx, s₁, hlo, hend⟩ := h
  obtain ⟨hno, hbo, htok, hca⟩ := lockTokens_market hlo
  have hnow : s₁.blockNumber = s.blockNumber := congrArg Book.now hbo
  rw [hnow] at hend
  obtain ⟨hcl, hbu, hse⟩ := hls ⟨first, rest⟩
    (Word.saturatingAdd s.blockNumber (dur.getD cfg.defaultListingDuration)) roy
  generalize li ⟨first, rest⟩ _ roy = l at hend hcl hbu hse
  have hli' : l.bundle.tokens = first :: rest := congrArg Bundle.tokens hbu
  refine ⟨?_, ?_, (congrArg State.tokens hend).symm.trans htok⟩
  · have hpu : s'.book = s.book.publish l next := by
      have hwr : s'.book = { s₁.book with
          now := s.blockNumber
          listings := s₁.book.listings.insert s.nextListingId l
          schedule := s₁.book.schedule.insert (l.close, s.nextListingId) true
          nextListing := next } := by
        rw [hcl]
        exact (congrArg State.book hend).symm
      rw [hwr, hbo]
      rfl
    rw [hpu]
    exact Trade.opened hdu hcl hx (hli' ▸ hno)
  · have hpu : s'.catalogue = s.catalogue.publish l next := by
      have hwr : s'.catalogue = { s₁.catalogue with
          listings := s₁.catalogue.listings.insert s.nextListingId l
          openListings := s₁.catalogue.openListings.insert (first.1, s.nextListingId) true
          nextListing := next } := (congrArg State.catalogue hend).symm
      rw [hwr, hca]
      unfold Catalogue.publish
      rw [hbu]
      rfl
    rw [hpu]
    exact Filed.published hse (hli'.trans hli.symm) hx (hli ▸ (lockTokens_inv hlo).1)

/-! ### All calls -/

def Call.administers : Call A → Bool
  | .migrateToMetadataScheme .. | .setOwner .. | .setSeriesName .. | .registerMarketplace .. | .createCollection .. => true
  | _ => false

theorem dispatch_administers (hc : call.administers = true) (h : dispatch cfg s o call = .ok s') :
    s'.market = s.market ∧ s'.tokens = s.tokens := by
  cases call with
  | migrateToMetadataScheme =>
    simp only [dispatch, migrateToMetadataScheme, bind_eq_ok, pure_eq_ok] at h
    obtain ⟨-, -, -, -, _, -, rfl⟩ := h
    exact ⟨rfl, rfl⟩
  | setOwner =>
    simp only [dispatch, setOwner, bind_eq_ok, pure_eq_ok] at h
    obtain ⟨-, -, rfl⟩ := h
    exact ⟨rfl, rfl⟩
  | setSeriesName =>
    simp only [dispatch, setSeriesName, bind_eq_ok, pure_eq_ok] at h
    obtain ⟨-, -, -, -, -, -, -, -, rfl⟩ := h
    exact ⟨rfl, rfl⟩
  | registerMarketplace =>
    simp only [dispatch, registerMarketplace, bind_eq_ok, pure_eq_ok] at h
    obtain ⟨-, -, _, -, rfl⟩ := h
    exact ⟨rfl, rfl⟩
  | createCollection =>
    simp only [dispatch, createCollection, bind_eq_ok, pure_eq_ok] at h
    obtain ⟨-, -, _, -, -, -, rfl⟩ := h
    exact ⟨rfl, rfl⟩
  | _ => cases hc

theorem burnTokens_market (h : burnTokens o key s ns = .ok s') : s'.market = s.market := by
  induction ns generalizing s with
  | nil =>
    cases h
    rfl
  | cons n rest ih =>
    simp only [burnTokens, bind_eq_ok] at h
    obtain ⟨-, -, hr⟩ := h
    have hk := ih hr
    exact hk

theorem transferBatch_market (h : transferBatch s o cid sid ns dst = .ok s') : s'.market = s.market := by
  simp only [transferBatch, bind_eq_ok, ensure_eq_ok, pure_eq_ok] at h
  obtain ⟨-, -, -, -, rfl⟩ := h
  exact doTransferUnchecked_market

theorem burnBatch_market (h : burnBatch s o cid sid ns = .ok s') : s'.market = s.market := by
  simp only [burnBatch, bind_eq_ok, ensure_eq_ok, okOr_eq_ok] at h
  obtain ⟨-, -, s₁, hbu, s₂, hco, hend⟩ := h
  have hk : s'.market = s₂.market := by
    split at hend <;> cases hend <;> rfl
  rw [hk, decreaseBalance_market hco, burnTokens_market hbu]

theorem updateTokenBalance_kept (h : updateTokenBalance s cid sid = .ok s') :
    s'.market = s.market ∧ s'.records = s.records := by
  simp only [updateTokenBalance, bind_eq_ok, pure_eq_ok] at h
  obtain ⟨-, -, -, -, -, -, rfl⟩ := h
  exact ⟨rfl, rfl⟩

def Call.leavesTokens : Call A → Bool
  | .mintSeries .. | .mintAdditional .. | .transfer .. | .transferBatch .. | .burn .. | .burnBatch .. => false
  | .buy .. | .acceptOffer .. | .updateTokenBalance .. => false
  | _ => true

theorem dispatch_traded (hc : call.leavesTokens = true) (h : dispatch cfg s o call = .ok s') :
    Traded cfg s o call s' := by
  cases call with
  | migrateToMetadataScheme | setOwner | setSeriesName | registerMarketplace | createCollection =>
    obtain ⟨hma, htok⟩ := dispatch_administers rfl h
    exact ⟨.of_eq (congrArg Prod.fst hma), .of_eq (congrArg Prod.snd hma), htok⟩
  | sell | sellBundle =>
    unfold dispatch sellBundle at h
    exact openListing_traded _ rfl rfl h fun _ _ _ => ⟨rfl, rfl, rfl⟩
  | auction | auctionBundle =>
    unfold dispatch auctionBundle at h
    exact openListing_traded _ rfl rfl h fun _ _ _ => ⟨rfl, rfl, rfl⟩
  | bid => exact bid_traded h
  | cancelSale => exact cancelSale_traded h
  | updateFixedPrice => exact updateFixedPrice_traded h
  | makeSimpleOffer => exact makeSimpleOffer_traded h
  | cancelOffer => exact cancelOffer_traded h
  | _ => cases hc

theorem dispatch_market (hc : call.leavesTokens = false) (hbuy : ∀ id, call ≠ .buy id)
    (hac : ∀ id, call ≠ .acceptOffer id) (h : dispatch cfg s o call = .ok s') : s'.market = s.market := by
  cases call with
  | mintSeries =>
    obtain ⟨⟨s₁, sid⟩, hmi, rfl⟩ := Result.map_eq_ok.mp h
    exact mintSeries_market hmi
  | mintAdditional => exact mintAdditional_market h
  | transfer | transferBatch => exact transferBatch_market h
  | burn | burnBatch => exact burnBatch_market h
  | updateTokenBalance => exact (updateTokenBalance_kept h).1
  | buy => exact absurd rfl (hbuy _)
  | acceptOffer => exact absurd rfl (hac _)
  | _ => cases hc

theorem dispatch_trade_filed (h : dispatch cfg s o call = .ok s') :
    Trade cfg s o call s'.book ∧ Filed s o call.listed s'.catalogue := by
  cases hc : call.leavesTokens with
  | true =>
    have htr := dispatch_traded hc h
    exact ⟨htr.trade, htr.filed⟩
  | false =>
    by_cases hbuy : ∃ id, call = .buy id
    · obtain ⟨id, rfl⟩ := hbuy
      exact buy_trade h
    · by_cases hac : ∃ id, call = .acceptOffer id
      · obtain ⟨id, rfl⟩ := hac
        exact (acceptOffer_trade h).imp_right .of_eq
      · have hma := dispatch_market hc (fun id heq => hbuy ⟨id, heq⟩) (fun id heq => hac ⟨id, heq⟩) h
        exact ⟨.of_eq (congrArg Prod.fst hma), .of_eq (congrArg Prod.snd hma)⟩

end

end

end Nft
