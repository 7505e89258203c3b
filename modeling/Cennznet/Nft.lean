import Cennznet.Nft.Types

/-! # The NFT pallet

`crml/nft`: collections of series of tokens, fixed-price sales, auctions and offers. Unchecked `+` and `-` wrap around.
A `#[transactional]` function that fails leaves no trace, and the others make their checks before their writes, so a
failed call changes nothing. Events and weights are left out. -/

namespace Nft

open GenericAsset (AssetId Balance)
open Result

variable {AccountId : Type}

/-! ### Collections -/

def ensureNameValid (name : List UInt8) : Except Error Unit := do
  ensure (name ≠ [] ∧ name.length ≤ maxCollectionNameLength) .collectionNameInvalid
  ensure ((fromUtf8 name).isSome = true) .collectionNameInvalid

section
variable [DecidableEq AccountId]

section
variable (s : State AccountId)

def ensureCollectionOwner (collectionId : CollectionId) (origin : AccountId) : Except Error Unit := do
  let owner ← okOr (s.collectionOwner.get? collectionId) .noCollection
  ensure (owner = origin) .noPermission

def migrateToMetadataScheme (origin : AccountId) (collectionId : CollectionId) (seriesId : SeriesId)
    (scheme : MetadataScheme) : Except Error (State AccountId) := do
  ensureCollectionOwner s collectionId origin
  ensure (s.seriesMetadataScheme.get? (collectionId, seriesId) = none) .noPermission
  let sanitizedScheme ← okOr scheme.sanitize .invalidMetadataPath
  return { s with
    seriesMetadataScheme := s.seriesMetadataScheme.insert (collectionId, seriesId) sanitizedScheme }

def setOwner (origin : AccountId) (collectionId : CollectionId) (newOwner : AccountId) :
    Except Error (State AccountId) := do
  ensureCollectionOwner s collectionId origin
  return { s with collectionOwner := s.collectionOwner.insert collectionId newOwner }

def setSeriesName (origin : AccountId) (collectionId : CollectionId) (seriesId : SeriesId) (name : List UInt8) :
    Except Error (State AccountId) := do
  ensureCollectionOwner s collectionId origin
  ensure (s.seriesMetadataScheme.contains (collectionId, seriesId) = true) .noSeries
  ensure (s.seriesName.contains (collectionId, seriesId) = false) .nameAlreadySet
  ensureNameValid name
  return { s with seriesName := s.seriesName.insert (collectionId, seriesId) name }

def registerMarketplace (origin : AccountId) (marketplaceAccount : Option AccountId) (entitlement : Permill) :
    Except Error (State AccountId) := do
  ensure (entitlement.toNat ≤ permillAccuracy) .royaltiesInvalid
  let nextMarketplaceId ← okOr (Word.checkedAdd s.nextMarketplaceId 1) .noAvailableIds
  let marketplace := ⟨marketplaceAccount.getD origin, entitlement⟩
  return { s with
    registeredMarketplaces := s.registeredMarketplaces.insert s.nextMarketplaceId marketplace
    nextMarketplaceId := nextMarketplaceId }

def createCollection (origin : AccountId) (name : List UInt8)
    (royaltiesSchedule : Option (RoyaltiesSchedule AccountId)) : Except Error (State AccountId) := do
  ensureNameValid name
  let collectionId := s.nextCollectionId
  let nextCollectionId ← okOr (Word.checkedAdd collectionId 1) .noAvailableIds
  ensure (royaltiesSchedule.all RoyaltiesSchedule.validate = true) .royaltiesInvalid
  return { s with
    collectionRoyalties := royaltiesSchedule.elim s.collectionRoyalties (s.collectionRoyalties.insert collectionId)
    collectionOwner := s.collectionOwner.insert collectionId origin
    collectionName := s.collectionName.insert collectionId name
    nextCollectionId := nextCollectionId }

/-! ### Token counts -/

def increaseBalance (who : AccountId) (key : SeriesKey) (quantity : TokenCount) : State AccountId :=
  let balances := s.tokenBalance.getD who ∅
  { s with tokenBalance := s.tokenBalance.insert who (balances.insert key (balances.getD key 0 + quantity)) }

/-- Takes `quantity` off the count of `who`, if there is one. A count of zero is dropped. -/
def decreaseBalance (who : AccountId) (key : SeriesKey) (quantity : TokenCount) : Option (State AccountId) := do
  let balances := s.tokenBalance.getD who ∅
  let newBalance := Word.saturatingSub (← balances.get? key) quantity
  let balances := if newBalance = 0 then balances.remove key else balances.insert key newBalance
  return { s with tokenBalance := s.tokenBalance.insert who balances }

/-- Moves a count between accounts. Where `currentOwner` has none nothing is taken. -/
def moveBalance (currentOwner newOwner : AccountId) (key : SeriesKey) (quantity : TokenCount) : State AccountId :=
  increaseBalance ((decreaseBalance s currentOwner key quantity).getD s) newOwner key quantity

/-! ### Minting -/

def serialRange (first last : SerialNumber) : List SerialNumber :=
  (List.range' first.toNat (last.toNat - first.toNat)).map (BitVec.ofNat 32)

def setTokenOwners (m : StorageMap (SeriesKey × SerialNumber) AccountId) (key : SeriesKey) (owner : AccountId)
    (serialNumbers : List SerialNumber) : StorageMap (SeriesKey × SerialNumber) AccountId :=
  m.insertAll (serialNumbers.map fun serialNumber => (key, serialNumber)) owner

def doMint (owner : AccountId) (key : SeriesKey) (serialNumber : SerialNumber) (quantity : TokenCount) :
    State AccountId :=
  let s :=
    if 0 < quantity.toNat then
      let tokenOwner := setTokenOwners s.tokenOwner key owner (serialRange serialNumber (serialNumber + quantity))
      let s := increaseBalance { s with tokenOwner := tokenOwner } owner key quantity
      let next := Word.saturatingAdd (s.nextSerialNumber.getD key 0) quantity
      { s with nextSerialNumber := s.nextSerialNumber.insert key next }
    else { s with nextSerialNumber := s.nextSerialNumber.insert key 0 }
  let issuance := Word.saturatingAdd (s.seriesIssuance.getD key 0) quantity
  { s with seriesIssuance := s.seriesIssuance.insert key issuance }

def doMintSeries (origin : AccountId) (collectionId : CollectionId) (quantity : TokenCount) (owner : Option AccountId)
    (metadataScheme : MetadataScheme) (royaltiesSchedule : Option (RoyaltiesSchedule AccountId)) :
    Except Error (State AccountId × SeriesId) := do
  ensureCollectionOwner s collectionId origin
  let seriesId := s.nextSeriesId.getD collectionId 0
  let nextSeriesId ← okOr (Word.checkedAdd seriesId 1) .noAvailableIds
  let metadataScheme ← okOr metadataScheme.sanitize .invalidMetadataPath
  ensure (royaltiesSchedule.all RoyaltiesSchedule.validate = true) .royaltiesInvalid
  let key := (collectionId, seriesId)
  let s := { s with
    seriesMetadataScheme := s.seriesMetadataScheme.insert key metadataScheme
    seriesRoyalties := royaltiesSchedule.elim s.seriesRoyalties (s.seriesRoyalties.insert key) }
  let s := doMint s (owner.getD origin) key 0 quantity
  return ({ s with nextSeriesId := s.nextSeriesId.insert collectionId nextSeriesId }, seriesId)

def mintAdditional (origin : AccountId) (collectionId : CollectionId) (seriesId : SeriesId) (quantity : TokenCount)
    (owner : Option AccountId) : Except Error (State AccountId) := do
  ensure (0 < quantity.toNat) .noToken
  ensureCollectionOwner s collectionId origin
  let serialNumber ← okOr (s.nextSerialNumber.get? (collectionId, seriesId)) .noToken
  ensure ((Word.checkedAdd serialNumber quantity).isSome = true) .noAvailableIds
  return doMint s (owner.getD origin) (collectionId, seriesId) serialNumber quantity

/-! ### Transfers and burns -/

def doTransferUnchecked (key : SeriesKey) (serialNumbers : List SerialNumber) (currentOwner newOwner : AccountId) :
    State AccountId :=
  let s := { s with
    tokenOwner := setTokenOwners s.tokenOwner key newOwner serialNumbers
    nftTransfers := s.nftTransfers ++ serialNumbers.map fun serialNumber => (key.1, key.2, serialNumber) }
  moveBalance s currentOwner newOwner key (BitVec.ofNat 32 serialNumbers.length)

end

variable [Inhabited AccountId]

variable (cfg : Config AccountId) (s : State AccountId)

/-- The owner of a token; the default account stands for none. -/
def State.ownerOf (t : TokenId) : AccountId := s.tokenOwner.getD ((t.1, t.2.1), t.2.2) default

def ensureMovable (origin : AccountId) (t : TokenId) : Except Error Unit := do
  ensure (s.tokenLocks.contains t = false) .tokenListingProtection
  ensure (s.ownerOf t = origin) .noPermission

def ensureAllMovable (s : State AccountId) (origin : AccountId) (key : SeriesKey) :
    List SerialNumber → Except Error Unit
  | [] => .ok ()
  | serialNumber :: rest => do
    ensureMovable s origin (key.1, key.2, serialNumber)
    ensureAllMovable s origin key rest

def transferBatch (origin : AccountId) (collectionId : CollectionId) (seriesId : SeriesId)
    (serialNumbers : List SerialNumber) (newOwner : AccountId) : Except Error (State AccountId) := do
  ensure (serialNumbers ≠ []) .noToken
  ensureAllMovable s origin (collectionId, seriesId) serialNumbers
  return doTransferUnchecked s (collectionId, seriesId) serialNumbers origin newOwner

/-- Removes the tokens one by one, so a repeated serial number fails. -/
def burnTokens (origin : AccountId) (key : SeriesKey) :
    State AccountId → List SerialNumber → Except Error (State AccountId)
  | s, [] => .ok s
  | s, serialNumber :: rest => do
    ensureMovable s origin (key.1, key.2, serialNumber)
    burnTokens origin key { s with tokenOwner := s.tokenOwner.remove (key, serialNumber) } rest

def burnBatch (origin : AccountId) (collectionId : CollectionId) (seriesId : SeriesId)
    (serialNumbers : List SerialNumber) : Except Error (State AccountId) := do
  ensure (serialNumbers ≠ []) .noToken
  let key := (collectionId, seriesId)
  let s ← burnTokens origin key s serialNumbers
  let quantity := BitVec.ofNat 32 serialNumbers.length
  let s ← okOr (decreaseBalance s origin key quantity) .noToken
  let issuance := Word.saturatingSub (s.seriesIssuance.getD key 0) quantity
  if issuance = 0 then
    return { s with
      seriesIssuance := s.seriesIssuance.remove key
      seriesMetadataScheme := s.seriesMetadataScheme.remove key
      seriesRoyalties := s.seriesRoyalties.remove key }
  else return { s with seriesIssuance := s.seriesIssuance.insert key issuance }

/-! ### Listing -/

/-- The first token stands for the bundle: all are of its collection, and one of another series has no royalties of its
own. -/
def ensureBundleToken (first t : TokenId) : Except Error Unit := do
  ensure (t.1 = first.1) .mixedBundleSale
  ensure (t.2.1 = first.2.1 ∨ s.seriesRoyalties.contains (t.1, t.2.1) = false) .royaltiesProtection

def checkBundleRoyalties (bundle : Bundle) (marketplaceId : Option MarketplaceId) :
    Except Error (RoyaltiesSchedule AccountId) := do
  bundle.tokens.forM (ensureBundleToken s bundle.first)
  let (collectionId, seriesId, _) := bundle.first
  let royalties := (s.seriesRoyalties.get? (collectionId, seriesId)).getD (s.collectionRoyalties.getD collectionId {})
  match marketplaceId with
  | none => return royalties
  | some marketplaceId =>
    let marketplace ← okOr (s.registeredMarketplaces.get? marketplaceId) .marketplaceNotRegistered
    let entitlements := royalties.entitlements ++ [(marketplace.account, marketplace.entitlement)]
    let royalties : RoyaltiesSchedule AccountId := { entitlements := entitlements }
    ensure (royalties.validate = true) .royaltiesInvalid
    return royalties

/-- Locks the tokens one by one, so a repeated token fails. -/
def lockTokens (origin : AccountId) (listingId : ListingId) :
    State AccountId → List TokenId → Except Error (State AccountId)
  | s, [] => .ok s
  | s, t :: rest => do
    ensureMovable s origin t
    lockTokens origin listingId { s with tokenLocks := s.tokenLocks.insert t (.listed listingId) } rest

/-- What `sell_bundle` and `auction_bundle` share: checks, locks and records of a new listing, which `listing` makes
from the bundle, the closing block and the royalties. -/
def openListing (origin : AccountId) (tokens : List TokenId) (duration : Option BlockNumber)
    (marketplaceId : Option MarketplaceId)
    (listing : Bundle → BlockNumber → RoyaltiesSchedule AccountId → Listing AccountId) :
    Except Error (State AccountId) :=
  match tokens with
  | [] => .error .noToken
  | first :: rest => do
    let bundle := ⟨first, rest⟩
    let royaltiesSchedule ← checkBundleRoyalties s bundle marketplaceId
    let listingId := s.nextListingId
    let nextListingId ← okOr (Word.checkedAdd listingId 1) .noAvailableIds
    let s ← lockTokens origin listingId s bundle.tokens
    let listingEndBlock := Word.saturatingAdd s.blockNumber (duration.getD cfg.defaultListingDuration)
    return { s with
      listingEndSchedule := s.listingEndSchedule.insert (listingEndBlock, listingId) true
      openCollectionListings := s.openCollectionListings.insert (first.1, listingId) true
      listings := s.listings.insert listingId (listing bundle listingEndBlock royaltiesSchedule)
      nextListingId := nextListingId }

def sellBundle (origin : AccountId) (tokens : List TokenId) (buyer : Option AccountId) (paymentAsset : AssetId)
    (fixedPrice : Balance) (duration : Option BlockNumber) (marketplaceId : Option MarketplaceId) :
    Except Error (State AccountId) :=
  openListing cfg s origin tokens duration marketplaceId fun bundle listingEndBlock royaltiesSchedule =>
    .fixedPrice {
      paymentAsset := paymentAsset
      fixedPrice := fixedPrice
      close := listingEndBlock
      bundle := bundle
      buyer := buyer
      seller := origin
      royaltiesSchedule := royaltiesSchedule
      marketplaceId := marketplaceId }

def auctionBundle (origin : AccountId) (tokens : List TokenId) (paymentAsset : AssetId) (reservePrice : Balance)
    (duration : Option BlockNumber) (marketplaceId : Option MarketplaceId) : Except Error (State AccountId) :=
  openListing cfg s origin tokens duration marketplaceId fun bundle listingEndBlock royaltiesSchedule =>
    .auction {
      paymentAsset := paymentAsset
      reservePrice := reservePrice
      close := listingEndBlock
      bundle := bundle
      seller := origin
      royaltiesSchedule := royaltiesSchedule
      marketplaceId := marketplaceId }

/-! ### Payment -/

/-- Pays the beneficiaries their shares of `price`; returns what is left of the withdrawn money and the seller's share.
-/
def payRoyalties (cfg : Config AccountId) (paymentAsset : AssetId) (price : Balance) :
    GenericAsset.State AccountId → GenericAsset.NegativeImbalance → Balance → List (AccountId × Permill) →
      Except Error (GenericAsset.State AccountId × GenericAsset.NegativeImbalance × Balance)
  | assets, imbalance, forSeller, [] => .ok (assets, imbalance, forSeller)
  | assets, imbalance, forSeller, (who, entitlement) :: rest =>
    let royalty := cfg.permillMul entitlement price
    let (assets, deposit) := GenericAsset.MultiCurrency.depositIntoExisting assets who paymentAsset royalty
    match imbalance.offset deposit with
    | .same value => payRoyalties cfg paymentAsset price assets value (forSeller - royalty) rest
    | .other _ | .none => .error .internalPayment

def payFixedPrice (assets : GenericAsset.State AccountId) (buyer : AccountId) (listing : FixedPriceListing AccountId) :
    Except Error (GenericAsset.State AccountId) :=
  if listing.royaltiesSchedule.calculateTotalEntitlement = 0 then
    (GenericAsset.MultiCurrency.transfer cfg.assets assets buyer listing.seller listing.paymentAsset
      listing.fixedPrice).mapError .currency
  else do
    let (assets, imbalance) ←
      (GenericAsset.MultiCurrency.withdraw assets buyer listing.paymentAsset listing.fixedPrice .transfer).mapError
        .currency
    let (assets, imbalance, forSeller) ←
      payRoyalties cfg listing.paymentAsset listing.fixedPrice assets imbalance listing.fixedPrice
        listing.royaltiesSchedule.entitlements
    let (assets, deposit) :=
      GenericAsset.MultiCurrency.depositIntoExisting assets listing.seller listing.paymentAsset forSeller
    match imbalance.offset deposit with
    | .same rest => .ok (GenericAsset.dropNegative assets rest)
    | .other _ | .none => .error .internalPayment

/-- Pays the beneficiaries their shares of `amount` from the reserved balance of the buyer; returns the seller's share.
-/
def repatriateRoyalties (cfg : Config AccountId) (buyer : AccountId) (assetId : AssetId) (amount : Balance) :
    GenericAsset.State AccountId → Balance → List (AccountId × Permill) → GenericAsset.State AccountId × Balance
  | assets, forSeller, [] => (assets, forSeller)
  | assets, forSeller, (who, entitlement) :: rest =>
    let royalty := cfg.permillMul entitlement amount
    let (assets, _) := GenericAsset.MultiCurrency.repatriateReserved assets buyer assetId who royalty
    repatriateRoyalties cfg buyer assetId amount assets (forSeller - royalty) rest

def payReserved (assets : GenericAsset.State AccountId) (buyer seller : AccountId) (assetId : AssetId)
    (amount : Balance) (royaltiesSchedule : RoyaltiesSchedule AccountId) :
    Except Error (GenericAsset.State AccountId) := do
  let forRoyalties := cfg.permillMul royaltiesSchedule.calculateTotalEntitlement amount
  let (assets, forSeller) :=
    if forRoyalties = 0 then (assets, amount)
    else repatriateRoyalties cfg buyer assetId amount assets amount royaltiesSchedule.entitlements
  let sellerBalance := assets.free assetId seller
  let (assets, _) := GenericAsset.MultiCurrency.repatriateReserved assets buyer assetId seller forSeller
  -- the ledger may move less than was asked for
  ensure ((Word.saturatingAdd sellerBalance forSeller).toNat ≤ (assets.free assetId seller).toNat) .internalPayment
  return assets

/-! ### Settlement -/

/-- Settles an auction or an accepted offer. The tokens that move have the series of the first token and the serial
numbers of all. -/
def processPaymentAndTransfer (buyer seller : AccountId) (assetId : AssetId) (bundle : Bundle) (amount : Balance)
    (royaltiesSchedule : RoyaltiesSchedule AccountId) :
    Except Error (State AccountId) := do
  let assets ← payReserved cfg s.assets buyer seller assetId amount royaltiesSchedule
  let (collectionId, seriesId, _) := bundle.first
  let serialNumbers := bundle.tokens.map fun t => t.2.2
  return doTransferUnchecked { s with assets := assets } (collectionId, seriesId) serialNumbers seller buyer

def removeFixedPriceListing (listingId : ListingId) : State AccountId :=
  let listingEndSchedule :=
    match s.listings.get? listingId with
    | some (.fixedPrice listing) => s.listingEndSchedule.remove (listing.close, listingId)
    | _ => s.listingEndSchedule
  { s with
    listings := s.listings.remove listingId
    listingWinningBid := s.listingWinningBid.remove listingId
    listingEndSchedule := listingEndSchedule }

def buy (origin : AccountId) (listingId : ListingId) : Except Error (State AccountId) :=
  match s.listings.get? listingId with
  | some (.fixedPrice listing) => do
    ensure (listing.buyer.all (origin = ·) = true) .noPermission
    let (collectionId, seriesId, _) := listing.bundle.first
    let assets ← payFixedPrice cfg s.assets origin listing
    let serialNumbers := listing.bundle.tokens.map fun t => t.2.2
    let s := { s with
      assets := assets
      tokenLocks := s.tokenLocks.removeAll listing.bundle.tokens
      openCollectionListings := s.openCollectionListings.remove (collectionId, listingId) }
    let s := doTransferUnchecked s (collectionId, seriesId) serialNumbers listing.seller origin
    return removeFixedPriceListing s listingId
  | _ => .error .notForFixedPriceSale

def releaseListing (listingId : ListingId) (bundle : Bundle) : State AccountId :=
  { s with
    listings := s.listings.remove listingId
    tokenLocks := s.tokenLocks.removeAll bundle.tokens
    openCollectionListings := s.openCollectionListings.remove (bundle.first.1, listingId) }

/-- An auction with a bid is settled; if that fails, the bid is released. -/
def closeListing (listingId : ListingId) : State AccountId :=
  match s.listings.get? listingId with
  | some (.fixedPrice listing) => releaseListing s listingId listing.bundle
  | some (.auction listing) =>
    let released := releaseListing s listingId listing.bundle
    match s.listingWinningBid.get? listingId with
    | some (winner, hammerPrice) =>
      let released := { released with listingWinningBid := s.listingWinningBid.remove listingId }
      match processPaymentAndTransfer cfg released winner listing.seller listing.paymentAsset listing.bundle hammerPrice
          listing.royaltiesSchedule with
      | .ok s => s
      | .error _ =>
        let (assets, _) :=
          GenericAsset.MultiCurrency.unreserve released.assets winner listing.paymentAsset hammerPrice
        { released with assets := assets }
    | none => released
  | none => s

def scheduledAt (now : BlockNumber) : List ListingId :=
  ((s.listingEndSchedule.iterPrefix now).map Prod.fst).insertionSort fun a b => cfg.listingOrder a b = true

def closeListingsAt (now : BlockNumber) : State AccountId :=
  (scheduledAt cfg s now).foldl (closeListing cfg)
    { s with listingEndSchedule := s.listingEndSchedule.removePrefix now }

/-! ### Bids and sales -/

/-- Reserves `amount` of the caller, after a check of the locks on the rest. -/
def reserveFunds (assets : GenericAsset.State AccountId) (origin : AccountId) (assetId : AssetId) (amount : Balance) :
    Except Error (GenericAsset.State AccountId) := do
  match Word.checkedSub (assets.free assetId origin) amount with
  | some balanceAfter =>
    (GenericAsset.ensureCanWithdraw assets assetId origin amount .reserve balanceAfter).mapError .currency
  | none => pure ()
  (GenericAsset.MultiCurrency.reserve cfg.assets assets origin assetId amount).mapError .currency

def bidHighEnough (listing : AuctionListing AccountId) (amount : Balance) : Option (AccountId × Balance) → Prop
  | some currentBid => currentBid.2.toNat < amount.toNat
  | none => listing.reservePrice.toNat ≤ amount.toNat

instance (listing : AuctionListing AccountId) (amount : Balance) (currentBid : Option (AccountId × Balance)) :
    Decidable (bidHighEnough listing amount currentBid) :=
  match currentBid with
  | some _ => inferInstanceAs (Decidable (_ < _))
  | none => inferInstanceAs (Decidable (_ ≤ _))

def bid (cfg : Config AccountId) (s : State AccountId) (origin : AccountId) (listingId : ListingId)
    (amount : Balance) : Except Error (State AccountId) :=
  match s.listings.get? listingId with
  | some (.auction listing) => do
    let currentBid := s.listingWinningBid.get? listingId
    ensure (bidHighEnough listing amount currentBid) .bidTooLow
    let assets ← reserveFunds cfg s.assets origin listing.paymentAsset amount
    -- the bid that was winning until now gets its money back
    let assets :=
      match currentBid with
      | some currentBid =>
        (GenericAsset.MultiCurrency.unreserve assets currentBid.1 listing.paymentAsset currentBid.2).1
      | none => assets
    let s := { s with
      assets := assets
      listingWinningBid := s.listingWinningBid.insert listingId (origin, amount) }
    let blocksTillClose := listing.close - s.blockNumber
    let newClosingBlock := s.blockNumber + auctionExtensionPeriod
    if blocksTillClose.toNat ≤ auctionExtensionPeriod.toNat then
      return { s with
        listingEndSchedule :=
          (s.listingEndSchedule.remove (listing.close, listingId)).insert (newClosingBlock, listingId) true
        listings := s.listings.insert listingId (.auction { listing with close := newClosingBlock }) }
    else return s
  | _ => .error .notForAuction

def cancelSale (origin : AccountId) (listingId : ListingId) : Except Error (State AccountId) :=
  match s.listings.get? listingId with
  | some (.fixedPrice sale) => do
    ensure (sale.seller = origin) .noPermission
    let s := { s with listingEndSchedule := s.listingEndSchedule.remove (sale.close, listingId) }
    return releaseListing s listingId sale.bundle
  | some (.auction auction) => do
    ensure (auction.seller = origin) .noPermission
    ensure (s.listingWinningBid.contains listingId = false) .tokenListingProtection
    let s := { s with listingEndSchedule := s.listingEndSchedule.remove (auction.close, listingId) }
    return releaseListing s listingId auction.bundle
  | none => .ok s

def updateFixedPrice (origin : AccountId) (listingId : ListingId) (newPrice : Balance) :
    Except Error (State AccountId) :=
  match s.listings.get? listingId with
  | some (.fixedPrice sale) => do
    ensure (sale.seller = origin) .noPermission
    return { s with listings := s.listings.insert listingId (.fixedPrice { sale with fixedPrice := newPrice }) }
  | _ => .error .notForFixedPriceSale

/-! ### Offers -/

def onAuction (t : TokenId) : Bool :=
  match s.tokenLocks.get? t with
  | some (.listed listingId) =>
    match s.listings.get? listingId with
    | some (.auction _) => true
    | _ => false
  | none => false

def makeSimpleOffer (origin : AccountId) (tokenId : TokenId) (amount : Balance) (assetId : AssetId)
    (marketplaceId : Option MarketplaceId) :
    Except Error (State AccountId) := do
  ensure (amount ≠ 0) .zeroOffer
  ensure (s.ownerOf tokenId ≠ origin) .isTokenOwner
  let offerId := s.nextOfferId
  let nextOfferId ← okOr (Word.checkedAdd offerId 1) .noAvailableIds
  ensure (onAuction s tokenId = false) .tokenOnAuction
  let assets ← reserveFunds cfg s.assets origin assetId amount
  let offer := { tokenId := tokenId, assetId := assetId, amount := amount, buyer := origin, marketplaceId := marketplaceId }
  return { s with
    assets := assets
    tokenOffers := s.tokenOffers.insert tokenId (s.tokenOffers.getD tokenId [] ++ [offerId])
    offers := s.offers.insert offerId (.simple offer)
    nextOfferId := nextOfferId }

def removeOffer (offerId : OfferId) (tokenId : TokenId) : Except Error (State AccountId) := do
  let offers := s.tokenOffers.getD tokenId []
  let index ← okOr (cfg.binarySearch offers offerId) .panicked
  return { s with
    offers := s.offers.remove offerId
    tokenOffers := s.tokenOffers.insert tokenId (offers.eraseIdx index) }

def cancelOffer (origin : AccountId) (offerId : OfferId) : Except Error (State AccountId) :=
  match s.offers.get? offerId with
  | some (.simple offer) => do
    ensure (offer.buyer = origin) .notBuyer
    let (assets, _) := GenericAsset.MultiCurrency.unreserve s.assets origin offer.assetId offer.amount
    removeOffer cfg { s with assets := assets } offerId offer.tokenId
  | none => .error .invalidOffer

/-- The lock of the token is not consulted. -/
def acceptOffer (origin : AccountId) (offerId : OfferId) : Except Error (State AccountId) :=
  match s.offers.get? offerId with
  | some (.simple offer) => do
    ensure (s.ownerOf offer.tokenId = origin) .noPermission
    let bundle := ⟨offer.tokenId, []⟩
    let royaltiesSchedule ← checkBundleRoyalties s bundle offer.marketplaceId
    let s ← processPaymentAndTransfer cfg s offer.buyer origin offer.assetId bundle offer.amount royaltiesSchedule
    removeOffer cfg s offerId offer.tokenId
  | none => .error .invalidOffer

/-! ### Repair of token counts -/

/-- Recounts the tokens of a series from their owners. A number without owner counts for the default account. -/
def updateTokenBalance (collectionId : CollectionId) (seriesId : SeriesId) : Except Error (State AccountId) := do
  ensure (s.collectionOwner.contains collectionId = true) .noCollection
  ensure (s.seriesMetadataScheme.contains (collectionId, seriesId) = true) .noSeries
  let tokenCount := s.nextSerialNumber.getD (collectionId, seriesId) 0
  ensure (0 < tokenCount.toNat) .noToken
  let counts : StorageMap AccountId TokenCount :=
    (serialRange 0 tokenCount).foldl (fun counts serialNumber =>
      let owner := s.ownerOf (collectionId, seriesId, serialNumber)
      counts.insert owner (counts.getD owner 0 + 1)) ∅
  let tokenBalance :=
    counts.entries.foldl (fun m (account, count) =>
      m.insert account ((m.getD account ∅).insert (collectionId, seriesId) count)) s.tokenBalance
  return { s with tokenBalance := tokenBalance }

/-! ### Calls and blocks -/

inductive Call (AccountId : Type) where
  | migrateToMetadataScheme (collectionId : CollectionId) (seriesId : SeriesId) (scheme : MetadataScheme)
  | setOwner (collectionId : CollectionId) (newOwner : AccountId)
  | setSeriesName (collectionId : CollectionId) (seriesId : SeriesId) (name : List UInt8)
  | registerMarketplace (marketplaceAccount : Option AccountId) (entitlement : Permill)
  | createCollection (name : List UInt8) (royaltiesSchedule : Option (RoyaltiesSchedule AccountId))
  | mintSeries (collectionId : CollectionId) (quantity : TokenCount) (owner : Option AccountId)
      (metadataScheme : MetadataScheme) (royaltiesSchedule : Option (RoyaltiesSchedule AccountId))
  | mintAdditional (collectionId : CollectionId) (seriesId : SeriesId) (quantity : TokenCount)
      (owner : Option AccountId)
  | transfer (tokenId : TokenId) (newOwner : AccountId)
  | transferBatch (collectionId : CollectionId) (seriesId : SeriesId) (serialNumbers : List SerialNumber)
      (newOwner : AccountId)
  | burn (tokenId : TokenId)
  | burnBatch (collectionId : CollectionId) (seriesId : SeriesId) (serialNumbers : List SerialNumber)
  | sell (tokenId : TokenId) (buyer : Option AccountId) (paymentAsset : AssetId) (fixedPrice : Balance)
      (duration : Option BlockNumber) (marketplaceId : Option MarketplaceId)
  | sellBundle (tokens : List TokenId) (buyer : Option AccountId) (paymentAsset : AssetId) (fixedPrice : Balance)
      (duration : Option BlockNumber) (marketplaceId : Option MarketplaceId)
  | buy (listingId : ListingId)
  | auction (tokenId : TokenId) (paymentAsset : AssetId) (reservePrice : Balance) (duration : Option BlockNumber)
      (marketplaceId : Option MarketplaceId)
  | auctionBundle (tokens : List TokenId) (paymentAsset : AssetId) (reservePrice : Balance)
      (duration : Option BlockNumber) (marketplaceId : Option MarketplaceId)
  | bid (listingId : ListingId) (amount : Balance)
  | cancelSale (listingId : ListingId)
  | updateFixedPrice (listingId : ListingId) (newPrice : Balance)
  | makeSimpleOffer (tokenId : TokenId) (amount : Balance) (assetId : AssetId) (marketplaceId : Option MarketplaceId)
  | cancelOffer (offerId : OfferId)
  | acceptOffer (offerId : OfferId)
  | updateTokenBalance (collectionId : CollectionId) (seriesId : SeriesId)

def dispatch (origin : AccountId) : Call AccountId → Except Error (State AccountId)
  | .migrateToMetadataScheme collectionId seriesId scheme =>
    migrateToMetadataScheme s origin collectionId seriesId scheme
  | .setOwner collectionId newOwner => setOwner s origin collectionId newOwner
  | .setSeriesName collectionId seriesId name => setSeriesName s origin collectionId seriesId name
  | .registerMarketplace marketplaceAccount entitlement => registerMarketplace s origin marketplaceAccount entitlement
  | .createCollection name royaltiesSchedule => createCollection s origin name royaltiesSchedule
  | .mintSeries collectionId quantity owner metadataScheme royaltiesSchedule =>
    Prod.fst <$> doMintSeries s origin collectionId quantity owner metadataScheme royaltiesSchedule
  | .mintAdditional collectionId seriesId quantity owner => mintAdditional s origin collectionId seriesId quantity owner
  | .transfer tokenId newOwner => transferBatch s origin tokenId.1 tokenId.2.1 [tokenId.2.2] newOwner
  | .transferBatch collectionId seriesId serialNumbers newOwner =>
    transferBatch s origin collectionId seriesId serialNumbers newOwner
  | .burn tokenId => burnBatch s origin tokenId.1 tokenId.2.1 [tokenId.2.2]
  | .burnBatch collectionId seriesId serialNumbers => burnBatch s origin collectionId seriesId serialNumbers
  | .sell tokenId buyer paymentAsset fixedPrice duration marketplaceId =>
    sellBundle cfg s origin [tokenId] buyer paymentAsset fixedPrice duration marketplaceId
  | .sellBundle tokens buyer paymentAsset fixedPrice duration marketplaceId =>
    sellBundle cfg s origin tokens buyer paymentAsset fixedPrice duration marketplaceId
  | .buy listingId => buy cfg s origin listingId
  | .auction tokenId paymentAsset reservePrice duration marketplaceId =>
    auctionBundle cfg s origin [tokenId] paymentAsset reservePrice duration marketplaceId
  | .auctionBundle tokens paymentAsset reservePrice duration marketplaceId =>
    auctionBundle cfg s origin tokens paymentAsset reservePrice duration marketplaceId
  | .bid listingId amount => bid cfg s origin listingId amount
  | .cancelSale listingId => cancelSale s origin listingId
  | .updateFixedPrice listingId newPrice => updateFixedPrice s origin listingId newPrice
  | .makeSimpleOffer tokenId amount assetId marketplaceId =>
    makeSimpleOffer cfg s origin tokenId amount assetId marketplaceId
  | .cancelOffer offerId => cancelOffer cfg s origin offerId
  | .acceptOffer offerId => acceptOffer cfg s origin offerId
  | .updateTokenBalance collectionId seriesId => updateTokenBalance s collectionId seriesId

inductive Op (AccountId : Type) where
  | call (origin : AccountId) (call : Call AccountId)
  | onInitialize (now : BlockNumber)

def step : Op AccountId → State AccountId
  | .call origin call =>
    match dispatch cfg s origin call with
    | .ok s => s
    | .error _ => s
  | .onInitialize now => closeListingsAt cfg { s with blockNumber := now } now

end

/-! ### Listings of a collection -/

def maxCollectionListingLimit : BitVec 16 := 100

def pageSize (limit : BitVec 16) : Nat := min limit.toNat maxCollectionListingLimit.toNat

def openListingIds (s : State AccountId) (collectionId : CollectionId) : List ListingId :=
  ((s.openCollectionListings.iterPrefix collectionId).map Prod.fst).insertionSort fun a b => a.toNat ≤ b.toNat

/-- The new cursor comes after the last id of the page, taken for 0 if there is none. -/
def collectionListings (s : State AccountId) (collectionId : CollectionId) (cursor : ListingId) (limit : BitVec 16) :
    Option ListingId × List (ListingId × Listing AccountId) :=
  let listingIds := openListingIds s collectionId
  let lastId := listingIds.getLast?
  let page := (listingIds.filter fun id => cursor.toNat ≤ id.toNat).take (pageSize limit)
  let highestCursor := page.getLast?.getD 0
  let response := page.filterMap fun id => (s.listings.get? id).map (id, ·)
  (lastId.bind fun id => if highestCursor ≠ id then some (highestCursor + 1) else none, response)

end Nft
