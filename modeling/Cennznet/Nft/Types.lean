import Cennznet.GenericAsset
import Cennznet.Lib.Result

/-! # The NFT pallet: types and storage

`crml/nft/src/types.rs` and the storage of `crml/nft`. A listing holds at least one token (`Bundle`): the source
refuses empty bundles and reads the first token without a check. The deprecated attributes and metadata URIs of old
series are left out. -/

namespace Nft

open GenericAsset (AssetId Balance)

abbrev CollectionId := BitVec 32
abbrev SeriesId := BitVec 32
abbrev SerialNumber := BitVec 32
abbrev TokenCount := BitVec 32
abbrev MarketplaceId := BitVec 32
abbrev BlockNumber := BitVec 32
abbrev OfferId := BitVec 64
abbrev ListingId := BitVec 128

abbrev TokenId := CollectionId × SeriesId × SerialNumber

abbrev SeriesKey := CollectionId × SeriesId

/-- Parts per million. A decoded value may exceed a million. -/
abbrev Permill := BitVec 32

inductive Error where
  | collectionNameInvalid
  | noAvailableIds
  | noPermission
  | noCollection
  | noToken
  | notForFixedPriceSale
  | notForAuction
  | tokenListingProtection
  | internalPayment
  | royaltiesInvalid
  | bidTooLow
  | mixedBundleSale
  | royaltiesProtection
  | marketplaceNotRegistered
  | noSeries
  | nameAlreadySet
  | invalidMetadataPath
  | invalidOffer
  | notBuyer
  | isTokenOwner
  | zeroOffer
  | tokenOnAuction
  | currency (e : GenericAsset.Error)
  | panicked
deriving DecidableEq, Repr

def maxCollectionNameLength : Nat := 32

def auctionExtensionPeriod : BlockNumber := 40

/-! ### Metadata -/

def fromUtf8 (bytes : List UInt8) : Option (List Char) := (String.fromUTF8? ⟨bytes.toArray⟩).map String.toList

/-- The Unicode property `White_Space`, as in `str::trim`. -/
def isWhiteSpace (c : Char) : Bool :=
  (0x9 ≤ c.val && c.val ≤ 0xD) || c.val == 0x20 || c.val == 0x85 || c.val == 0xA0 || c.val == 0x1680 ||
    (0x2000 ≤ c.val && c.val ≤ 0x200A) || c.val == 0x2028 || c.val == 0x2029 || c.val == 0x202F || c.val == 0x205F ||
    c.val == 0x3000

def trim (chars : List Char) : List Char :=
  ((chars.dropWhile isWhiteSpace).reverse.dropWhile isWhiteSpace).reverse

inductive MetadataScheme where
  | https (path : List UInt8)
  | http (path : List UInt8)
  | ipfsDir (path : List UInt8)
  | ipfsShared (path : List UInt8)
deriving DecidableEq, Repr

namespace MetadataScheme

def protocol : MetadataScheme → List Char
  | .http _ => "http://".toList
  | .https _ => "https://".toList
  | .ipfsDir _ => "ipfs://".toList
  | .ipfsShared _ => "ipfs://".toList

def sanitizePath (protocol : List Char) (path : List UInt8) : Option (List UInt8) :=
  if path.isEmpty then none
  else do
    let path := trim (← fromUtf8 path)
    let path := if path.getLast? = some '/' then path.dropLast else path
    let path := if protocol.isPrefixOf path then path.drop protocol.length else path
    return path.flatMap String.utf8EncodeChar

def sanitize (m : MetadataScheme) : Option MetadataScheme :=
  match m with
  | .http path => (sanitizePath m.protocol path).map .http
  | .https path => (sanitizePath m.protocol path).map .https
  | .ipfsDir path => (sanitizePath m.protocol path).map .ipfsDir
  | .ipfsShared path => (sanitizePath m.protocol path).map .ipfsShared

end MetadataScheme

/-! ### Royalties -/

def permillAccuracy : Nat := 1000000

def maxEntitlements : Nat := 8

structure RoyaltiesSchedule (AccountId : Type) where
  entitlements : List (AccountId × Permill) := []
deriving DecidableEq

namespace RoyaltiesSchedule

variable {AccountId : Type}

def totalShares (r : RoyaltiesSchedule AccountId) : Permill := (r.entitlements.map Prod.snd).foldl (· + ·) 0

def validate (r : RoyaltiesSchedule AccountId) : Bool :=
  !r.entitlements.isEmpty && decide (r.entitlements.length ≤ maxEntitlements) &&
    decide (r.totalShares.toNat ≤ permillAccuracy)

def calculateTotalEntitlement (r : RoyaltiesSchedule AccountId) : Permill := if r.validate then r.totalShares else 0

end RoyaltiesSchedule

structure Marketplace (AccountId : Type) where
  account : AccountId
  entitlement : Permill

/-! ### Listings and offers -/

structure Bundle where
  first : TokenId
  rest : List TokenId
deriving DecidableEq, Repr

def Bundle.tokens (b : Bundle) : List TokenId := b.first :: b.rest

inductive TokenLockReason where
  | listed (listingId : ListingId)
deriving DecidableEq, Repr

structure AuctionListing (AccountId : Type) where
  paymentAsset : AssetId
  reservePrice : Balance
  close : BlockNumber
  seller : AccountId
  bundle : Bundle
  royaltiesSchedule : RoyaltiesSchedule AccountId
  marketplaceId : Option MarketplaceId
deriving DecidableEq

structure FixedPriceListing (AccountId : Type) where
  paymentAsset : AssetId
  fixedPrice : Balance
  close : BlockNumber
  buyer : Option AccountId
  seller : AccountId
  bundle : Bundle
  royaltiesSchedule : RoyaltiesSchedule AccountId
  marketplaceId : Option MarketplaceId
deriving DecidableEq

inductive Listing (AccountId : Type) where
  | fixedPrice (listing : FixedPriceListing AccountId)
  | auction (listing : AuctionListing AccountId)
deriving DecidableEq

namespace Listing

variable {AccountId : Type}

def seller : Listing AccountId → AccountId
  | .fixedPrice listing => listing.seller
  | .auction listing => listing.seller

def bundle : Listing AccountId → Bundle
  | .fixedPrice listing => listing.bundle
  | .auction listing => listing.bundle

end Listing

structure SimpleOffer (AccountId : Type) where
  tokenId : TokenId
  assetId : AssetId
  amount : Balance
  buyer : AccountId
  marketplaceId : Option MarketplaceId
deriving DecidableEq

inductive OfferType (AccountId : Type) where
  | simple (offer : SimpleOffer AccountId)
deriving DecidableEq

/-! ### Configuration and storage -/

structure Config (AccountId : Type) where
  assets : GenericAsset.Config AccountId
  defaultListingDuration : BlockNumber
  permillMul : Permill → Balance → Balance
  binarySearch : List OfferId → OfferId → Option Nat
  /-- The order of the hashed listing ids, in which a block's schedule is walked. -/
  listingOrder : ListingId → ListingId → Bool

structure State (AccountId : Type) where
  assets : GenericAsset.State AccountId
  blockNumber : BlockNumber
  collectionOwner : StorageMap CollectionId AccountId
  collectionName : StorageMap CollectionId (List UInt8)
  collectionRoyalties : StorageMap CollectionId (RoyaltiesSchedule AccountId)
  tokenLocks : StorageMap TokenId TokenLockReason
  tokenOwner : StorageMap (SeriesKey × SerialNumber) AccountId
  tokenBalance : StorageMap AccountId (StorageMap SeriesKey TokenCount)
  nextMarketplaceId : MarketplaceId
  registeredMarketplaces : StorageMap MarketplaceId (Marketplace AccountId)
  seriesName : StorageMap SeriesKey (List UInt8)
  seriesRoyalties : StorageMap SeriesKey (RoyaltiesSchedule AccountId)
  seriesIssuance : StorageMap SeriesKey TokenCount
  seriesMetadataScheme : StorageMap SeriesKey MetadataScheme
  nextCollectionId : CollectionId
  nextSeriesId : StorageMap CollectionId SeriesId
  nextSerialNumber : StorageMap SeriesKey SerialNumber
  nextListingId : ListingId
  listings : StorageMap ListingId (Listing AccountId)
  openCollectionListings : StorageMap (CollectionId × ListingId) Bool
  listingWinningBid : StorageMap ListingId (AccountId × Balance)
  listingEndSchedule : StorageMap (BlockNumber × ListingId) Bool
  offers : StorageMap OfferId (OfferType AccountId)
  tokenOffers : StorageMap TokenId (List OfferId)
  nextOfferId : OfferId
  /-- The tokens passed to `OnTransferSubscription`. -/
  nftTransfers : List TokenId

def State.genesis {AccountId : Type} (assets : GenericAsset.State AccountId) : State AccountId where
  assets := assets
  blockNumber := 0
  collectionOwner := ∅
  collectionName := ∅
  collectionRoyalties := ∅
  tokenLocks := ∅
  tokenOwner := ∅
  tokenBalance := ∅
  nextMarketplaceId := 0
  registeredMarketplaces := ∅
  seriesName := ∅
  seriesRoyalties := ∅
  seriesIssuance := ∅
  seriesMetadataScheme := ∅
  nextCollectionId := 0
  nextSeriesId := ∅
  nextSerialNumber := ∅
  nextListingId := 0
  listings := ∅
  openCollectionListings := ∅
  listingWinningBid := ∅
  listingEndSchedule := ∅
  offers := ∅
  tokenOffers := ∅
  nextOfferId := 0
  nftTransfers := []

end Nft
