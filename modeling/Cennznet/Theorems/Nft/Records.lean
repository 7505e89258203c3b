import Cennznet.Nft
import Cennznet.Lib.Run

/-! # What the calls do to the records of ownership

Each function has one lemma for what it leaves of the owners, locks, listings and counters. -/

namespace Nft

open GenericAsset (AssetId Balance)
open Result List

variable {A : Type}

def ownerKey (t : TokenId) : SeriesKey × SerialNumber := ((t.1, t.2.1), t.2.2)

theorem ownerKey_injective : Function.Injective ownerKey := by
  rintro ⟨c, s, n⟩ ⟨c', s', n'⟩ h
  simp only [ownerKey, Prod.mk.injEq] at h
  obtain ⟨⟨rfl, rfl⟩, rfl⟩ := h
  rfl

def Bundle.settled (b : Bundle) (t : TokenId) : TokenId := (b.first.1, b.first.2.1, t.2.2)

structure Records (A : Type) where
  owner : StorageMap (SeriesKey × SerialNumber) A
  locks : StorageMap TokenId TokenLockReason
  listings : StorageMap ListingId (Listing A)
  nextListing : ListingId
  nextSeries : StorageMap CollectionId SeriesId
  nextSerial : StorageMap SeriesKey SerialNumber

def State.records (s : State A) : Records A where
  owner := s.tokenOwner
  locks := s.tokenLocks
  listings := s.listings
  nextListing := s.nextListingId
  nextSeries := s.nextSeriesId
  nextSerial := s.nextSerialNumber

namespace Records

def give (r : Records A) (keys : List (SeriesKey × SerialNumber)) (owner : A) : Records A :=
  { r with owner := r.owner.insertAll keys owner }

def settle (r : Records A) (b : Bundle) (buyer : A) : Records A :=
  r.give (b.tokens.map fun t => ownerKey (b.settled t)) buyer

def burn (r : Records A) (keys : List (SeriesKey × SerialNumber)) : Records A :=
  { r with owner := r.owner.removeAll keys }

def lock (r : Records A) (lid : ListingId) (tokens : List TokenId) : Records A :=
  { r with locks := r.locks.insertAll tokens (.listed lid) }

def list (r : Records A) (lid : ListingId) (li : Listing A) : Records A :=
  { r with listings := r.listings.insert lid li }

def unlist (r : Records A) (lid : ListingId) : Records A :=
  { r with listings := r.listings.remove lid }

def release (r : Records A) (lid : ListingId) (b : Bundle) : Records A :=
  { r.unlist lid with locks := r.locks.removeAll b.tokens }

def publish (r : Records A) (li : Listing A) (nextListing : ListingId) : Records A :=
  { (r.lock r.nextListing li.bundle.tokens).list r.nextListing li with nextListing := nextListing }

def mint (r : Records A) (owner : A) (key : SeriesKey) (first : SerialNumber) (qty : TokenCount) : Records A :=
  if 0 < qty.toNat then
    { r.give ((serialRange first (first + qty)).map fun n => (key, n)) owner with
      nextSerial := r.nextSerial.insert key (Word.saturatingAdd (r.nextSerial.getD key 0) qty) }
  else { r with nextSerial := r.nextSerial.insert key 0 }

def setNextSeries (r : Records A) (cid : CollectionId) (next : SeriesId) : Records A :=
  { r with nextSeries := r.nextSeries.insert cid next }

end Records

theorem removeFixedPriceListing_records {s : State A} {lid : ListingId} :
    (removeFixedPriceListing s lid).records = s.records.unlist lid := rfl

theorem removeOffer_records {cfg : Config A} {s s' : State A} {oid : OfferId} {t : TokenId}
    (h : removeOffer cfg s oid t = .ok s') :
    s'.records = s.records := by
  simp only [removeOffer, bind_eq_ok, pure_eq_ok] at h
  obtain ⟨_, -, rfl⟩ := h
  rfl

section
variable [DecidableEq A] {s s' : State A} {o newOwner : A} {key : SeriesKey}
  {qty : TokenCount} {ns : List SerialNumber}

/-! ### Moving and minting -/

theorem decreaseBalance_records (h : decreaseBalance s o key qty = some s') : s'.records = s.records := by
  simp only [decreaseBalance, bind, Option.bind_eq_some_iff] at h
  obtain ⟨balance, -, h⟩ := h
  cases h
  rfl

theorem moveBalance_records : (moveBalance s o newOwner key qty).records = s.records := by
  unfold moveBalance
  cases h : decreaseBalance s o key qty with
  | none => rfl
  | some s₁ =>
    have hk : s₁.records = s.records := decreaseBalance_records h
    exact hk

theorem doTransferUnchecked_records : (doTransferUnchecked s key ns o newOwner).records =
    s.records.give (ns.map fun n => (key, n)) newOwner := by
  unfold doTransferUnchecked
  rw [moveBalance_records]
  rfl

theorem doTransferUnchecked_settle {b : Bundle} :
    (doTransferUnchecked s (b.first.1, b.first.2.1) (b.tokens.map fun t => t.2.2) o newOwner).records =
      s.records.settle b newOwner := by
  rw [doTransferUnchecked_records, map_map]
  rfl

theorem doMint_records {first : SerialNumber} :
    (doMint s newOwner key first qty).records = s.records.mint newOwner key first qty := by
  unfold doMint Records.mint
  split <;> rfl

variable {cid : CollectionId} {sid : SeriesId}

theorem doMintSeries_inv {owner : Option A} {scheme : MetadataScheme}
    {roy : Option (RoyaltiesSchedule A)}
    (h : doMintSeries s o cid qty owner scheme roy = .ok (s', sid)) :
    ∃ next : SeriesId, sid = s.records.nextSeries.getD cid 0 ∧ sid.toNat + 1 = next.toNat ∧ s'.records =
        (s.records.mint (owner.getD o) (cid, sid) 0 qty).setNextSeries cid next := by
  simp only [doMintSeries, bind_eq_ok, okOr_eq_ok, Word.checkedAdd_eq_some, pure_eq_ok, Prod.mk.injEq] at h
  obtain ⟨-, -, next, hx, _, -, -, -, hend, rfl⟩ := h
  refine ⟨next, rfl, hx, ?_⟩
  have hre := congrArg State.records hend
  calc s'.records = (State.records (doMint _ _ _ _ _)).setNextSeries cid next := hre.symm
    _ = _ := by
      rw [doMint_records]
      rfl

theorem mintAdditional_inv {owner : Option A} (h : mintAdditional s o cid sid qty owner = .ok s') :
    ∃ first, s.records.nextSerial.get? (cid, sid) = some first ∧ 0 < qty.toNat ∧
      first.toNat + qty.toNat < 2 ^ 32 ∧
      s'.records = s.records.mint (owner.getD o) (cid, sid) first qty := by
  simp only [mintAdditional, bind_eq_ok, ensure_eq_ok, okOr_eq_ok, pure_eq_ok, Option.isSome_iff_exists,
    Word.checkedAdd_eq_some] at h
  obtain ⟨-, hpos, -, -, first, hfi, -, ⟨next, hx⟩, rfl⟩ := h
  refine ⟨first, hfi, hpos, ?_, doMint_records⟩
  rw [hx]
  exact next.isLt

variable [Inhabited A]

theorem ensureMovable_eq_ok {t : TokenId} {u : Unit} :
    ensureMovable s o t = .ok u ↔ s.tokenLocks.get? t = none ∧ s.ownerOf t = o := by
  simp only [ensureMovable, bind_eq_ok, ensure_eq_ok, StorageMap.not_contains_iff, exists_const]

theorem ensureAllMovable_inv {u : Unit} (h : ensureAllMovable s o key ns = .ok u) :
    ∀ n ∈ ns, s.tokenLocks.get? (key.1, key.2, n) = none ∧ s.ownerOf (key.1, key.2, n) = o := by
  induction ns with
  | nil => simp
  | cons n rest ih =>
    simp only [ensureAllMovable, bind_eq_ok, ensureMovable_eq_ok] at h
    obtain ⟨-, hn, hr⟩ := h
    intro m hm
    rcases mem_cons.mp hm with rfl | hm
    · exact hn
    · exact ih hr m hm

theorem transferBatch_inv (h : transferBatch s o cid sid ns newOwner = .ok s') :
    (∀ n ∈ ns, s.tokenLocks.get? (cid, sid, n) = none ∧ s.ownerOf (cid, sid, n) = o) ∧
    s'.records = s.records.give (ns.map fun n => ((cid, sid), n)) newOwner := by
  simp only [transferBatch, bind_eq_ok, ensure_eq_ok, pure_eq_ok] at h
  obtain ⟨-, -, _, hmo, rfl⟩ := h
  exact ⟨ensureAllMovable_inv hmo, doTransferUnchecked_records⟩

theorem burnTokens_inv (h : burnTokens o key s ns = .ok s') : (∀ n ∈ ns, s.tokenLocks.get? (key.1, key.2, n) = none) ∧
      s'.records = s.records.burn (ns.map fun n => (key, n)) := by
  induction ns generalizing s with
  | nil =>
    cases h
    exact ⟨by simp, rfl⟩
  | cons n rest ih =>
    simp only [burnTokens, bind_eq_ok, ensureMovable_eq_ok] at h
    obtain ⟨-, ⟨hn, -⟩, hr⟩ := h
    obtain ⟨hlo, hre⟩ := ih hr
    refine ⟨fun m hm => ?_, hre⟩
    rcases mem_cons.mp hm with rfl | hm
    · exact hn
    · exact hlo m hm

theorem burnBatch_inv (h : burnBatch s o cid sid ns = .ok s') : (∀ n ∈ ns, s.tokenLocks.get? (cid, sid, n) = none) ∧
    s'.records = s.records.burn (ns.map fun n => ((cid, sid), n)) := by
  simp only [burnBatch, bind_eq_ok, ensure_eq_ok, okOr_eq_ok] at h
  obtain ⟨-, -, s₁, hbu, s₂, hco, hend⟩ := h
  obtain ⟨hlo, hre⟩ := burnTokens_inv hbu
  have hk : s'.records = s₂.records := by
    split at hend <;> cases hend <;> rfl
  refine ⟨hlo, ?_⟩
  rw [hk, decreaseBalance_records hco, hre]

end

section
variable [DecidableEq A] {cfg : Config A} {s s' : State A}
  {o : A} {lid : ListingId}

theorem processPaymentAndTransfer_eq_ok {buyer seller : A} {asset : AssetId} {b : Bundle} {n : Balance}
    {roy : RoyaltiesSchedule A} :
    processPaymentAndTransfer cfg s buyer seller asset b n roy = .ok s' ↔
      ∃ assets, payReserved cfg s.assets buyer seller asset n roy = .ok assets ∧
        doTransferUnchecked { s with assets := assets } (b.first.1, b.first.2.1) (b.tokens.map fun t => t.2.2) seller
          buyer = s' := by
  simp only [processPaymentAndTransfer, bind_eq_ok, pure_eq_ok]

theorem processPaymentAndTransfer_records {buyer seller : A} {asset : AssetId} {b : Bundle} {n : Balance}
    {roy : RoyaltiesSchedule A}
    (h : processPaymentAndTransfer cfg s buyer seller asset b n roy = .ok s') :
    s'.records = s.records.settle b buyer := by
  obtain ⟨assets, -, rfl⟩ := processPaymentAndTransfer_eq_ok.mp h
  exact doTransferUnchecked_settle

theorem buy_inv (h : buy cfg s o lid = .ok s') : ∃ l, s.listings.get? lid = some (.fixedPrice l) ∧
      s'.records = (s.records.release lid l.bundle).settle l.bundle o := by
  unfold buy at h
  split at h
  · rename_i l hli
    simp only [bind_eq_ok, ensure_eq_ok, pure_eq_ok] at h
    obtain ⟨-, -, assets, -, rfl⟩ := h
    refine ⟨l, hli, ?_⟩
    rw [removeFixedPriceListing_records, doTransferUnchecked_settle]
    rfl
  · cases h

theorem closeListing_records (cfg : Config A) (s : State A) (lid : ListingId) :
    (closeListing cfg s lid).records = s.records ∨
    ∃ l, s.listings.get? lid = some l ∧ ((closeListing cfg s lid).records = s.records.release lid l.bundle ∨
        ∃ winner, (closeListing cfg s lid).records = (s.records.release lid l.bundle).settle l.bundle winner) := by
  unfold closeListing
  split
  · rename_i l hli
    exact Or.inr ⟨_, hli, Or.inl rfl⟩
  · rename_i l hli
    refine Or.inr ⟨_, hli, ?_⟩
    dsimp only
    split
    · rename_i winner p hbid
      split
      · rename_i s₁ hse
        exact Or.inr ⟨winner, processPaymentAndTransfer_records hse⟩
      · exact Or.inl rfl
    · exact Or.inl rfl
  · exact Or.inl rfl

theorem closeListing_of_paid {l : AuctionListing A} {winner : A}
    {p : Balance} {assets : GenericAsset.State A}
    (hli : s.listings.get? lid = some (.auction l))
    (hbid : s.listingWinningBid.get? lid = some (winner, p))
    (hp : payReserved cfg s.assets winner l.seller l.paymentAsset p l.royaltiesSchedule = .ok assets) :
    (closeListing cfg s lid).records = (s.records.release lid l.bundle).settle l.bundle winner := by
  simp only [closeListing, hli, hbid]
  split
  · rename_i s₁ hse
    exact processPaymentAndTransfer_records hse
  · rename_i e hfa
    cases hfa.symm.trans (processPaymentAndTransfer_eq_ok.mpr ⟨assets, hp, rfl⟩)

variable [Inhabited A]

theorem acceptOffer_inv {oid : OfferId} (h : acceptOffer cfg s o oid = .ok s') :
    ∃ offer, s.offers.get? oid = some (.simple offer) ∧ s.ownerOf offer.tokenId = o ∧
      s'.records = s.records.settle ⟨offer.tokenId, []⟩ offer.buyer := by
  unfold acceptOffer at h
  split at h
  · rename_i offer hof
    simp only [bind_eq_ok, ensure_eq_ok] at h
    obtain ⟨-, hwn, roy, -, s₁, hse, hend⟩ := h
    refine ⟨offer, hof, hwn, ?_⟩
    rw [removeOffer_records hend, processPaymentAndTransfer_records hse]
  · cases h

/-! ### New listings -/

theorem lockTokens_inv {tokens : List TokenId} (h : lockTokens o lid s tokens = .ok s') :
    (∀ t ∈ tokens, s.tokenLocks.get? t = none ∧ s.ownerOf t = o) ∧ s'.records = s.records.lock lid tokens := by
  induction tokens generalizing s with
  | nil =>
    cases h
    exact ⟨by simp, rfl⟩
  | cons t rest ih =>
    simp only [lockTokens, bind_eq_ok, ensureMovable_eq_ok] at h
    obtain ⟨-, ht, hr⟩ := h
    obtain ⟨hlo, hre⟩ := ih hr
    refine ⟨fun u hu => ?_, hre⟩
    rcases mem_cons.mp hu with rfl | hu
    · exact ht
    · obtain ⟨hf, hwn⟩ := hlo u hu
      rw [StorageMap.get?_insert] at hf
      split at hf
      · cases hf
      · exact ⟨hf, hwn⟩

end

end Nft
