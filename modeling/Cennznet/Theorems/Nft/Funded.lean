import Cennznet.Theorems.GenericAsset.Reserves
import Cennznet.Theorems.Nft.Settle
import Cennznet.Theorems.Nft.Orders

/-! # Bids and offers are funded -/

namespace Nft

open GenericAsset List
open Result StorageMap Steps

variable {A : Type} [DecidableEq A]

def Book.offered (b : Book A) (aid : AssetId) (who : A) : Nat :=
  b.offers.sumBy fun _ o =>
    match o with
    | .simple offer => if aid = offer.assetId ∧ who = offer.buyer then offer.amount.toNat else 0

def Book.assetOf {A : Type} (b : Book A) (lid : ListingId) : Option AssetId :=
  (b.listings.get? lid).map Listing.paymentAsset

def Book.bidden (b : Book A) (aid : AssetId) (who : A) : Nat :=
  b.bids.sumBy fun lid bid => if b.assetOf lid = some aid ∧ who = bid.1 then bid.2.toNat else 0

/-- Each reserved balance is the sum of the open offers and winning bids behind it. -/
def Book.Funded (b : Book A) : Prop :=
  ∀ aid who, b.assets.reservedOf aid who = b.offered aid who + b.bidden aid who

/-- The rounded royalties of a schedule are within the price. -/
def RoyaltiesWithin {A : Type} (cfg : Config A) (r : RoyaltiesSchedule A) (pr : Balance) : Prop :=
  (r.entitlements.map fun e => (cfg.permillMul e.2 pr).toNat).sum ≤ pr.toNat

section
variable {cfg : Config A} {assets assets' : GenericAsset.State A} {aid : AssetId}
  {buyer seller org : A} {pr n forSeller : Balance}

theorem reserveFunds_reserved (hfit : assets.reservedOf aid org + n.toNat < 2 ^ 128)
    (h : reserveFunds cfg assets org aid n = .ok assets') :
    Released assets' assets aid org n.toNat := by
  unfold reserveFunds at h
  split at h
  · obtain ⟨_, -, hre⟩ := bind_eq_ok.mp h
    exact reserve_reserved hfit (mapError_eq_ok.mp hre)
  · exact reserve_reserved hfit (mapError_eq_ok.mp h)

theorem repatriateRoyalties_released {ents : List (A × Permill)}
    (hwi : (ents.map fun e => (cfg.permillMul e.2 pr).toNat).sum ≤ forSeller.toNat)
    (hre : forSeller.toNat ≤ assets.reservedOf aid buyer) :
    Released assets (repatriateRoyalties cfg buyer aid pr assets forSeller ents).1 aid buyer
        (ents.map fun e => (cfg.permillMul e.2 pr).toNat).sum ∧
      (repatriateRoyalties cfg buyer aid pr assets forSeller ents).2.toNat +
        (ents.map fun e => (cfg.permillMul e.2 pr).toNat).sum = forSeller.toNat := by
  induction ents generalizing assets forSeller with
  | nil => exact ⟨Released.refl, rfl⟩
  | cons e rest ih =>
    obtain ⟨who, share⟩ := e
    simp only [map_cons, sum_cons] at hwi ⊢
    have hp : Released assets (MultiCurrency.repatriateReserved assets buyer aid who (cfg.permillMul share pr)).1 aid
        buyer (cfg.permillMul share pr).toNat := repatriateReserved_released (by omega) who
    have hl := hp.left
    have hr : (forSeller - cfg.permillMul share pr).toNat = forSeller.toNat - (cfg.permillMul share pr).toNat :=
      Word.toNat_sub_of_le (by omega)
    obtain ⟨hoth, hsum⟩ := @ih (MultiCurrency.repatriateReserved assets buyer aid who (cfg.permillMul share pr)).1
        (forSeller - cfg.permillMul share pr) (by omega) (by omega)
    refine ⟨hp.trans hoth, ?_⟩
    unfold repatriateRoyalties
    dsimp only
    omega

theorem payReserved_released {r : RoyaltiesSchedule A} (hwi : RoyaltiesWithin cfg r pr)
    (hre : pr.toNat ≤ assets.reservedOf aid buyer)
    (h : payReserved cfg assets buyer seller aid pr r = .ok assets') :
    Released assets assets' aid buyer pr.toNat := by
  unfold payReserved at h
  dsimp only at h
  split at h
  · obtain ⟨-, -, hend⟩ := bind_eq_ok.mp h
    cases hend
    exact repatriateReserved_released hre seller
  · obtain ⟨hro, hsum⟩ := repatriateRoyalties_released hwi hre
    obtain ⟨-, -, hend⟩ := bind_eq_ok.mp h
    cases hend
    have hl := hro.left
    have hco : (repatriateRoyalties cfg buyer aid pr assets pr r.entitlements).2.toNat ≤
        (repatriateRoyalties cfg buyer aid pr assets pr r.entitlements).1.reservedOf aid buyer := by omega
    have hall := hro.trans (repatriateReserved_released hco seller)
    rw [Nat.add_comm, hsum] at hall
    exact hall

theorem payRoyalties_reservedOf {imb left : NegativeImbalance}
    {ents : List (A × Permill)}
    (h : payRoyalties cfg aid pr assets imb forSeller ents = .ok (assets', left, n)) :
    assets'.reservedOf = assets.reservedOf := by
  induction ents generalizing assets imb forSeller with
  | nil =>
    cases h
    rfl
  | cons e rest ih =>
    obtain ⟨who, share⟩ := e
    simp only [payRoyalties] at h
    split at h
    · exact (ih h).trans depositCreating_reservedOf
    · cases h
    · cases h

theorem payFixedPrice_reservedOf {sale : FixedPriceListing A}
    (h : payFixedPrice cfg assets buyer sale = .ok assets') : assets'.reservedOf = assets.reservedOf := by
  unfold payFixedPrice at h
  split at h
  · exact transfer_reservedOf (mapError_eq_ok.mp h)
  · simp only [bind_eq_ok, mapError_eq_ok] at h
    obtain ⟨⟨assets₁, imb⟩, hwi, ⟨assets₂, left, rest⟩, hro, hend⟩ := h
    dsimp only at hro hend
    have hp : (MultiCurrency.depositIntoExisting assets₂ sale.seller sale.paymentAsset rest).1.reservedOf =
        assets.reservedOf :=
      (depositCreating_reservedOf.trans (payRoyalties_reservedOf hro)).trans (withdraw_reservedOf hwi)
    split at hend
    · cases hend
      exact hp
    · cases hend
    · cases hend

end

section
variable {b b' : Book A} {oid : OfferId} {offer : SimpleOffer A} {lid : ListingId}
  {winner : A} {pr : Balance} {paymentAsset : AssetId}

theorem offered_insert (hfr : b.offers.get? oid = none) (hofs : b'.offers = b.offers.insert oid (.simple offer))
    (a : AssetId) (x : A) :
    b'.offered a x = b.offered a x + portion offer.assetId offer.buyer offer.amount.toNat a x := by
  unfold Book.offered
  rw [hofs]
  have hsum := sumBy_insert (m := b.offers) (k := oid) (v := .simple offer) (f := fun _ o =>
    match o with
    | .simple offer => if a = offer.assetId ∧ x = offer.buyer then offer.amount.toNat else 0)
  rw [share_of_none hfr, Nat.add_zero] at hsum
  exact hsum

theorem offered_remove (hget : b.offers.get? oid = some (.simple offer))
    (hofs : b'.offers = b.offers.remove oid) (a : AssetId) (x : A) :
    b'.offered a x + portion offer.assetId offer.buyer offer.amount.toNat a x = b.offered a x := by
  unfold Book.offered
  rw [hofs]
  have hsum := sumBy_remove (m := b.offers) (k := oid) (f := fun _ o =>
    match o with
    | .simple offer => if a = offer.assetId ∧ x = offer.buyer then offer.amount.toNat else 0)
  rw [share_of_get? hget] at hsum
  exact hsum

theorem bidden_congr (hbi : b'.bids = b.bids)
    (hss : ∀ id bid, b.bids.get? id = some bid → b'.assetOf id = b.assetOf id) : b'.bidden = b.bidden := by
  funext a x
  unfold Book.bidden
  rw [hbi]
  refine sumBy_congr fun id bid hget => ?_
  rw [hss id bid hget]

theorem stake_eq (hst : b.assetOf lid = some paymentAsset) (bid : A × Balance) (a : AssetId) (x : A) :
    (if b.assetOf lid = some a ∧ x = bid.1 then bid.2.toNat else 0) = portion paymentAsset bid.1 bid.2.toNat a x := by
  unfold portion
  rw [hst]
  refine if_congr ?_ rfl rfl
  rw [Option.some_inj, eq_comm]

theorem bidden_setBid {previous : Option (A × Balance)} (hst : b.assetOf lid = some paymentAsset)
    (hpr : b.bids.get? lid = previous) (a : AssetId) (x : A) :
    (b.setBid lid (winner, pr)).bidden a x + (previous.elim 0 fun bid => portion paymentAsset bid.1 bid.2.toNat a x) =
      b.bidden a x + portion paymentAsset winner pr.toNat a x := by
  have hsum := sumBy_insert (m := b.bids) (k := lid) (v := (winner, pr))
    (f := fun id bid => if b.assetOf id = some a ∧ x = bid.1 then bid.2.toNat else 0)
  dsimp only at hsum
  rw [stake_eq hst (winner, pr)] at hsum
  cases previous with
  | none =>
    rw [share_of_none hpr] at hsum
    exact hsum
  | some bid =>
    rw [share_of_get? hpr, stake_eq hst bid] at hsum
    exact hsum

theorem bidden_close (hst : b.assetOf lid = some paymentAsset) (hbid : b.bids.get? lid = some (winner, pr))
    (hli : b'.listings = b.listings.remove lid) (hbi : b'.bids = b.bids.remove lid) (a : AssetId)
    (x : A) :
    b'.bidden a x + portion paymentAsset winner pr.toNat a x = b.bidden a x := by
  have hsum := sumBy_remove (m := b.bids) (k := lid)
    (f := fun id bid => if b.assetOf id = some a ∧ x = bid.1 then bid.2.toNat else 0)
  rw [share_of_get? hbid, stake_eq hst (winner, pr)] at hsum
  have hoth : b'.bidden a x = (b.bids.remove lid).sumBy fun id bid =>
      if b.assetOf id = some a ∧ x = bid.1 then bid.2.toNat else 0 := by
    unfold Book.bidden Book.assetOf
    rw [hbi, hli]
    refine sumBy_congr fun id bid hget => ?_
    rw [get?_remove_ne (get?_remove_eq_some.mp hget).1]
  rw [hoth]
  exact hsum

theorem bidden_unlist (hno : b.bids.get? lid = none) (hli : b'.listings = b.listings.remove lid)
    (hbi : b'.bids = b.bids ∨ b'.bids = b.bids.remove lid) : b'.bidden = b.bidden := by
  funext a x
  have hsum : ∀ f, b'.bids.sumBy f = b.bids.sumBy f := by
    intro f
    rcases hbi with hs | hrm
    · rw [hs]
    · have hre := sumBy_remove (m := b.bids) (k := lid) (f := f)
      rw [share_of_none hno] at hre
      rw [hrm]
      exact hre
  unfold Book.bidden Book.assetOf
  rw [hsum, hli]
  refine sumBy_congr fun id bid hget => ?_
  rw [get?_remove_ne]
  rintro rfl
  cases hno.symm.trans hget

theorem bid_le_bidden (hst : b.assetOf lid = some paymentAsset)
    (hbid : b.bids.get? lid = some (winner, pr)) : pr.toNat ≤ b.bidden paymentAsset winner := by
  have hcl : ((b.unlist lid).dropBid lid).bidden paymentAsset winner + _ = _ :=
    bidden_close hst hbid rfl rfl paymentAsset winner
  rw [portion_self] at hcl
  omega

theorem offer_le_offered (hget : b.offers.get? oid = some (.simple offer)) :
    offer.amount.toNat ≤ b.offered offer.assetId offer.buyer := by
  have hre : ({ b with offers := b.offers.remove oid } : Book A).offered offer.assetId offer.buyer + _ = _ :=
    offered_remove hget rfl offer.assetId offer.buyer
  rw [portion_self] at hre
  omega

end

/-! ### The money behind the book -/

def Call.reserves {A : Type} (s : State A) : Call A → Option (AssetId × Balance)
  | .bid lid n =>
    match s.listings.get? lid with
    | some (.auction li) => some (li.paymentAsset, n)
    | _ => none
  | .makeSimpleOffer _ n aid _ => some (aid, n)
  | _ => none

def Call.payment {A : Type} (s : State A) : Call A → Option (RoyaltiesSchedule A × Balance)
  | .acceptOffer oid =>
    match s.offers.get? oid with
    | some (.simple offer) =>
      match checkBundleRoyalties s ⟨offer.tokenId, []⟩ offer.marketplaceId with
      | .ok royalties => some (royalties, offer.amount)
      | .error _ => none
    | none => none
  | _ => none

def closingPayment {A : Type} (s : State A) (lid : ListingId) : Option (RoyaltiesSchedule A × Balance) :=
  match s.listings.get? lid, s.listingWinningBid.get? lid with
  | some (.auction au), some (_, pr) => some (au.royaltiesSchedule, pr)
  | _, _ => none

section
variable {cfg : Config A} {s : State A} {org : A} {call : Call A} {b b' : Book A}
  {lid : ListingId}

theorem Book.Funded.of_eq (h : b.Funded) (hre : b'.assets.reservedOf = b.assets.reservedOf)
    (hofs : b'.offers = b.offers) (hbi : b'.bidden = b.bidden) : b'.Funded := by
  intro a x
  unfold Book.offered
  rw [hre, hofs, hbi]
  exact h a x

variable {o : SimpleOffer A} {au : AuctionListing A} {assets : GenericAsset.State A}

theorem Book.Funded.offer_covered (h : b.Funded) {oid : OfferId} (hget : b.offers.get? oid = some (.simple o)) :
    o.amount.toNat ≤ b.assets.reservedOf o.assetId o.buyer := by
  rw [h]
  exact (offer_le_offered hget).trans (Nat.le_add_right _ _)

theorem Book.Funded.bid_covered (h : b.Funded) {bid : A × Balance}
    (hget : b.listings.get? lid = some (.auction au)) (hbid : b.bids.get? lid = some bid) :
    bid.2.toNat ≤ b.assets.reservedOf au.paymentAsset bid.1 := by
  have hst : b.assetOf lid = some au.paymentAsset := congrArg (Option.map Listing.paymentAsset) hget
  rw [h]
  exact (bid_le_bidden hst hbid).trans (Nat.le_add_left _ _)

theorem Book.Funded.extend (h : b.Funded) (hget : b.listings.get? lid = some (.auction au)) :
    (b.extend lid au).Funded := by
  unfold Book.extend
  split
  · refine h.of_eq rfl rfl (bidden_congr rfl fun id bid _ => ?_)
    unfold Book.assetOf Book.postpone
    dsimp only
    rw [get?_insert]
    split_ifs with heq
    · rw [heq, hget]
      rfl
    · rfl
  · exact h

theorem Book.Funded.setBid {n : Balance} (h : b.Funded) (hget : b.listings.get? lid = some (.auction au))
    (hmo : Released assets b.assets au.paymentAsset org n.toNat) :
    ((b.pay (refund assets au.paymentAsset (b.bids.get? lid))).setBid lid (org, n)).Funded := by
  have hst : b.assetOf lid = some au.paymentAsset := congrArg (Option.map Listing.paymentAsset) hget
  generalize hpr : b.bids.get? lid = previous
  have hre : ∀ a x, (refund assets au.paymentAsset previous).reservedOf a x +
      (previous.elim 0 fun bid => portion au.paymentAsset bid.1 bid.2.toNat a x) = assets.reservedOf a x := by
    intro a x
    cases previous with
    | none => rfl
    | some bid =>
      have hle : bid.2.toNat ≤ assets.reservedOf au.paymentAsset bid.1 := by
        have hco := h.bid_covered hget hpr
        have hnew := hmo au.paymentAsset bid.1
        omega
      exact unreserve_released hle a x
  intro a x
  have hset : ((b.pay (refund assets au.paymentAsset previous)).setBid lid (org, n)).bidden a x + _ =
      b.bidden a x + _ := bidden_setBid hst hpr a x
  have hba := hre a x
  have hnew := hmo a x
  have hold := h a x
  show (refund assets au.paymentAsset previous).reservedOf a x = b.offered a x + _
  omega

theorem Book.Funded.offer (h : b.Funded) {next : OfferId} (hfr : b.offers.get? b.nextOffer = none)
    (hmo : Released assets b.assets o.assetId o.buyer o.amount.toNat) : ((b.pay assets).offer o next).Funded := by
  intro a x
  have hsum : ((b.pay assets).offer o next).offered a x = b.offered a x + _ := offered_insert hfr rfl a x
  have hnew := hmo a x
  have hold := h a x
  show assets.reservedOf a x = _ + b.bidden a x
  omega

theorem Book.Funded.strike (h : b.Funded) {oid : OfferId} {i : Nat} (hget : b.offers.get? oid = some (.simple o))
    (hle : Released b.assets assets o.assetId o.buyer o.amount.toNat) :
    ((b.pay assets).strike oid o.tokenId i).Funded := by
  intro a x
  have hsum : ((b.pay assets).strike oid o.tokenId i).offered a x + _ = b.offered a x := offered_remove hget rfl a x
  have hnew := hle a x
  have hold := h a x
  show assets.reservedOf a x = _ + b.bidden a x
  omega

theorem Book.Funded.close (h : b.Funded) {winner : A} {pr : Balance}
    (hget : b.listings.get? lid = some (.auction au)) (hbid : b.bids.get? lid = some (winner, pr))
    (hle : Released b.assets assets au.paymentAsset winner pr.toNat) :
    (((b.pay assets).unlist lid).dropBid lid).Funded := by
  intro a x
  have hst : b.assetOf lid = some au.paymentAsset := congrArg (Option.map Listing.paymentAsset) hget
  have hsum : (((b.pay assets).unlist lid).dropBid lid).bidden a x + _ = b.bidden a x :=
    bidden_close hst hbid rfl rfl a x
  have hnew := hle a x
  have hold := h a x
  show assets.reservedOf a x = b.offered a x + _
  omega

theorem Book.Funded.relist (h : b.Funded) {l : Listing A} (hno : b.bids.get? lid = none)
    (hss : b'.assets = b.assets) (hofs : b'.offers = b.offers) (hbi : b'.bids = b.bids)
    (hli : b'.listings = b.listings.insert lid l) : b'.Funded := by
  refine h.of_eq (by rw [hss]) hofs (bidden_congr hbi fun id bid hbid => ?_)
  unfold Book.assetOf
  rw [hli, get?_insert_ne]
  rintro rfl
  cases hno.symm.trans hbid

theorem Trade.funded (ht : Trade cfg s org call b) (hqu : Queued s.book) (hst : Standing s.book)
    (hrs : ∀ r ∈ call.reserves s, s.assets.reservedOf r.1 org + r.2.toNat < 2 ^ 128)
    (hwi : ∀ p ∈ call.payment s, RoyaltiesWithin cfg p.1 p.2) (h : s.book.Funded) : b.Funded := by
  cases ht with
  | same => exact h
  | opened =>
    have hno := hst.noBid fun au hau => by
      cases hst.fresh.symm.trans hau
    exact h.relist hno rfl rfl rfl rfl
  | @bought lid sale assets hget hp =>
    have hno : s.book.bids.get? lid = none := hst.noBid_of_listing hget fun _ heq => nomatch heq
    exact h.of_eq (payFixedPrice_reservedOf hp) rfl (bidden_unlist hno rfl (Or.inr rfl))
  | @bid lid n au assets hget hre =>
    have hfit := hrs (au.paymentAsset, n) (by simp only [Call.reserves, hget]; rfl)
    exact (h.setBid hget (reserveFunds_reserved hfit hre)).extend hget
  | cancelled hget hno =>
    exact h.of_eq rfl rfl (bidden_unlist (hst.noBid_of_listing hget hno) rfl (Or.inl rfl))
  | @repriced lid sale pr hget =>
    have hno : s.book.bids.get? lid = none := hst.noBid_of_listing hget fun _ heq => nomatch heq
    exact h.relist hno rfl rfl rfl rfl
  | @offered tokenId n aid mid next assets hre hx =>
    have hfit := hrs (aid, n) rfl
    exact h.offer hqu.fresh (reserveFunds_reserved hfit hre)
  | @withdrawn oid offer i hget hbu hix =>
    subst hbu
    exact h.strike hget (unreserve_released (h.offer_covered hget))
  | @accepted oid offer i roy assets hget hro hp hix =>
    have hfit := hwi (roy, offer.amount) (by simp only [Call.payment, hget, hro]; rfl)
    exact h.strike hget (payReserved_released hfit (h.offer_covered hget) hp)

theorem Closure.funded (hc : Closure cfg s lid b) (hst : Standing s.book)
    (hwi : ∀ p ∈ closingPayment s lid, RoyaltiesWithin cfg p.1 p.2) (h : s.book.Funded) : b.Funded := by
  cases hc with
  | absent => exact h
  | unsold hget hno =>
    exact h.of_eq rfl rfl (bidden_unlist (hst.noBid_of_listing hget hno) rfl (Or.inl rfl))
  | @settled au winner pr assets hget hbid hp =>
    have hfit := hwi (au.royaltiesSchedule, pr) (by simp only [closingPayment, hget, hbid]; rfl)
    exact h.close hget hbid (payReserved_released hfit (h.bid_covered hget hbid) hp)
  | @failed au winner pr hget hbid =>
    exact h.close hget hbid (unreserve_released (h.bid_covered hget hbid))

end

/-- A step of the pallet, or what another pallet makes of the ledger. -/
inductive Event (A : Type) where
  | nft (op : Op A)
  | ledger (assets : GenericAsset.State A)

structure Backed (b : Book A) : Prop where
  queued : Queued b
  standing : Standing b
  funded : b.Funded

theorem genesis_backed {assets : GenericAsset.State A} (hey : ∀ aid who, assets.reserved aid who = 0) :
    Backed (State.genesis assets).book := by
  refine ⟨⟨fun _ _ hget => ?_, fun _ => List.Pairwise.nil, fun _ _ hmem => ?_⟩,
    ⟨fun _ _ hget => ?_, fun _ _ hget => ?_⟩, fun aid who => congrArg BitVec.toNat (hey aid who)⟩
  · cases hget
  · cases hmem
  · cases hget
  · cases hget

section
variable [Inhabited A] {cfg : Config A} {s : State A}

def play (cfg : Config A) (s : State A) : Event A → State A
  | .nft op => step cfg s op
  | .ledger assets => { s with assets := assets }

/-- What is reserved fits the reserved balance, and what is settled has royalties within its price. -/
def MoneySound (cfg : Config A) (s : State A) : Op A → Prop
  | .call org call =>
    (∀ r ∈ call.reserves s, s.assets.reservedOf r.1 org + r.2.toNat < 2 ^ 128) ∧
      ∀ p ∈ call.payment s, RoyaltiesWithin cfg p.1 p.2
  | .onInitialize now => Each (closeListing cfg)
    (fun s lid => ∀ p ∈ closingPayment s lid, RoyaltiesWithin cfg p.1 p.2) (startClosing s now)
    (scheduledAt cfg s now)

instance {A : Type} (cfg : Config A) (r : RoyaltiesSchedule A) (pr : Balance) :
    Decidable (RoyaltiesWithin cfg r pr) := inferInstanceAs (Decidable (_ ≤ _))

-- what is reserved and paid is read off the call: left to itself, instance search tries all amounts
instance (cfg : Config A) (s : State A) : ∀ op, Decidable (MoneySound cfg s op)
  | .call org call =>
    haveI : Decidable (∀ r ∈ call.reserves s, s.assets.reservedOf r.1 org + r.2.toNat < 2 ^ 128) :=
      Option.decidableForallMem _
    haveI : Decidable (∀ p ∈ call.payment s, RoyaltiesWithin cfg p.1 p.2) := Option.decidableForallMem _
    inferInstanceAs (Decidable (_ ∧ _))
  | .onInitialize now => inferInstanceAs (Decidable (Each (closeListing cfg)
    (fun s lid => ∀ p ∈ closingPayment s lid, RoyaltiesWithin cfg p.1 p.2) (startClosing s now)
    (scheduledAt cfg s now)))

def EventSound (cfg : Config A) (s : State A) : Event A → Prop
  | .nft op => MoneySound cfg s op
  | .ledger assets => ∀ aid who, assets.reserved aid who = s.assets.reserved aid who

theorem each_nft {ops : List (Op A)} :
    Each (play cfg) (EventSound cfg) s (ops.map .nft) ↔ Each (step cfg) (MoneySound cfg) s ops := by
  induction ops generalizing s with
  | nil => exact Iff.rfl
  | cons op ops ih => exact and_congr Iff.rfl ih

def OffersFound (cfg : Config A) (s : State A) : Prop :=
  ∀ org oid, cancelOffer cfg s org oid ≠ .error .panicked ∧ acceptOffer cfg s org oid ≠ .error .panicked

theorem step_backed (hse : FindsSorted cfg.binarySearch) {op : Op A} (hso : MoneySound cfg s op)
    (h : Backed s.book) : Backed (step cfg s op).book := by
  cases op with
  | call org call =>
    rw [step_call]
    refine getD_cases (P := fun s : State A => Backed s.book) (fun s₁ hca => ?_) h
    have ht := (dispatch_trade_filed hca).1
    exact ⟨ht.queued hse h.queued, ht.standing h.standing, ht.funded h.queued h.standing hso.1 hso.2 h.funded⟩
  | onInitialize now =>
    rw [step_onInitialize]
    have hst : Backed (startClosing s now).book :=
      ⟨h.queued.of_eq rfl rfl rfl, ⟨h.standing.auctioned, h.standing.ids⟩, h.funded⟩
    refine Each.invariant (I := fun s : State A => Backed s.book) ?_ hso hst
    intro s₁ lid hwi h₁
    have hc := (closeListing_closed cfg s₁ lid default []).1
    exact ⟨hc.queued h₁.queued, hc.standing h₁.standing, hc.funded h₁.standing hwi h₁.funded⟩

theorem play_backed (hse : FindsSorted cfg.binarySearch) {ev : Event A} (hso : EventSound cfg s ev)
    (h : Backed s.book) : Backed (play cfg s ev).book := by
  cases ev with
  | nft op => exact step_backed hse hso h
  | ledger assets =>
    refine ⟨h.queued.of_eq rfl rfl rfl, ⟨h.standing.auctioned, h.standing.ids⟩, h.funded.of_eq ?_ rfl rfl⟩
    funext aid who
    exact congrArg BitVec.toNat (hso aid who)

/-- From a ledger with nothing reserved on, every reserved balance is the sum of the open offers and winning bids of its
account. -/
theorem market_funded (cfg : Config A) (hsearch : FindsSorted cfg.binarySearch) (assets : GenericAsset.State A)
    (hempty : ∀ assetId who, assets.reserved assetId who = 0) (events : List (Event A))
    (hsound : Each (play cfg) (EventSound cfg) (.genesis assets) events) :
    ∀ done, done <+: events → (execute (play cfg) (.genesis assets) done).book.Funded ∧
      OffersFound cfg (execute (play cfg) (.genesis assets) done) := by
  intro done hdo
  have h := hsound.throughout (I := fun s : State A => Backed s.book) (fun _ _ => play_backed hsearch)
    (genesis_backed hempty) hdo
  refine ⟨h.funded, fun org oid => ⟨fun hpa => ?_, fun hpa => ?_⟩⟩
  · exact (cancelOffer_ends hsearch h.queued).error hpa rfl
  · exact (acceptOffer_ends hsearch h.queued).error hpa rfl

end

/-! ### An auction and an offer -/

theorem plainConfig_findsSorted : FindsSorted plainConfig.binarySearch := by
  intro ids id _ hmem
  cases hix : ids.idxOf? id with
  | none => exact absurd hmem (idxOf?_eq_none_iff.mp hix)
  | some i =>
    obtain ⟨hlt, hat, -⟩ := idxOf?_eq_some_iff.mp hix
    exact ⟨i, hix, List.getElem?_eq_some_iff.mpr ⟨hlt, hat⟩⟩

/-- Account 1 auctions its first token. Account 2 bids 7, offers 9 for the second token, and wins at block 40, to which
its bid has put off the end. Then the offer is accepted. -/
def soldBoth : List (Op Nat) := [
  .call 1 (.createCollection [97] none),
  .call 1 (.mintSeries 0 2 none (.https [97]) none),
  .call 1 (.auctionBundle [(0, 0, 0)] 1 5 (some 3) none),
  .call 2 (.bid 0 7),
  .call 2 (.makeSimpleOffer (0, 0, 1) 9 1 none),
  .onInitialize 40,
  .call 1 (.acceptOffer 0)]

theorem soldBoth_funded :
    (soldBoth.inits.map fun done => (execute (step plainConfig) fundedBuyer done).assets.reservedOf 1 2) =
      [0, 0, 0, 0, 7, 16, 9, 0] ∧
    ∀ done, done <+: soldBoth.map .nft → (execute (play plainConfig) fundedBuyer done).book.Funded ∧
      OffersFound plainConfig (execute (play plainConfig) fundedBuyer done) := by
  refine ⟨by decide, market_funded plainConfig plainConfig_findsSorted _ (fun _ _ => rfl) _ ?_⟩
  exact each_nft.mpr (by decide)

end Nft
