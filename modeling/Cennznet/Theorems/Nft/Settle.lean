import Cennznet.Theorems.Nft.Records

/-! # What a settlement moves

Tokens are named by the series of the first one and the serial numbers of all. -/

namespace Nft

open GenericAsset (AssetId Balance)
open Result Steps

variable {A : Type} [Inhabited A]

/-- The tokens become the buyer's, no other token changes hands, and what changes hands was the seller's. -/
structure MovesExactly (s s' : State A) (tokens : List TokenId) (seller buyer : A) : Prop where
  sold : ∀ t ∈ tokens, s'.ownerOf t = buyer
  others : ∀ t, t ∉ tokens → s'.ownerOf t = s.ownerOf t
  fromSeller : ∀ t, s'.ownerOf t ≠ s.ownerOf t → s.ownerOf t = seller

/-- Each token is of the first token's series, or the buyer's already; and each that settlement moves is in the bundle
and the seller's, or the buyer's already. -/
structure Deliverable (s : State A) (b : Bundle) (seller buyer : A) : Prop where
  named : ∀ t ∈ b.tokens, b.settled t = t ∨ s.ownerOf t = buyer
  held : ∀ t ∈ b.tokens, s.ownerOf (b.settled t) = buyer ∨ (b.settled t ∈ b.tokens ∧ s.ownerOf (b.settled t) = seller)

section
variable {s s' : State A} {b : Bundle} {seller buyer : A}

theorem ownerOf_of_settle (h : s'.records.owner = (s.records.settle b buyer).owner) (t : TokenId) :
    s'.ownerOf t = if t ∈ b.tokens.map b.settled then buyer else s.ownerOf t := by
  have hkey : ownerKey t ∈ b.tokens.map (fun t => ownerKey (b.settled t)) ↔ t ∈ b.tokens.map b.settled := by
    rw [← List.mem_map_of_injective ownerKey_injective, List.map_map]
    rfl
  show s'.records.owner.getD (ownerKey t) default = _
  rw [h]
  unfold Records.settle Records.give StorageMap.getD
  rw [StorageMap.get?_insertAll]
  by_cases ht : t ∈ b.tokens.map b.settled
  · rw [if_pos (hkey.mpr ht), if_pos ht]
    rfl
  · rw [if_neg (fun h' => ht (hkey.mp h')), if_neg ht]
    rfl

theorem settled_of_mem_map {t : TokenId} (h : t ∈ b.tokens.map b.settled) : b.settled t = t := by
  obtain ⟨u, -, rfl⟩ := List.mem_map.mp h
  rfl

theorem movesExactly_iff_deliverable (h : s'.records.owner = (s.records.settle b buyer).owner) :
    MovesExactly s s' b.tokens seller buyer ↔ Deliverable s b seller buyer := by
  have hwn := ownerOf_of_settle h
  have hbu : ∀ t ∈ b.tokens, s'.ownerOf (b.settled t) = buyer := by
    intro t ht
    rw [hwn, if_pos (List.mem_map_of_mem ht)]
  constructor
  · intro hmo
    refine ⟨fun t ht => ?_, fun t ht => ?_⟩
    · by_cases hmem : t ∈ b.tokens.map b.settled
      · exact Or.inl (settled_of_mem_map hmem)
      · have hso := hmo.sold t ht
        rw [hwn, if_neg hmem] at hso
        exact Or.inr hso
    · by_cases hhas : s.ownerOf (b.settled t) = buyer
      · exact Or.inl hhas
      · -- the token changes hands, so it must be one of the bundle and the seller's
        have hch : s'.ownerOf (b.settled t) ≠ s.ownerOf (b.settled t) := by
          rw [hbu t ht]
          exact Ne.symm hhas
        refine Or.inr ⟨?_, hmo.fromSeller _ hch⟩
        by_contra hoth
        exact hch (hmo.others _ hoth)
  · intro hde
    refine ⟨fun t ht => ?_, fun t ht => ?_, fun t hch => ?_⟩
    · rcases hde.named t ht with hs | hhas
      · rw [← hs]
        exact hbu t ht
      · rw [hwn, hhas, ite_self]
    · rw [hwn]
      split_ifs with hmem
      · obtain ⟨u, hu, rfl⟩ := List.mem_map.mp hmem
        rcases hde.held u hu with hhas | ⟨hin, -⟩
        · exact hhas.symm
        · exact absurd hin ht
      · rfl
    · by_cases hmem : t ∈ b.tokens.map b.settled
      · obtain ⟨u, hu, rfl⟩ := List.mem_map.mp hmem
        rcases hde.held u hu with hhas | ⟨-, hse⟩
        · exact absurd ((hbu u hu).trans hhas.symm) hch
        · exact hse
      · rw [hwn, if_neg hmem] at hch
        exact absurd rfl hch

/-! ### The three settlements -/

variable [DecidableEq A] {cfg : Config A}

theorem buy_movesExactly_iff {o : A} {id : ListingId} {li : FixedPriceListing A}
    (hli : s.listings.get? id = some (.fixedPrice li)) (h : buy cfg s o id = .ok s') :
    MovesExactly s s' li.bundle.tokens li.seller o ↔ Deliverable s li.bundle li.seller o := by
  obtain ⟨li', hli', hre⟩ := buy_inv h
  obtain rfl : li = li' := by
    rw [hli] at hli'
    cases hli'
    rfl
  refine movesExactly_iff_deliverable ?_
  rw [hre]
  rfl

theorem acceptOffer_movesExactly {o : A} {oid : OfferId} {offer : SimpleOffer A}
    (hof : s.offers.get? oid = some (.simple offer)) (h : acceptOffer cfg s o oid = .ok s') :
    MovesExactly s s' [offer.tokenId] o offer.buyer := by
  obtain ⟨offer', hof', hwn, hre⟩ := acceptOffer_inv h
  obtain rfl : offer = offer' := by
    rw [hof] at hof'
    cases hof'
    rfl
  refine (movesExactly_iff_deliverable (b := ⟨offer.tokenId, []⟩) (congrArg Records.owner hre)).mpr ⟨?_, ?_⟩
  · intro t ht
    obtain rfl : t = offer.tokenId := List.mem_singleton.mp ht
    exact Or.inl rfl
  · intro t ht
    obtain rfl : t = offer.tokenId := List.mem_singleton.mp ht
    exact Or.inr ⟨List.mem_singleton_self _, hwn⟩

end

/-! ### Settlements of a run -/

structure Settlement (A : Type) where
  bundle : Bundle
  seller : A
  buyer : A

def Call.settlement (s : State A) (o : A) : Call A → Option (Settlement A)
  | .buy lid =>
    match s.listings.get? lid with
    | some (.fixedPrice li) => some ⟨li.bundle, li.seller, o⟩
    | _ => none
  | .acceptOffer offerId =>
    match s.offers.get? offerId with
    | some (.simple offer) => some ⟨⟨offer.tokenId, []⟩, o, offer.buyer⟩
    | none => none
  | _ => none

section
variable [DecidableEq A] {cfg : Config A} {s s' : State A}

/-- What closing a listing settles: an auction with a winning bid that is paid for. -/
def closingSettlement (cfg : Config A) (s : State A) (lid : ListingId) : Option (Settlement A) :=
  match s.listings.get? lid, s.listingWinningBid.get? lid with
  | some (.auction li), some (winner, p) =>
    match payReserved cfg s.assets winner li.seller li.paymentAsset p li.royaltiesSchedule with
    | .ok _ => some ⟨li.bundle, li.seller, winner⟩
    | .error _ => none
  | _, _ => none

def startClosing (s : State A) (now : BlockNumber) : State A :=
  { s with blockNumber := now, listingEndSchedule := s.listingEndSchedule.removePrefix now }

theorem step_call {o : A} {call : Call A} : step cfg s (.call o call) = Result.getD (dispatch cfg s o call) s := by
  cases hc : dispatch cfg s o call <;> simp only [step, hc, getD]

theorem step_onInitialize {now : BlockNumber} : step cfg s (.onInitialize now) =
    execute (closeListing cfg) (startClosing s now) (scheduledAt cfg s now) := rfl

def SettlesExactly (cfg : Config A) (s : State A) : Op A → Prop
  | .call o call => ∀ x ∈ call.settlement s o, ∀ s', dispatch cfg s o call = .ok s' →
    MovesExactly s s' x.bundle.tokens x.seller x.buyer
  | .onInitialize now => Each (closeListing cfg) (fun s lid => ∀ x ∈ closingSettlement cfg s lid,
    MovesExactly s (closeListing cfg s lid) x.bundle.tokens x.seller x.buyer) (startClosing s now)
    (scheduledAt cfg s now)

/-- Each bundle sold or won in the step can be delivered; nothing is asked of offers. -/
def SettlesDeliverable (cfg : Config A) (s : State A) : Op A → Prop
  | .call o (.buy lid) => ∀ x ∈ (Call.buy lid).settlement s o, ∀ s',
    buy cfg s o lid = .ok s' → Deliverable s x.bundle x.seller x.buyer
  | .call _ _ => True
  | .onInitialize now => Each (closeListing cfg) (fun s lid => ∀ x ∈ closingSettlement cfg s lid,
    Deliverable s x.bundle x.seller x.buyer) (startClosing s now) (scheduledAt cfg s now)

theorem closing_movesExactly_iff {id : ListingId} {x : Settlement A} (hx : x ∈ closingSettlement cfg s id) :
    MovesExactly s (closeListing cfg s id) x.bundle.tokens x.seller x.buyer ↔
      Deliverable s x.bundle x.seller x.buyer := by
  unfold closingSettlement at hx
  split at hx
  · rename_i l winner p hli hbid
    split at hx
    · rename_i assets hp
      cases hx
      refine movesExactly_iff_deliverable ?_
      rw [closeListing_of_paid hli hbid hp]
      rfl
    · cases hx
  · cases hx

theorem call_settlesExactly_iff {o : A} {call : Call A} :
    SettlesExactly cfg s (.call o call) ↔ SettlesDeliverable cfg s (.call o call) := by
  cases call with
  | buy id =>
    refine forall₂_congr fun x hx => forall₂_congr fun s' hbuy => ?_
    simp only [Call.settlement] at hx
    split at hx
    · rename_i l hli
      cases hx
      exact buy_movesExactly_iff hli hbuy
    · cases hx
  | acceptOffer oid =>
    refine iff_of_true (fun x hx s' hac => ?_) trivial
    simp only [Call.settlement] at hx
    split at hx
    · rename_i offer hof
      cases hx
      exact acceptOffer_movesExactly hof hac
    · cases hx
  | _ =>
    refine iff_of_true (fun x hx => ?_) trivial
    cases hx

theorem settlesExactly_iff {op : Op A} : SettlesExactly cfg s op ↔ SettlesDeliverable cfg s op := by
  cases op with
  | call o call => exact call_settlesExactly_iff
  | onInitialize now => exact each_congr fun _ _ => forall₂_congr fun _ hx => closing_movesExactly_iff hx

/-- In every run, each settlement moves exactly its tokens if and only if each bundle sold, directly or by auction, is
deliverable when it is settled. -/
theorem run_settlesExactly_iff (cfg : Config A) (assets : GenericAsset.State A) (ops : List (Op A)) :
    Each (step cfg) (SettlesExactly cfg) (.genesis assets) ops ↔
      Each (step cfg) (SettlesDeliverable cfg) (.genesis assets) ops :=
  each_congr fun _ _ => settlesExactly_iff

end

/-! ### A bundle of two series -/

def plainConfig : Config Nat where
  assets := ⟨0⟩
  defaultListingDuration := 100
  permillMul := fun share n => BitVec.ofNat 128 (share.toNat * n.toNat / permillAccuracy)
  binarySearch := fun ids id => ids.idxOf? id
  listingOrder := fun a b => decide (a.toNat ≤ b.toNat)

def fundedBuyer : State Nat := .genesis (GenericAsset.setFreeBalance (.genesis 17000) 1 2 1000)

/-- Account 1 mints two series of two tokens, gives the second token of the first to account 3, and sells the first
together with the second token of the second series. -/
def mixedSale : List (Op Nat) := [
  .call 1 (.createCollection [97] none),
  .call 1 (.mintSeries 0 2 none (.https [97]) none),
  .call 1 (.mintSeries 0 2 none (.https [97]) none),
  .call 1 (.transfer (0, 0, 1) 3),
  .call 1 (.sellBundle [(0, 0, 0), (0, 1, 1)] none 1 0 none none)]

/-- Account 2 buys the bundle: the token of account 3 becomes its own, and the bundle's second does not. -/
theorem mixed_bundle_takes_from_stranger :
    (∃ s s', execute (step plainConfig) fundedBuyer mixedSale = s ∧ buy plainConfig s 2 0 = .ok s' ∧
      s.ownerOf (0, 0, 1) = 3 ∧ s'.ownerOf (0, 0, 1) = 2 ∧ s'.ownerOf (0, 1, 1) = 1) ∧
    ¬Each (step plainConfig) (SettlesExactly plainConfig) fundedBuyer (mixedSale ++ [.call 2 (.buy 0)]) := by
  obtain ⟨s, s', hrun, hbuy, sale, hsa, hin, hbe, haf, hun⟩ : ∃ s s',
      execute (step plainConfig) fundedBuyer mixedSale = s ∧ buy plainConfig s 2 0 = .ok s' ∧
      ∃ sale, (Call.buy 0).settlement s 2 = some sale ∧ sale = ⟨⟨(0, 0, 0), [(0, 1, 1)]⟩, 1, 2⟩ ∧
        s.ownerOf (0, 0, 1) = 3 ∧ s'.ownerOf (0, 0, 1) = 2 ∧ s'.ownerOf (0, 1, 1) = 1 :=
    ⟨_, _, rfl, rfl, _, rfl, rfl, rfl, rfl, rfl⟩
  refine ⟨⟨s, s', hrun, hbuy, hbe, haf, hun⟩, fun hex => ?_⟩
  have hl := (each_append.mp hex).2.1
  rw [hrun] at hl
  subst hin
  have hso := (hl _ hsa s' hbuy).sold (0, 1, 1) (List.mem_cons_of_mem _ List.mem_cons_self)
  rw [hun] at hso
  cases hso

end Nft
