import Cennznet.Theorems.Nft.Listed

/-! # Token counts

Owners are written one by one, counts by the length of the list. -/

namespace Nft

open GenericAsset (AssetId Balance)
open Result StorageMap Word Steps List

variable {A : Type} [DecidableEq A]

def State.balanceOf (s : State A) (who : A) (key : SeriesKey) : TokenCount :=
  (s.tokenBalance.getD who ∅).getD key 0

def State.owned (s : State A) (who : A) (key : SeriesKey) : Nat :=
  (s.tokenOwner.iterPrefix key).countP fun e => e.2 = who

def CountsOwned (s : State A) : Prop := ∀ who key, (s.balanceOf who key).toNat = s.owned who key

section
variable {s s' : State A} {who cur dst : A} {key : SeriesKey} {qty : TokenCount}

theorem balanceOf_increaseBalance (a : A) (k : SeriesKey) : (increaseBalance s who key qty).balanceOf a k =
      if a = who ∧ k = key then s.balanceOf a k + qty else s.balanceOf a k := by
  unfold State.balanceOf increaseBalance
  dsimp only
  rw [getD_insert]
  by_cases ha : a = who
  · subst ha
    rw [if_pos rfl, getD_insert]
    by_cases hk : k = key <;> simp [hk]
  · simp [ha]

theorem getD_dropZero {balances : StorageMap SeriesKey TokenCount} {nb : TokenCount} (k : SeriesKey) :
    (if nb = 0 then balances.remove key else balances.insert key nb).getD k 0 =
      if k = key then nb else balances.getD k 0 := by
  by_cases hz : nb = 0
  · rw [if_pos hz, getD_remove, hz]
  · rw [if_neg hz, getD_insert]

theorem balanceOf_decreaseBalance (a : A) (k : SeriesKey) : ((decreaseBalance s who key qty).getD s).balanceOf a k =
      if a = who ∧ k = key then saturatingSub (s.balanceOf a k) qty else s.balanceOf a k := by
  cases hget : (s.tokenBalance.getD who ∅).get? key with
  | none =>
    simp only [decreaseBalance, hget, Option.bind_eq_bind, Option.bind_none, Option.getD_none]
    split_ifs with heq
    · obtain ⟨rfl, rfl⟩ := heq
      have hn : s.balanceOf a k = 0 := by
        rw [State.balanceOf, StorageMap.getD, hget]
        rfl
      apply BitVec.eq_of_toNat_eq
      rw [toNat_saturatingSub, hn]
      simp
    · rfl
  | some balance =>
    have hco : (s.tokenBalance.getD who ∅).getD key 0 = balance := getD_of_get? hget
    simp only [decreaseBalance, hget, Option.bind_eq_bind, Option.bind_some, Option.pure_def, Option.getD_some]
    unfold State.balanceOf
    dsimp only
    rw [getD_insert]
    by_cases ha : a = who
    · subst ha
      rw [if_pos rfl, getD_dropZero, ← hco]
      by_cases hk : k = key <;> simp [hk]
    · simp [ha]

theorem balanceOf_of_decreaseBalance (h : decreaseBalance s who key qty = some s') (a : A) (k : SeriesKey) :
    s'.balanceOf a k = if a = who ∧ k = key then saturatingSub (s.balanceOf a k) qty else s.balanceOf a k := by
  have hco : ((decreaseBalance s who key qty).getD s).balanceOf a k = _ := balanceOf_decreaseBalance a k
  rw [h] at hco
  exact hco

theorem balanceOf_moveBalance (hco : qty.toNat ≤ (s.balanceOf cur key).toNat)
    (hf : dst = cur ∨ (s.balanceOf dst key).toNat + qty.toNat < 2 ^ 32) (a : A)
    (k : SeriesKey) :
    ((moveBalance s cur dst key qty).balanceOf a k).toNat + (if a = cur ∧ k = key then qty.toNat else 0) =
      (s.balanceOf a k).toNat + if a = dst ∧ k = key then qty.toNat else 0 := by
  have hk : (s.balanceOf a k).toNat < 2 ^ 32 := (s.balanceOf a k).isLt
  unfold moveBalance
  rw [balanceOf_increaseBalance, balanceOf_decreaseBalance]
  by_cases hnew : a = dst ∧ k = key <;> by_cases hcur : a = cur ∧ k = key
  · rw [if_pos hnew, if_pos hcur, if_pos hcur, if_pos hnew, BitVec.toNat_add, toNat_saturatingSub]
    obtain ⟨rfl, rfl⟩ := hcur
    rw [Nat.sub_add_cancel hco, Nat.mod_eq_of_lt hk]
  · rw [if_pos hnew, if_neg hcur, if_neg hcur, if_pos hnew, BitVec.toNat_add]
    obtain ⟨rfl, rfl⟩ := hnew
    rcases hf with rfl | hf
    · exact absurd ⟨rfl, rfl⟩ hcur
    · rw [Nat.mod_eq_of_lt hf, Nat.add_zero]
  · rw [if_neg hnew, if_pos hcur, if_pos hcur, if_neg hnew, toNat_saturatingSub]
    obtain ⟨rfl, rfl⟩ := hcur
    omega
  · rw [if_neg hnew, if_neg hcur, if_neg hcur, if_neg hnew]

end

section
variable {s s' : State A} {cur dst : A} {key : SeriesKey} {ns : List SerialNumber}

theorem Counted.owned_lt (h : Counted s.records) (who : A) (key : SeriesKey) : s.owned who key < 2 ^ 32 := by
  have hinj : Function.Injective (BitVec.toNat : SerialNumber → Nat) := fun _ _ => BitVec.eq_of_toNat_eq
  have hle := countP_iterPrefix_le (m := s.tokenOwner) (a := key) (fun v => v = who) hinj
    fun n owner hget => (h.minted key n owner hget).2
  exact Nat.lt_of_le_of_lt hle (BitVec.isLt _)

theorem owned_setTokenOwners (hdi : ns.Nodup) {o : Option A} (hhe : ∀ n ∈ ns, s.tokenOwner.get? (key, n) = o)
    (hwn : s'.tokenOwner = setTokenOwners s.tokenOwner key dst ns) (a : A) (k : SeriesKey) :
    s'.owned a k + (if k = key ∧ o = some a then ns.length else 0) =
      s.owned a k + if a = dst ∧ k = key then ns.length else 0 := by
  have hco := countP_iterPrefix_insertAll (v := dst) (fun v => v = a) k hdi hhe
  have hfr : (key = k ∧ o.any (fun v => decide (v = a)) = true) ↔ (k = key ∧ o = some a) := by
    cases o <;> simp [eq_comm]
  have hto : (key = k ∧ decide (dst = a) = true) ↔ (a = dst ∧ k = key) := by
    rw [decide_eq_true_iff, and_comm, eq_comm (a := a), eq_comm (a := k)]
  unfold State.owned
  rw [hwn]
  simp only [hfr, hto] at hco
  exact hco

section
variable (hdi : ns.Nodup) (hhe : ∀ n ∈ ns, s.tokenOwner.get? (key, n) = some cur)
include hdi hhe

theorem length_le_owned : ns.length ≤ s.owned cur key := by
  have hco := countP_iterPrefix_removeAll (fun v => v = cur) key hdi hhe
  rw [if_pos ⟨rfl, by simp⟩] at hco
  exact Nat.le.intro ((Nat.add_comm _ _).trans hco)

theorem CountsOwned.length_toNat (h : CountsOwned s) :
    (BitVec.ofNat 32 ns.length).toNat = ns.length := by
  rw [BitVec.toNat_ofNat]
  refine Nat.mod_eq_of_lt (Nat.lt_of_le_of_lt (length_le_owned hdi hhe) ?_)
  rw [← h cur key]
  exact BitVec.isLt _

theorem CountsOwned.transfer (h : CountsOwned s)
    (hf : (doTransferUnchecked s key ns cur dst).owned dst key < 2 ^ 32) :
    CountsOwned (doTransferUnchecked s key ns cur dst) := by
  have hset : (doTransferUnchecked s key ns cur dst).tokenOwner =
      setTokenOwners s.tokenOwner key dst ns := congrArg Records.owner doTransferUnchecked_records
  have hwn := owned_setTokenOwners hdi hhe hset
  have hco := length_le_owned hdi hhe
  have hcu := h cur key
  have hqu := h.length_toNat hdi hhe
  have hr : dst = cur ∨ (s.balanceOf dst key).toNat + ns.length < 2 ^ 32 := by
    rcases eq_or_ne dst cur with heq | hne
    · exact Or.inl heq
    · have hnew := hwn dst key
      rw [if_neg (fun hc => hne (Option.some.inj hc.2).symm), if_pos ⟨rfl, rfl⟩] at hnew
      rw [h dst key]
      exact Or.inr (by omega)
  rw [← hqu] at hco hr
  intro a k
  have hmo : ((doTransferUnchecked s key ns cur dst).balanceOf a k).toNat +
      (if a = cur ∧ k = key then (BitVec.ofNat 32 ns.length).toNat else 0) =
      (s.balanceOf a k).toNat + if a = dst ∧ k = key then (BitVec.ofNat 32 ns.length).toNat else 0 := by
    unfold doTransferUnchecked
    refine balanceOf_moveBalance ?_ ?_ a k
    · exact hco.trans_eq hcu.symm
    · exact hr
  have hbo := hwn a k
  have hs : (k = key ∧ some cur = some a) ↔ (a = cur ∧ k = key) := by
    rw [Option.some_inj, and_comm, eq_comm]
  simp only [hs] at hbo
  rw [hqu, h a k] at hmo
  omega

end

theorem nodup_serialRange (first last : SerialNumber) : (serialRange first last).Nodup := by
  unfold serialRange
  refine List.Nodup.map_on (fun m hm n hn heq => ?_) nodup_range'
  have hl := last.isLt
  have hm' := mem_range'_1.mp hm
  have hn' := mem_range'_1.mp hn
  have htn := congrArg BitVec.toNat heq
  rw [BitVec.toNat_ofNat, BitVec.toNat_ofNat, Nat.mod_eq_of_lt (by omega), Nat.mod_eq_of_lt (by omega)] at htn
  exact htn

theorem length_serialRange {first : SerialNumber} {qty : TokenCount} (hfit : first.toNat + qty.toNat < 2 ^ 32) :
    (serialRange first (first + qty)).length = qty.toNat := by
  unfold serialRange
  rw [length_map, length_range', BitVec.toNat_add_of_lt hfit, Nat.add_sub_cancel_left]

theorem CountsOwned.mint (h : CountsOwned s) {first : SerialNumber} {qty : TokenCount}
    (hfit : first.toNat + qty.toNat < 2 ^ 32)
    (hfr : ∀ n, first.toNat ≤ n.toNat → s.tokenOwner.get? (key, n) = none)
    (hf : (doMint s dst key first qty).owned dst key < 2 ^ 32) :
    CountsOwned (doMint s dst key first qty) := by
  by_cases hpos : 0 < qty.toNat
  · have hwn : (doMint s dst key first qty).tokenOwner =
        setTokenOwners s.tokenOwner key dst (serialRange first (first + qty)) := by
      unfold doMint
      rw [if_pos hpos]
      rfl
    have howned := owned_setTokenOwners (o := none) (nodup_serialRange first (first + qty))
      (fun n hn => hfr n (mem_serialRange.mp hn).1) hwn
    have hco : ∀ a k, (doMint s dst key first qty).balanceOf a k =
        if a = dst ∧ k = key then s.balanceOf a k + qty else s.balanceOf a k := by
      intro a k
      have hba : (doMint s dst key first qty).tokenBalance = (increaseBalance s dst key qty).tokenBalance := by
        unfold doMint
        rw [if_pos hpos]
        rfl
      rw [← balanceOf_increaseBalance]
      unfold State.balanceOf
      rw [hba]
    intro a k
    have hbo := howned a k
    rw [if_neg (fun hc => nomatch hc.2), length_serialRange hfit, Nat.add_zero] at hbo
    rw [hco, hbo]
    split_ifs with heq
    · obtain ⟨rfl, rfl⟩ := heq
      rw [if_pos ⟨rfl, rfl⟩] at hbo
      rw [BitVec.toNat_add_of_lt (by rw [h a k]; omega), h a k]
    · exact h a k
  · unfold doMint
    rw [if_neg hpos]
    exact h

theorem CountsOwned.burn (h : CountsOwned s) {org : A} (hdi : ns.Nodup)
    (hhe : ∀ n ∈ ns, s.tokenOwner.get? (key, n) = some org) {s₁ s₂ : State A}
    (hwn : s₁.tokenOwner = s.tokenOwner.removeAll (ns.map fun n => (key, n)))
    (hba : s₁.tokenBalance = s.tokenBalance)
    (hde : decreaseBalance s₁ org key (BitVec.ofNat 32 ns.length) = some s₂) : CountsOwned s₂ := by
  have hqu := h.length_toNat hdi hhe
  have how₂ : s₂.tokenOwner = s.tokenOwner.removeAll (ns.map fun n => (key, n)) :=
    (congrArg Records.owner (decreaseBalance_records hde)).trans hwn
  intro a k
  have hbu : s₂.owned a k + (if a = org ∧ k = key then ns.length else 0) = s.owned a k := by
    have hco := countP_iterPrefix_removeAll (fun v => v = a) k hdi hhe
    have hfr : (key = k ∧ (some org).any (fun v => decide (v = a)) = true) ↔ (a = org ∧ k = key) := by
      simp [eq_comm, and_comm]
    simp only [hfr] at hco
    unfold State.owned
    rw [how₂]
    exact hco
  have hk : s₁.balanceOf a k = s.balanceOf a k := by
    unfold State.balanceOf
    rw [hba]
  rw [balanceOf_of_decreaseBalance hde, hk]
  have hbe := h a k
  split_ifs with heq
  · rw [if_pos heq] at hbu
    rw [toNat_saturatingSub, hqu]
    omega
  · rw [if_neg heq] at hbu
    omega

end

def Book.Distinct {A : Type} (b : Book A) : Prop :=
  ∀ lid listing, b.listings.get? lid = some listing → listing.bundle.tokens.Nodup

section
variable {cfg : Config A} {s : State A} {org : A} {call : Call A}
  {b b' : Book A} {lid : ListingId}

theorem Book.Distinct.insert {A : Type} {b b' : Book A} (h : b.Distinct) {li : Listing A}
    (hli : b'.listings = b.listings.insert lid li) (hdi : li.bundle.tokens.Nodup) :
    b'.Distinct := by
  intro id l hget
  rw [hli] at hget
  rcases get?_insert_eq_some.mp hget with ⟨-, rfl⟩ | ⟨-, hold⟩
  · exact hdi
  · exact h id l hold

theorem Book.Distinct.remove {A : Type} {b b' : Book A} (h : b.Distinct)
    (hli : b'.listings = b.listings.remove lid) : b'.Distinct := by
  intro id l hget
  rw [hli] at hget
  exact h id l (get?_remove_eq_some.mp hget).2

theorem Trade.distinct (ht : Trade cfg s org call b) (h : s.book.Distinct) : b.Distinct := by
  cases ht with
  | same => exact h
  | opened _ _ _ hdi => exact h.insert rfl hdi
  | bought => exact h.remove rfl
  | @bid lid n au assets hget =>
    have hs : au.bundle.tokens.Nodup := h lid _ hget
    unfold Book.extend
    split
    · exact h.insert rfl hs
    · exact h
  | cancelled => exact h.remove rfl
  | @repriced lid sale p hget =>
    have hs : sale.bundle.tokens.Nodup := h lid _ hget
    exact h.insert rfl hs
  | offered | withdrawn | accepted => exact h

theorem Closure.distinct (hc : Closure cfg s lid b) (h : s.book.Distinct) : b.Distinct := by
  cases hc with
  | absent => exact h
  | unsold | settled | failed => exact h.remove rfl

end

structure Tallied (s : State A) : Prop where
  counts : CountsOwned s
  minted : Counted s.records

section
variable {s s' : State A} {cur dst : A} {key : SeriesKey} {ns : List SerialNumber}

theorem CountsOwned.of_eq (h : CountsOwned s) (hwn : s'.tokenOwner = s.tokenOwner)
    (hba : s'.tokenBalance = s.tokenBalance) : CountsOwned s' := by
  intro a k
  unfold State.balanceOf State.owned
  rw [hwn, hba]
  exact h a k

theorem Tallied.of_tokens (h : Tallied s) (htok : s'.tokens = s.tokens) : Tallied s' := by
  have hwn : s'.tokenOwner = s.tokenOwner := congrArg Tokens.owner htok
  refine ⟨h.counts.of_eq hwn (congrArg Tokens.balance htok),
    h.minted.of_owner (congrArg Tokens.nextSeries htok) (congrArg Tokens.nextSerial htok) fun k owner hget => ?_⟩
  have hge' : s'.tokenOwner.get? k = some owner := hget
  rw [hwn] at hge'
  exact ⟨owner, hge'⟩

theorem Tallied.transfer (h : Tallied s) (hdi : ns.Nodup)
    (hhe : ∀ n ∈ ns, s.tokenOwner.get? (key, n) = some cur) (dst : A) :
    Tallied (doTransferUnchecked s key ns cur dst) := by
  have hmi : Counted (doTransferUnchecked s key ns cur dst).records := by
    rw [doTransferUnchecked_records]
    refine h.minted.give dst fun k hk => ?_
    obtain ⟨n, hn, rfl⟩ := mem_map.mp hk
    exact ⟨cur, hhe n hn⟩
  exact ⟨h.counts.transfer hdi hhe (hmi.owned_lt dst key), hmi⟩

theorem Tallied.mint (h : Tallied s) {first : SerialNumber} {qty : TokenCount} (hfit : first.toNat + qty.toNat < 2 ^ 32)
    (hfr : ∀ n, first.toNat ≤ n.toNat → s.tokenOwner.get? (key, n) = none) (hmi : Counted s'.records)
    (hwn : s'.tokenOwner = (doMint s dst key first qty).tokenOwner)
    (hba : s'.tokenBalance = (doMint s dst key first qty).tokenBalance) : Tallied s' := by
  have hf : (doMint s dst key first qty).owned dst key < 2 ^ 32 := by
    have hlt := hmi.owned_lt dst key
    unfold State.owned at hlt ⊢
    rwa [hwn] at hlt
  exact ⟨(h.counts.mint hfit hfr hf).of_eq hwn hba, hmi⟩

end

structure Settlement.Held {A : Type} (s : State A) (x : Settlement A) : Prop where
  oneSeries : OneSeries x.bundle.tokens
  held : ∀ t ∈ x.bundle.tokens, s.tokenOwner.get? (ownerKey t) = some x.seller

instance (s : State A) (x : Settlement A) : Decidable (x.Held s) :=
  haveI : Decidable (∀ t ∈ x.bundle.tokens, s.tokenOwner.get? (ownerKey t) = some x.seller) := List.decidableBAll _ _
  decidable_of_iff (OneSeries x.bundle.tokens ∧ ∀ t ∈ x.bundle.tokens, s.tokenOwner.get? (ownerKey t) = some x.seller)
    ⟨fun h => ⟨h.1, h.2⟩, fun h => ⟨h.1, h.2⟩⟩

section
variable {cfg : Config A} {s s' : State A} {org : A} {lid : ListingId}

theorem Tallied.settle (h : Tallied s) {x : Settlement A} (hx : x.Held s) (hdi : x.bundle.tokens.Nodup) :
    Tallied (doTransferUnchecked s (x.bundle.first.1, x.bundle.first.2.1) (x.bundle.tokens.map fun t => t.2.2) x.seller
      x.buyer) := by
  have hna : ∀ t ∈ x.bundle.tokens, ownerKey t = ((x.bundle.first.1, x.bundle.first.2.1), t.2.2) := by
    intro t ht
    have hse := settled_of_oneSeries hx.oneSeries ht
    rw [← hse]
    rfl
  refine h.transfer (List.Nodup.map_on (fun t ht u hu heq => ?_) hdi) (fun n hn => ?_) x.buyer
  · -- tokens of one series differ in their serial numbers
    exact ownerKey_injective (by rw [hna t ht, hna u hu, heq])
  · obtain ⟨t, ht, rfl⟩ := mem_map.mp hn
    rw [← hna t ht]
    exact hx.held t ht

theorem buy_tallied (hhe : ∀ x ∈ (Call.buy lid).settlement s org, x.Held s) (hdi : s.book.Distinct)
    (h : Tallied s) (hbuy : buy cfg s org lid = .ok s') : Tallied s' := by
  unfold buy at hbuy
  split at hbuy
  · rename_i sale hsa
    simp only [bind_eq_ok, ensure_eq_ok, pure_eq_ok] at hbuy
    obtain ⟨-, -, assets, -, rfl⟩ := hbuy
    have hx : (⟨sale.bundle, sale.seller, org⟩ : Settlement A).Held s := by
      refine hhe _ ?_
      simp only [Call.settlement, hsa]
      rfl
    have hp : Tallied { s with
        assets := assets
        tokenLocks := s.tokenLocks.removeAll sale.bundle.tokens
        openCollectionListings := s.openCollectionListings.remove (sale.bundle.first.1, lid) } := h.of_tokens rfl
    have hse := hp.settle (x := ⟨sale.bundle, sale.seller, org⟩) ⟨hx.oneSeries, hx.held⟩ (hdi lid _ hsa)
    exact hse.of_tokens rfl
  · cases hbuy

theorem closeListing_tallied (hhe : ∀ x ∈ closingSettlement cfg s lid, x.Held s) (hdi : s.book.Distinct)
    (h : Tallied s) : Tallied (closeListing cfg s lid) := by
  unfold closeListing
  split
  · exact h.of_tokens rfl
  · rename_i au hau
    dsimp only
    split
    · rename_i winner p hbid
      split
      · rename_i s₁ hse
        obtain ⟨assets, hp, rfl⟩ := processPaymentAndTransfer_eq_ok.mp hse
        have hpa' : payReserved cfg s.assets winner au.seller au.paymentAsset p au.royaltiesSchedule = .ok assets := hp
        have hx : (⟨au.bundle, au.seller, winner⟩ : Settlement A).Held s := by
          refine hhe _ ?_
          simp only [closingSettlement, hau, hbid, hpa']
          rfl
        refine Tallied.settle (x := ⟨au.bundle, au.seller, winner⟩) ?_ ⟨hx.oneSeries, hx.held⟩ (hdi lid _ hau)
        exact h.of_tokens rfl
      · exact h.of_tokens rfl
    · exact h.of_tokens rfl
  · exact h

variable [Inhabited A]

theorem acceptOffer_tallied {oid : OfferId} (hde : org ≠ default) (h : Tallied s)
    (hac : acceptOffer cfg s org oid = .ok s') : Tallied s' := by
  unfold acceptOffer at hac
  split at hac
  · rename_i offer hof
    simp only [bind_eq_ok, ensure_eq_ok] at hac
    obtain ⟨-, hwn, roy, -, s₁, hse, hend⟩ := hac
    obtain ⟨assets, -, rfl⟩ := processPaymentAndTransfer_eq_ok.mp hse
    obtain ⟨i, -, -, -, htok⟩ := removeOffer_book hend
    have hp : Tallied { s with assets := assets } := h.of_tokens rfl
    refine Tallied.of_tokens ?_ htok
    refine hp.settle (x := ⟨⟨offer.tokenId, []⟩, org, offer.buyer⟩) ⟨?_, ?_⟩ (nodup_singleton _)
    · intro t ht u hu
      rw [mem_singleton.mp ht, mem_singleton.mp hu]
    · intro t ht
      rw [mem_singleton.mp ht]
      exact owner_of_ownerOf hwn hde
  · cases hac

variable {ns : List SerialNumber}

theorem transferBatch_tallied {cid : CollectionId} {sid : SeriesId} {dst : A}
    (hde : org ≠ default) (hdi : ns.Nodup) (h : Tallied s)
    (htr : transferBatch s org cid sid ns dst = .ok s') : Tallied s' := by
  have hmo := (transferBatch_inv htr).1
  simp only [transferBatch, bind_eq_ok, ensure_eq_ok, pure_eq_ok] at htr
  obtain ⟨-, -, -, -, rfl⟩ := htr
  have hhe : ∀ n ∈ ns, s.tokenOwner.get? ((cid, sid), n) = some org :=
    fun n hn => owner_of_ownerOf (hmo n hn).2 hde
  exact h.transfer hdi hhe dst

theorem burnTokens_held {key : SeriesKey} (hde : org ≠ default) (h : burnTokens org key s ns = .ok s') :
    ns.Nodup ∧ (∀ n ∈ ns, s.tokenOwner.get? (key, n) = some org) ∧
      s'.tokenBalance = s.tokenBalance ∧ s'.seriesIssuance = s.seriesIssuance := by
  induction ns generalizing s with
  | nil =>
    cases h
    exact ⟨nodup_nil, (fun _ hn => nomatch hn), rfl, rfl⟩
  | cons n rest ih =>
    simp only [burnTokens, bind_eq_ok, ensureMovable_eq_ok] at h
    obtain ⟨-, ⟨-, hwn⟩, hr⟩ := h
    obtain ⟨hno, hhe, hk⟩ := ih hr
    have hl : ∀ m ∈ rest, m ≠ n ∧ s.tokenOwner.get? (key, m) = some org := by
      intro m hm
      obtain ⟨hne, hget⟩ := get?_remove_eq_some.mp (hhe m hm)
      exact ⟨fun heq => hne (by rw [heq]), hget⟩
    refine ⟨nodup_cons.mpr ⟨fun hin => (hl n hin).1 rfl, hno⟩, fun m hm => ?_, hk⟩
    rcases mem_cons.mp hm with rfl | hm
    · exact owner_of_ownerOf hwn hde
    · exact (hl m hm).2

theorem burnBatch_tallied {cid : CollectionId} {sid : SeriesId} (hde : org ≠ default)
    (h : Tallied s) (hbr : burnBatch s org cid sid ns = .ok s') : Tallied s' := by
  have hre := (burnBatch_inv hbr).2
  simp only [burnBatch, bind_eq_ok, ensure_eq_ok, okOr_eq_ok] at hbr
  obtain ⟨-, -, s₁, hbu, s₂, hcn, hend⟩ := hbr
  obtain ⟨hno, hhe, hba, -⟩ := burnTokens_held hde hbu
  have hwn : s₁.tokenOwner = s.tokenOwner.removeAll (ns.map fun n => ((cid, sid), n)) :=
    congrArg Records.owner (burnTokens_inv hbu).2
  have hco := h.counts.burn hno hhe hwn hba hcn
  refine ⟨hco.of_eq ?_ ?_, hre ▸ h.minted.burn⟩
  · split at hend <;> cases hend <;> rfl
  · split at hend <;> cases hend <;> rfl

end

section
variable {cfg : Config A} {s s' : State A} {org : A}

theorem doMintSeries_tallied {cid : CollectionId} {qty : TokenCount} {owner : Option A}
    {scheme : MetadataScheme} {roy : Option (RoyaltiesSchedule A)} {sid : SeriesId} (h : Tallied s)
    (hmn : doMintSeries s org cid qty owner scheme roy = .ok (s', sid)) : Tallied s' := by
  obtain ⟨next, hse, hx, hre⟩ := doMintSeries_inv hmn
  have hmi : Counted s'.records := by
    rw [hre, hse]
    exact h.minted.mintSeries (hse ▸ hx)
  have hfr : ∀ n, (0 : SerialNumber).toNat ≤ n.toNat → s.tokenOwner.get? ((cid, sid), n) = none := by
    intro n _
    rw [hse]
    exact (h.minted.next_fresh cid).2 n
  simp only [doMintSeries, bind_eq_ok, pure_eq_ok, Prod.mk.injEq] at hmn
  obtain ⟨-, -, _, -, scheme', -, -, -, rfl, rfl⟩ := hmn
  have hst : Tallied { s with
      seriesMetadataScheme := s.seriesMetadataScheme.insert (cid, s.nextSeriesId.getD cid 0) scheme'
      seriesRoyalties := roy.elim s.seriesRoyalties
        (s.seriesRoyalties.insert (cid, s.nextSeriesId.getD cid 0)) } := h.of_tokens rfl
  exact hst.mint (fits_from_zero qty) hfr hmi rfl rfl

theorem mintAdditional_tallied {cid : CollectionId} {sid : SeriesId} {qty : TokenCount}
    {owner : Option A} (h : Tallied s)
    (hmn : mintAdditional s org cid sid qty owner = .ok s') : Tallied s' := by
  obtain ⟨first, hfi, hpos, hfit, hre⟩ := mintAdditional_inv hmn
  have hmi : Counted s'.records := by
    rw [hre]
    exact h.minted.mintAdditional hfi hpos hfit
  have hfr : ∀ n, first.toNat ≤ n.toNat → s.tokenOwner.get? ((cid, sid), n) = none := by
    intro n hn
    cases hget : s.tokenOwner.get? ((cid, sid), n) with
    | none => rfl
    | some a =>
      have hbe := (h.minted.minted _ n a hget).2
      rw [getD_of_get? hfi] at hbe
      omega
  simp only [mintAdditional, bind_eq_ok, okOr_eq_ok, pure_eq_ok] at hmn
  obtain ⟨-, -, -, -, first', hfi', -, -, rfl⟩ := hmn
  obtain rfl : first' = first := Option.some.inj (hfi'.symm.trans hfi)
  exact h.mint hfit hfr hmi rfl rfl

theorem genesis_tallied (assets : GenericAsset.State A) :
    Tallied (.genesis assets) ∧ (State.genesis assets).book.Distinct := by
  refine ⟨⟨fun _ _ => rfl, (genesis_kept assets).2⟩, fun _ _ hget => ?_⟩
  cases hget

/-- The call repeats no serial number in a transfer, buys only what the seller still has, and is no recount. -/
def Call.CountSafe (s : State A) (org : A) : Call A → Prop
  | .transferBatch _ _ ns _ => ns.Nodup
  | .buy lid => ∀ x ∈ (Call.buy lid).settlement s org, x.Held s
  | .updateTokenBalance _ _ => False
  | _ => True

variable [Inhabited A]

/-- No call is signed by the default account, the owner of what was never minted, and each auction settled is of tokens
the seller still has. -/
def CountSafe (cfg : Config A) (s : State A) : Op A → Prop
  | .call org call => org ≠ default ∧ call.CountSafe s org
  | .onInitialize now => Each (closeListing cfg)
    (fun s lid => ∀ x ∈ closingSettlement cfg s lid, x.Held s) (startClosing s now) (scheduledAt cfg s now)

instance (s : State A) (org : A) : ∀ call : Call A, Decidable (call.CountSafe s org)
  | .transferBatch _ _ ns _ => inferInstanceAs (Decidable ns.Nodup)
  | .buy lid => inferInstanceAs (Decidable (∀ x ∈ (Call.buy lid).settlement s org, x.Held s))
  | .updateTokenBalance _ _ => isFalse id
  | .migrateToMetadataScheme .. | .setOwner .. | .setSeriesName .. | .registerMarketplace .. | .createCollection .. =>
    isTrue trivial
  | .mintSeries .. | .mintAdditional .. | .transfer .. | .burn .. | .burnBatch .. => isTrue trivial
  | .sell .. | .sellBundle .. | .auction .. | .auctionBundle .. | .bid .. | .cancelSale .. => isTrue trivial
  | .updateFixedPrice .. | .makeSimpleOffer .. | .cancelOffer .. | .acceptOffer .. => isTrue trivial

instance (cfg : Config A) (s : State A) : ∀ op, Decidable (CountSafe cfg s op)
  | .call org call => inferInstanceAs (Decidable (org ≠ default ∧ call.CountSafe s org))
  | .onInitialize now => inferInstanceAs (Decidable (Each (closeListing cfg)
    (fun s lid => ∀ x ∈ closingSettlement cfg s lid, x.Held s) (startClosing s now) (scheduledAt cfg s now)))

theorem dispatch_tallied {call : Call A} (hsa : CountSafe cfg s (.call org call)) (hdi : s.book.Distinct)
    (h : Tallied s) (hc : dispatch cfg s org call = .ok s') : Tallied s' := by
  obtain ⟨hde, hsa⟩ := hsa
  cases call with
  | mintSeries =>
    obtain ⟨⟨s₁, sid⟩, hmi, rfl⟩ := Result.map_eq_ok.mp hc
    exact doMintSeries_tallied h hmi
  | mintAdditional => exact mintAdditional_tallied h hc
  | transfer => exact transferBatch_tallied hde (nodup_singleton _) h hc
  | transferBatch => exact transferBatch_tallied hde hsa h hc
  | burn => exact burnBatch_tallied hde h hc
  | burnBatch => exact burnBatch_tallied hde h hc
  | buy => exact buy_tallied hsa hdi h hc
  | acceptOffer => exact acceptOffer_tallied hde h hc
  | updateTokenBalance => exact hsa.elim
  | _ => exact h.of_tokens (dispatch_traded rfl hc).tokens

theorem step_tallied {op : Op A} (hsa : CountSafe cfg s op) (h : Tallied s ∧ s.book.Distinct) :
    Tallied (step cfg s op) ∧ (step cfg s op).book.Distinct := by
  obtain ⟨hta, hdi⟩ := h
  cases op with
  | call org call =>
    rw [step_call]
    refine getD_cases (P := fun s : State A => Tallied s ∧ s.book.Distinct) (fun s₁ hc => ?_) ⟨hta, hdi⟩
    exact ⟨dispatch_tallied hsa hdi hta hc, (dispatch_trade_filed hc).1.distinct hdi⟩
  | onInitialize now =>
    rw [step_onInitialize]
    have hst : Tallied (startClosing s now) := hta.of_tokens rfl
    refine Each.invariant (I := fun s : State A => Tallied s ∧ s.book.Distinct) ?_ hsa ⟨hst, hdi⟩
    rintro s₁ lid hhe ⟨h₁, hdi₁⟩
    exact ⟨closeListing_tallied hhe hdi₁ h₁, (closeListing_closed cfg s₁ lid default []).1.distinct hdi₁⟩

theorem countsOwned_of_countSafe (cfg : Config A) (assets : GenericAsset.State A) (ops : List (Op A))
    (hsafe : Each (step cfg) (CountSafe cfg) (.genesis assets) ops) :
    ∀ done, done <+: ops → CountsOwned (execute (step cfg) (.genesis assets) done) := by
  intro done hdo
  exact (hsafe.throughout (I := fun s : State A => Tallied s ∧ s.book.Distinct) (fun _ _ => step_tallied)
    (genesis_tallied assets) hdo).1.counts

end

/-! ### A repeated serial number -/

def transferred (ns : List SerialNumber) : List (Op Nat) := [
  .call 1 (.createCollection [97] none),
  .call 1 (.mintSeries 0 2 none (.https [97]) none),
  .call 1 (.transferBatch 0 0 ns 2)]

theorem repeated_serial_counted_twice : ∃ s, execute (step plainConfig) fundedBuyer (transferred [0, 0]) = s ∧
      s.balanceOf 2 (0, 0) = 2 ∧ s.owned 2 (0, 0) = 1 ∧ s.balanceOf 1 (0, 0) = 0 ∧ s.owned 1 (0, 0) = 1 ∧
      ¬CountsOwned s := by
  obtain ⟨s, hrun, hco, hwn, hr⟩ : ∃ s,
      execute (step plainConfig) fundedBuyer (transferred [0, 0]) = s ∧ s.balanceOf 2 (0, 0) = 2 ∧
      s.owned 2 (0, 0) = 1 ∧ s.balanceOf 1 (0, 0) = 0 ∧ s.owned 1 (0, 0) = 1 := ⟨_, rfl, by decide⟩
  refine ⟨s, hrun, hco, hwn, hr.1, hr.2, fun hcn => ?_⟩
  have heq := hcn 2 (0, 0)
  rw [hco, hwn] at heq
  cases heq

/-- An offer on a listed token is accepted, then the listing is bought: the token is counted for both buyers. -/
example : ∃ s, execute (step plainConfig) fundedBuyer (offerAccepted (0, 0, 0) ++ [.call 2 (.buy 0)]) = s ∧
      s.balanceOf 2 (0, 0) = 2 ∧ s.owned 2 (0, 0) = 1 := ⟨_, rfl, by decide⟩

theorem counted_through_sale : ∃ ops, ops = transferred [0, 1] ++ [
        .call 2 (.sellBundle [(0, 0, 1)] none 1 0 none none), .call 3 (.buy 0), .call 2 (.burnBatch 0 0 [0])] ∧
      (execute (step plainConfig) fundedBuyer ops).balanceOf 3 (0, 0) = 1 ∧
      ∀ done, done <+: ops → CountsOwned (execute (step plainConfig) fundedBuyer done) :=
  ⟨_, rfl, by decide, countsOwned_of_countSafe plainConfig _ _ (by decide)⟩

end Nft
