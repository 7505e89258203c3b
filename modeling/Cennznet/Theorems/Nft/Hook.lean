import Cennznet.Theorems.Nft.Supply

/-! # What `on_nft_transfer` is told -/

namespace Nft

open Result Steps StorageMap List

variable {A : Type} {cfg : Config A} {s s' s'' : State A} {o dst : A}
  {call : Call A} {key : SeriesKey} {ns : List SerialNumber} {qty : TokenCount}

/-- Between the states `on_nft_transfer` is told of the tokens that change hands. -/
def Told (s s' : State A) : Prop :=
  ∃ moved, s'.nftTransfers = s.nftTransfers ++ moved ∧
    ∀ t, t ∉ moved → s'.tokenOwner.get? (ownerKey t) = s.tokenOwner.get? (ownerKey t)

theorem Told.refl (s : State A) : Told s s := ⟨[], (append_nil _).symm, fun _ _ => rfl⟩

theorem Told.trans (h : Told s s') (h' : Told s' s'') : Told s s'' := by
  obtain ⟨m, hm, hwn⟩ := h
  obtain ⟨m', hm', hwn'⟩ := h'
  refine ⟨m ++ m', by rw [hm', hm, append_assoc], fun t ht => ?_⟩
  rw [mem_append, not_or] at ht
  exact (hwn' t ht.2).trans (hwn t ht.1)

theorem Told.mem (h : Told s s') {t : TokenId} {b : A} (hb : s'.tokenOwner.get? (ownerKey t) = some b)
    (hne : s.tokenOwner.get? (ownerKey t) ≠ some b) : t ∈ s'.nftTransfers.drop s.nftTransfers.length := by
  obtain ⟨m, hm, hwn⟩ := h
  rw [hm, drop_left]
  by_contra ht
  exact hne ((hwn t ht).symm.trans hb)

def Call.mints : Call A → Bool
  | .mintSeries .. | .mintAdditional .. => true
  | _ => false

def Call.receiver (o : A) : Call A → A
  | .mintSeries _ _ owner _ _ | .mintAdditional _ _ _ owner => owner.getD o
  | _ => o

theorem Call.minted_eq_nil (hm : call.mints = false) : call.minted s = [] := by
  cases call with
  | mintSeries | mintAdditional => cases hm
  | _ => rfl

variable [DecidableEq A]

theorem moveBalance_nftTransfers : (moveBalance s o dst key qty).nftTransfers = s.nftTransfers := by
  unfold moveBalance
  cases h : decreaseBalance s o key qty with
  | none => rfl
  | some s₁ =>
    simp only [decreaseBalance, bind, Option.bind_eq_some_iff] at h
    obtain ⟨_, -, h⟩ := h
    cases h
    rfl

theorem doTransferUnchecked_told : Told s (doTransferUnchecked s key ns o dst) := by
  refine ⟨ns.map fun n => (key.1, key.2, n), moveBalance_nftTransfers, fun t ht => ?_⟩
  have hwn : (doTransferUnchecked s key ns o dst).tokenOwner =
      s.tokenOwner.insertAll (ns.map fun n => (key, n)) dst := congrArg Records.owner doTransferUnchecked_records
  rw [hwn, get?_insertAll, if_neg]
  intro hin
  obtain ⟨n, hn, heq⟩ := mem_map.mp hin
  exact ht (mem_map.mpr ⟨n, hn, ownerKey_injective heq⟩)

theorem processPaymentAndTransfer_told {seller : A} {asset : GenericAsset.AssetId} {b : Bundle}
    {n : GenericAsset.Balance} {roy : RoyaltiesSchedule A}
    (h : processPaymentAndTransfer cfg s dst seller asset b n roy = .ok s') : Told s s' := by
  obtain ⟨assets, -, rfl⟩ := processPaymentAndTransfer_eq_ok.mp h
  exact doTransferUnchecked_told (s := { s with assets := assets })

theorem closeListing_told (cfg : Config A) (s : State A) (id : ListingId) : Told s (closeListing cfg s id) := by
  unfold closeListing
  split
  · exact .refl s
  · dsimp only
    split
    · split
      · rename_i s₁ hse
        exact processPaymentAndTransfer_told (s := { releaseListing s id _ with listingWinningBid := _ }) hse
      · exact .refl s
    · exact .refl s
  · exact .refl s

theorem buy_told {id : ListingId} (h : buy cfg s o id = .ok s') : Told s s' := by
  unfold buy at h
  split at h
  · simp only [bind_eq_ok, pure_eq_ok] at h
    obtain ⟨-, -, assets, -, rfl⟩ := h
    exact doTransferUnchecked_told (s := { s with assets := assets, tokenLocks := _, openCollectionListings := _ })
  · cases h

theorem doMint_silent {first : SerialNumber} : (doMint s dst key first qty).nftTransfers = s.nftTransfers := by
  unfold doMint
  split <;> rfl

variable [Inhabited A]

theorem transferBatch_told {cid : CollectionId} {sid : SeriesId} (h : transferBatch s o cid sid ns dst = .ok s') :
    Told s s' := by
  simp only [transferBatch, bind_eq_ok, pure_eq_ok] at h
  obtain ⟨-, -, -, -, rfl⟩ := h
  exact doTransferUnchecked_told

theorem acceptOffer_told {id : OfferId} (h : acceptOffer cfg s o id = .ok s') : Told s s' := by
  unfold acceptOffer at h
  split at h
  · simp only [bind_eq_ok, removeOffer, pure_eq_ok] at h
    obtain ⟨-, -, _, -, s₁, hse, _, -, rfl⟩ := h
    have hto := processPaymentAndTransfer_told hse
    exact hto
  · cases h

theorem dispatch_told (hm : call.mints = false) (h : dispatch cfg s o call = .ok s') {t : TokenId} {b : A}
    (hb : s'.tokenOwner.get? (ownerKey t) = some b) (hne : s.tokenOwner.get? (ownerKey t) ≠ some b) :
    t ∈ s'.nftTransfers.drop s.nftTransfers.length := by
  cases hc : call.leavesTokens with
  | true =>
    have hwn : s'.tokenOwner = s.tokenOwner := congrArg Tokens.owner (dispatch_traded hc h).tokens
    exact absurd (hwn ▸ hb) hne
  | false =>
    cases call with
    | transfer | transferBatch => exact (transferBatch_told h).mem hb hne
    | buy => exact (buy_told h).mem hb hne
    | acceptOffer => exact (acceptOffer_told h).mem hb hne
    | burn | burnBatch =>
      have hwn : s'.tokenOwner = s.tokenOwner.removeAll _ := congrArg Records.owner (burnBatch_inv h).2
      rw [hwn] at hb
      exact absurd (get?_removeAll_eq_some.mp hb).2 hne
    | updateTokenBalance =>
      have hwn : s'.tokenOwner = s.tokenOwner := congrArg Records.owner (updateTokenBalance_kept h).2
      exact absurd (hwn ▸ hb) hne
    | mintSeries | mintAdditional => cases hm
    | _ => cases hc

theorem step_onInitialize_told {now : BlockNumber} : Told s (step cfg s (.onInitialize now)) := by
  rw [step_onInitialize]
  exact execute_invariant (I := Told s) (fun id _ s₁ h => h.trans (closeListing_told cfg s₁ id))
    (Told.refl (startClosing s now))

theorem dispatch_mint (hm : call.mints = true) (h : dispatch cfg s o call = .ok s') :
    s'.nftTransfers = s.nftTransfers ∧ s'.tokenOwner = s.tokenOwner.insertAll (call.minted s) (call.receiver o) := by
  cases call with
  | mintSeries cid qty owner scheme roy =>
    obtain ⟨⟨s₁, sid⟩, hmi, rfl⟩ := Result.map_eq_ok.mp h
    obtain ⟨_, rfl, -, hre⟩ := doMintSeries_inv hmi
    refine ⟨?_, (congrArg Records.owner hre).trans (mint_eq s.records [] ..).1⟩
    simp only [doMintSeries, bind_eq_ok, pure_eq_ok, Prod.mk.injEq] at hmi
    obtain ⟨-, -, _, -, _, -, -, -, rfl, -⟩ := hmi
    exact doMint_silent (s := { s with seriesMetadataScheme := _, seriesRoyalties := _ })
  | mintAdditional cid sid qty owner =>
    obtain ⟨first, hfi, -, -, hre⟩ := mintAdditional_inv h
    have hfi' : s.nextSerialNumber.getD (cid, sid) 0 = first := congrArg (·.getD 0) hfi
    refine ⟨?_, ?_⟩
    · simp only [dispatch, mintAdditional, bind_eq_ok, pure_eq_ok] at h
      obtain ⟨-, -, -, -, _, -, -, -, rfl⟩ := h
      exact doMint_silent
    · refine (congrArg Records.owner hre).trans ((mint_eq s.records [] ..).1.trans ?_)
      rw [Call.minted, hfi']
      rfl
  | _ => cases hm

end Nft
