import Cennznet.Lib.Rounding
import Cennznet.Theorems.GenericAsset.Credit
import Cennznet.Theorems.Nft.Settle

/-! # The split of a sale price

Each share is rounded by itself, so royalties can exceed the price. -/

namespace Nft

open GenericAsset List
open Result Word

variable {A : Type}

/-! ### Rounded shares -/

def royaltyOf (ent : Permill) (p : Balance) : Nat :=
  Rounding.nearest (ent.toNat * p.toNat) permillAccuracy

def royaltiesOf (p : Balance) (ents : List (A × Permill)) : Nat :=
  (ents.map fun e => royaltyOf e.2 p).sum

def received [DecidableEq A] (p : Balance) (ents : List (A × Permill)) (who : A) :
    Nat :=
  (ents.map fun e => gainOf e.1 (royaltyOf e.2 p) who).sum

/-- `Permill * Balance` rounds to the nearest integer, ties down, where the result is a balance. -/
def RoundsNearest (mul : Permill → Balance → Balance) : Prop :=
  ∀ share amt, royaltyOf share amt < 2 ^ 128 → (mul share amt).toNat = royaltyOf share amt

/-- The whole parts of the shares, and one for each share with a rest over a half, stay within the price. -/
def RoyaltiesFit (r : RoyaltiesSchedule A) (p : Balance) : Prop :=
  let parts := r.entitlements.map fun e => e.2.toNat * p.toNat
  (parts.map (· / permillAccuracy)).sum + parts.countP (fun n => decide (permillAccuracy < 2 * (n % permillAccuracy))) ≤
    p.toNat

instance (r : RoyaltiesSchedule A) (p : Balance) : Decidable (RoyaltiesFit r p) :=
  inferInstanceAs (Decidable (_ ≤ _))

variable {r : RoyaltiesSchedule A}

theorem royaltiesFit_iff {p : Balance} : RoyaltiesFit r p ↔ royaltiesOf p r.entitlements ≤ p.toNat := by
  unfold RoyaltiesFit royaltiesOf royaltyOf
  dsimp only
  rw [← Rounding.sum_nearest, map_map]
  rfl

section
variable {p : Balance} {ents : List (A × Permill)}

theorem royaltyOf_zero_price (share : Permill) : royaltyOf share 0 = 0 := by
  unfold royaltyOf
  rw [show (0 : Balance).toNat = 0 from rfl, Nat.mul_zero, Rounding.nearest_zero]

theorem share_le_of_royaltyOf_le {share : Permill} (hpr : p ≠ 0) (h : royaltyOf share p ≤ p.toNat) :
    share.toNat ≤ 1500000 := by
  have hpos : 0 < p.toNat := toNat_pos.mpr hpr
  have hne : 2 * (share.toNat * p.toNat) ≤ (2 * royaltyOf share p + 1) * permillAccuracy :=
    Rounding.two_mul_le_nearest (by decide)
  have hbo : (2 * royaltyOf share p + 1) * permillAccuracy ≤ (3 * p.toNat) * permillAccuracy :=
    Nat.mul_le_mul_right _ (by omega)
  have hpd : share.toNat * p.toNat ≤ 1500000 * p.toNat := by
    unfold permillAccuracy at hne hbo
    omega
  exact Nat.le_of_mul_le_mul_right hpd hpos

theorem totalShares_toNat {r : RoyaltiesSchedule A} (hlen : r.entitlements.length ≤ maxEntitlements)
    (hpr : p ≠ 0) (hfit : royaltiesOf p r.entitlements ≤ p.toNat) :
    r.totalShares.toNat = (r.entitlements.map fun e => e.2.toNat).sum := by
  have hsum : (r.entitlements.map fun e => e.2.toNat).sum ≤ r.entitlements.length • 1500000 := by
    rw [← length_map (fun e : A × Permill => e.2.toNat)]
    refine sum_le_card_nsmul _ _ fun n hn => ?_
    obtain ⟨e, he, rfl⟩ := mem_map.mp hn
    exact share_le_of_royaltyOf_le hpr ((le_sum_of_mem (mem_map_of_mem he)).trans hfit)
  have hmap : ((r.entitlements.map Prod.snd).map BitVec.toNat).sum = (r.entitlements.map fun e => e.2.toNat).sum := by
    rw [map_map]
    rfl
  have hlt : (0 : Permill).toNat + ((r.entitlements.map Prod.snd).map BitVec.toNat).sum < 2 ^ 32 := by
    unfold maxEntitlements at hlen
    have hz : (0 : Permill).toNat = 0 := rfl
    have hmul : r.entitlements.length • 1500000 = r.entitlements.length * 1500000 := rfl
    omega
  unfold RoyaltiesSchedule.totalShares
  rw [toNat_foldl_add hlt, hmap]
  exact Nat.zero_add _

theorem royaltyOf_eq_zero {r : RoyaltiesSchedule A} (hlen : r.entitlements.length ≤ maxEntitlements)
    (hfit : royaltiesOf p r.entitlements ≤ p.toNat) (htot : royaltyOf r.totalShares p = 0)
    {e : A × Permill} (he : e ∈ r.entitlements) : royaltyOf e.2 p = 0 := by
  by_cases hpr : p = 0
  · subst hpr
    exact royaltyOf_zero_price e.2
  have hne : 2 * (r.totalShares.toNat * p.toNat) ≤ (2 * royaltyOf r.totalShares p + 1) * permillAccuracy :=
    Rounding.two_mul_le_nearest (by decide)
  have hle : e.2.toNat ≤ r.totalShares.toNat := by
    rw [totalShares_toNat hlen hpr hfit]
    exact le_sum_of_mem (mem_map_of_mem (f := fun e : A × Permill => e.2.toNat) he)
  have hpd : e.2.toNat * p.toNat ≤ r.totalShares.toNat * p.toNat := Nat.mul_le_mul_right _ hle
  have hsm : 2 * (e.2.toNat * p.toNat) ≤ permillAccuracy := by
    rw [htot] at hne
    omega
  exact Rounding.nearest_eq_zero hsm (by unfold permillAccuracy at *; omega)

theorem royaltiesOf_eq_zero (h : ∀ e ∈ ents, royaltyOf e.2 p = 0) : royaltiesOf p ents = 0 := by
  refine sum_eq_zero fun n hn => ?_
  obtain ⟨e, he, rfl⟩ := mem_map.mp hn
  exact h e he

theorem received_eq_zero [DecidableEq A] (h : ∀ e ∈ ents, royaltyOf e.2 p = 0) (x : A) : received p ents x = 0 := by
  refine sum_eq_zero fun n hn => ?_
  obtain ⟨e, he, rfl⟩ := mem_map.mp hn
  rw [h e he, gainOf_zero]

end

theorem calculateTotalEntitlement_eq (hva : r.validate = true) :
    r.calculateTotalEntitlement = r.totalShares := if_pos hva

theorem validate_eq_true (hva : r.validate = true) :
    r.entitlements.length ≤ maxEntitlements ∧ r.totalShares.toNat ≤ permillAccuracy := by
  unfold RoyaltiesSchedule.validate at hva
  simp only [Bool.and_eq_true, decide_eq_true_eq] at hva
  exact ⟨hva.1.2, hva.2⟩

/-! ### The loops that pay royalties -/

/-- No royalty taken off the seller's part exceeds what is left of it. -/
def NoUnderflow (cfg : Config A) (p : Balance) : Balance → List (A × Permill) → Prop
  | _, [] => True
  | forSeller, (_, ent) :: rest =>
    (cfg.permillMul ent p).toNat ≤ forSeller.toNat ∧ NoUnderflow cfg p (forSeller - cfg.permillMul ent p) rest

section
variable {cfg : Config A} {p forSeller : Balance} {who : A} {ent : Permill}
  {ents : List (A × Permill)}

theorem royaltiesOf_cons : royaltiesOf p ((who, ent) :: ents) = royaltyOf ent p + royaltiesOf p ents := sum_cons

theorem received_cons [DecidableEq A] : received p ((who, ent) :: ents) =
    fun x => gainOf who (royaltyOf ent p) x + received p ents x :=
  funext fun _ => sum_cons

variable (hmul : RoundsNearest cfg.permillMul)
include hmul

theorem royalty_fits (h : royaltiesOf p ((who, ent) :: ents) ≤ forSeller.toNat) :
    (cfg.permillMul ent p).toNat = royaltyOf ent p ∧
      (forSeller - cfg.permillMul ent p).toNat + royaltyOf ent p = forSeller.toNat ∧
      royaltiesOf p ents ≤ (forSeller - cfg.permillMul ent p).toNat := by
  rw [royaltiesOf_cons] at h
  have hlt := forSeller.isLt
  have hro := hmul ent p (by omega)
  have hsub : (forSeller - cfg.permillMul ent p).toNat =
      forSeller.toNat - (cfg.permillMul ent p).toNat := toNat_sub_of_le (by omega)
  omega

theorem noUnderflow_of_fits (h : royaltiesOf p ents ≤ forSeller.toNat) :
    NoUnderflow cfg p forSeller ents := by
  induction ents generalizing forSeller with
  | nil => trivial
  | cons e rest ih =>
    obtain ⟨hro, hl, hr⟩ := royalty_fits hmul h
    exact ⟨by omega, ih hr⟩

variable [DecidableEq A] {assets : GenericAsset.State A} {aid : AssetId}

theorem payRoyalties_credited (payer : A) (h : royaltiesOf p ents ≤ forSeller.toNat)
    (hfit : assets.holdings aid + forSeller.toNat < 2 ^ 128) (imbalanceId : AssetId) :
    ∃ assets' left, payRoyalties cfg aid p assets ⟨forSeller, imbalanceId⟩ forSeller ents =
        .ok (assets', ⟨left, imbalanceId⟩, left) ∧
      royaltiesOf p ents + left.toNat = forSeller.toNat ∧
      Credited assets assets' aid payer (received p ents) (royaltiesOf p ents) 0 := by
  induction ents generalizing assets forSeller with
  | nil => exact ⟨assets, forSeller, rfl, Nat.zero_add _, Credited.refl⟩
  | cons e rest ih =>
    obtain ⟨who, ent⟩ := e
    obtain ⟨hro, hl, hre⟩ := royalty_fits hmul h
    have hle := freeOf_le_holdings assets aid who
    have hr : assets.freeOf aid who + (cfg.permillMul ent p).toNat < 2 ^ 128 := by omega
    have hde := depositCreating_credited payer hr
    have hamo := depositCreating_amount hr
    rw [hro] at hde
    have hho := hde.wrote.holdings
    have hfi' : (MultiCurrency.depositCreating assets who aid
        (cfg.permillMul ent p)).1.holdings aid + (forSeller - cfg.permillMul ent p).toNat < 2 ^ 128 := by omega
    obtain ⟨assets', left, hpay, hsum, hcr⟩ := ih hre hfi'
    rw [royaltiesOf_cons, received_cons]
    refine ⟨assets', left, ?_, by omega, hde.trans hcr⟩
    unfold payRoyalties MultiCurrency.depositIntoExisting NegativeImbalance.offset
    simp only [hamo]
    rw [if_pos (by omega)]
    exact hpay

theorem repatriateRoyalties_credited (payer : A) (h : royaltiesOf p ents ≤ forSeller.toNat)
    (hre : forSeller.toNat ≤ assets.reservedOf aid payer) (hfit : assets.holdings aid < 2 ^ 128) :
    ∃ assets' left, repatriateRoyalties cfg payer aid p assets forSeller ents = (assets', left) ∧
      royaltiesOf p ents + left.toNat = forSeller.toNat ∧
      Credited assets assets' aid payer (received p ents) (royaltiesOf p ents) (royaltiesOf p ents) := by
  induction ents generalizing assets forSeller with
  | nil => exact ⟨assets, forSeller, rfl, Nat.zero_add _, Credited.refl⟩
  | cons e rest ih =>
    obtain ⟨who, ent⟩ := e
    obtain ⟨hro, hl, hr⟩ := royalty_fits hmul h
    have hle : (cfg.permillMul ent p).toNat ≤ assets.reservedOf aid payer := by omega
    have hmo := repatriateReserved_credited who hle hfit
    rw [hro] at hmo
    have hho := hmo.wrote.holdings
    have hta := hmo.reserved payer
    rw [gainOf_self] at hta
    have hre' : (forSeller - cfg.permillMul ent p).toNat ≤
        (repatriateReserved assets aid payer who (cfg.permillMul ent p)).1.reservedOf aid payer := by omega
    obtain ⟨assets', left, hpay, hsum, hcr⟩ := ih hr hre' (by omega)
    rw [royaltiesOf_cons, received_cons]
    exact ⟨assets', left, hpay, by omega, hmo.trans hcr⟩

end

section
variable [DecidableEq A]

/-- The price leaves the buyer's free or reserved balance; each beneficiary has its shares of it, and the seller the
rest. -/
structure SplitExactly (assets assets' : GenericAsset.State A) (aid : AssetId) (buyer seller : A)
    (p : Balance) (ents : List (A × Permill)) (fromFree fromReserved : Nat) : Prop where
  free : ∃ proceeds, royaltiesOf p ents + proceeds = p.toNat ∧ ∀ x, assets'.freeOf aid x + gainOf buyer fromFree x =
      assets.freeOf aid x + received p ents x + gainOf seller proceeds x
  reserved : ∀ x, assets'.reservedOf aid x + gainOf buyer fromReserved x = assets.reservedOf aid x
  issuance : ∀ a, assets'.issuanceOf a = assets.issuanceOf a

def Swept (cfg : GenericAsset.Config A) (assets assets' : GenericAsset.State A) (aid : AssetId) (who : A) : Prop :=
  assets' = assets ∨ assets.freeOf aid who < (assets.existentialDeposit aid).toNat ∧
      assets' = reclaimFreeBalance cfg assets aid who

/-- The buyer has the price and may spend it. The last condition follows from the one before, unless the seller buys
from itself. -/
structure CanPay (assets : GenericAsset.State A) (buyer seller : A) (aid : AssetId)
    (p : Balance) : Prop where
  funded : p.toNat ≤ assets.freeOf aid buyer
  unlocked : ensureCanWithdraw assets aid buyer p .transfer (assets.free aid buyer - p) = .ok ()
  fits : assets.holdings aid < 2 ^ 128
  room : assets.freeOf aid seller + p.toNat < 2 ^ 128

variable {cfg : Config A} {assets : GenericAsset.State A} {buyer seller : A} {aid : AssetId}
  {p : Balance} {ents : List (A × Permill)}

theorem transfer_split (cfg : Config A) (h : CanPay assets buyer seller aid p) (hn : ∀ e ∈ ents, royaltyOf e.2 p = 0) :
    ∃ assets' paid, MultiCurrency.transfer cfg.assets assets buyer seller aid p = .ok assets' ∧
      SplitExactly assets paid aid buyer seller p ents p.toNat 0 ∧
      Swept cfg.assets paid assets' aid buyer := by
  have hro : royaltiesOf p ents + p.toNat = p.toNat := by
    rw [royaltiesOf_eq_zero hn, Nat.zero_add]
  unfold MultiCurrency.transfer
  by_cases hz : p = 0
  · subst hz
    refine ⟨assets, assets, if_pos rfl, ⟨⟨0, hro, fun x => ?_⟩, fun x => ?_, fun _ => rfl⟩, Or.inl rfl⟩
    · rw [received_eq_zero hn]
      simp [gainOf_zero]
    · simp [gainOf_zero]
  obtain ⟨newTo, hto⟩ := exists_toNat_eq h.room
  have hfr : (assets.free aid buyer - p).toNat = assets.freeOf aid buyer - p.toNat := toNat_sub_of_le h.funded
  have hfu := h.funded
  have hp : makeTransfer cfg.assets assets aid buyer seller p = .ok _ :=
    makeTransfer_eq_ok.mpr ⟨_, newTo, by omega, hto.symm, h.unlocked, rfl⟩
  rw [if_neg hz]
  by_cases hse : buyer = seller
  · subst hse
    rw [if_pos rfl] at hp
    refine ⟨assets, assets, hp, ⟨⟨p.toNat, hro, fun x => ?_⟩, fun x => ?_, fun _ => rfl⟩, Or.inl rfl⟩
    · rw [received_eq_zero hn, Nat.add_zero]
    · simp [gainOf_zero]
  · rw [if_neg hse] at hp
    refine ⟨_, setFreeBalance (setFreeBalance assets aid seller newTo) aid buyer
      (assets.free aid buyer - p), hp, ⟨⟨p.toNat, hro, fun x => ?_⟩, fun x => ?_, fun _ => rfl⟩, ?_⟩
    · rw [setFreeBalance_freeOf, setFreeBalance_freeOf, received_eq_zero hn,
        Function.update_apply, Function.update_apply]
      unfold gainOf
      by_cases hb : x = buyer
      · subst hb
        rw [if_pos rfl, if_pos rfl, if_neg hse]
        omega
      · rw [if_neg hb, if_neg hb]
        split_ifs with hx
        · rw [hx]
          omega
        · rfl
    · simp only [gainOf_zero]
      rfl
    · unfold Swept settleTransfer
      dsimp only
      split_ifs with hdu
      · refine Or.inr ⟨?_, rfl⟩
        rw [setFreeBalance_freeOf, Function.update_self]
        exact hdu
      · exact Or.inl rfl

theorem payFixedPrice_split {li : FixedPriceListing A} (hmul : RoundsNearest cfg.permillMul)
    (hva : li.royaltiesSchedule.validate = true)
    (hfit : royaltiesOf li.fixedPrice li.royaltiesSchedule.entitlements ≤ li.fixedPrice.toNat)
    (h : CanPay assets buyer li.seller li.paymentAsset li.fixedPrice) :
    ∃ assets' paid, payFixedPrice cfg assets buyer li = .ok assets' ∧
      SplitExactly assets paid li.paymentAsset buyer li.seller li.fixedPrice
        li.royaltiesSchedule.entitlements li.fixedPrice.toNat 0 ∧
      Swept cfg.assets paid assets' li.paymentAsset buyer := by
  unfold payFixedPrice
  rw [calculateTotalEntitlement_eq hva]
  by_cases htot : li.royaltiesSchedule.totalShares = 0
  · have hwo : royaltyOf li.royaltiesSchedule.totalShares li.fixedPrice = 0 := by
      rw [htot]
      unfold royaltyOf
      simp
    obtain ⟨assets', paid, htr, hsp⟩ := transfer_split cfg h fun e he =>
      royaltyOf_eq_zero (validate_eq_true hva).1 hfit hwo he
    refine ⟨assets', paid, ?_, hsp⟩
    rw [if_pos htot, mapError_eq_ok]
    exact htr
  -- the price is withdrawn, paid out in parts, and nothing of it is left to drop
  obtain ⟨withdrawn, imbalanceId, hwi, hbu, hre, hwr⟩ := withdraw_debited h.funded h.unlocked
  have hf := h.fits
  have hhe := hwr.holdings
  have hra : withdrawn.holdings li.paymentAsset + li.fixedPrice.toNat < 2 ^ 128 := by omega
  obtain ⟨paidOut, left, hpay, hsum, hcr⟩ := payRoyalties_credited hmul buyer hfit hra imbalanceId
  have hhe' := hcr.wrote.holdings
  have hle := freeOf_le_holdings paidOut li.paymentAsset li.seller
  have hr : paidOut.freeOf li.paymentAsset li.seller + left.toNat < 2 ^ 128 := by omega
  have hse := depositCreating_credited buyer hr
  have hall := hcr.trans hse
  refine ⟨dropNegative (MultiCurrency.depositCreating paidOut li.seller li.paymentAsset left).1 ⟨0, imbalanceId⟩, _, ?_,
    ⟨⟨left.toNat, hsum, fun x => ?_⟩, fun x => ?_, fun a => ?_⟩, Or.inl rfl⟩
  · have hamo := depositCreating_amount hr
    rw [if_neg htot, hwi]
    simp only [Except.mapError, bind, Except.bind, hpay, MultiCurrency.depositIntoExisting,
      NegativeImbalance.offset, hamo, le_refl, if_true, BitVec.sub_self]
    rfl
  · have hga := hall.free x
    have hst := hbu x
    have hdr : (dropNegative (MultiCurrency.depositCreating paidOut li.seller
        li.paymentAsset left).1 ⟨0, imbalanceId⟩).freeOf li.paymentAsset x = _ := hga
    omega
  · exact (hall.reserved x).trans (congrFun (congrFun hre _) x)
  · rw [dropNegative_zero_issuanceOf, hall.wrote.issuanceOf, hwr.issuanceOf]

/-- The royalties of a settlement. A schedule worth nothing is skipped, as if the loop had paid nothing. -/
theorem royalties_repatriated {r : RoyaltiesSchedule A} (hmul : RoundsNearest cfg.permillMul)
    (hva : r.validate = true) (hfit : royaltiesOf p r.entitlements ≤ p.toNat)
    (hre : p.toNat ≤ assets.reservedOf aid buyer) (hho : assets.holdings aid < 2 ^ 128) :
    ∃ paidOut left, (if cfg.permillMul r.totalShares p = 0 then (assets, p)
        else repatriateRoyalties cfg buyer aid p assets p r.entitlements) = (paidOut, left) ∧
      royaltiesOf p r.entitlements + left.toNat = p.toNat ∧
      Credited assets paidOut aid buyer (received p r.entitlements) (royaltiesOf p r.entitlements)
        (royaltiesOf p r.entitlements) := by
  by_cases hsk : cfg.permillMul r.totalShares p = 0
  · obtain ⟨hlen, htot⟩ := validate_eq_true hva
    have hle : royaltyOf r.totalShares p ≤ p.toNat :=
      Rounding.nearest_le (by decide) ((Nat.mul_le_mul_right _ htot).trans_eq (Nat.mul_comm _ _))
    have hwo : royaltyOf r.totalShares p = 0 := by
      rw [← hmul _ _ (hle.trans_lt p.isLt), hsk]
      rfl
    have hn : ∀ e ∈ r.entitlements, royaltyOf e.2 p = 0 := fun e he => royaltyOf_eq_zero hlen hfit hwo he
    refine ⟨assets, p, if_pos hsk, ?_, ?_⟩
    · rw [royaltiesOf_eq_zero hn, Nat.zero_add]
    · rw [royaltiesOf_eq_zero hn, funext (received_eq_zero hn)]
      exact Credited.refl
  · rw [if_neg hsk]
    exact repatriateRoyalties_credited hmul buyer hfit hre hho

theorem payReserved_split {r : RoyaltiesSchedule A} (seller : A) (hmul : RoundsNearest cfg.permillMul)
    (hva : r.validate = true) (hfit : royaltiesOf p r.entitlements ≤ p.toNat)
    (hre : p.toNat ≤ assets.reservedOf aid buyer) (hho : assets.holdings aid < 2 ^ 128) :
    ∃ assets', payReserved cfg assets buyer seller aid p r = .ok assets' ∧
      SplitExactly assets assets' aid buyer seller p r.entitlements 0 p.toNat := by
  obtain ⟨paidOut, left, hlo, hsum, hcr⟩ := royalties_repatriated hmul hva hfit hre hho
  have hta := hcr.reserved buyer
  rw [gainOf_self] at hta
  have hhe := hcr.wrote.holdings
  have hse := repatriateReserved_credited seller (show left.toNat ≤ paidOut.reservedOf aid buyer by omega) (by omega)
  have hall := hcr.trans hse
  refine ⟨(repatriateReserved paidOut aid buyer seller left).1, ?_,
    ⟨left.toNat, hsum, fun x => ?_⟩, fun x => ?_, hall.wrote.issuanceOf⟩
  · have hp : (saturatingAdd (paidOut.free aid seller) left).toNat ≤
        ((repatriateReserved paidOut aid buyer seller left).1.free aid seller).toNat := by
      have hf := hse.free seller
      rw [gainOf_self] at hf
      rw [toNat_saturatingAdd]
      unfold GenericAsset.State.freeOf at hf
      omega
    unfold payReserved
    rw [calculateTotalEntitlement_eq hva]
    simp only [hlo]
    exact bind_eq_ok.mpr ⟨(), ensure_eq_ok.mpr hp, rfl⟩
  · have hga := hall.free x
    have hno : gainOf buyer 0 x = 0 := congrFun (gainOf_zero buyer) x
    omega
  · have hr := hall.reserved x
    rw [hsum] at hr
    exact hr

end

section
variable {cfg : Config A} {s : State A}

theorem removeFixedPriceListing_assets (id : ListingId) : (removeFixedPriceListing s id).assets = s.assets := rfl

variable [DecidableEq A]

theorem doTransferUnchecked_assets (s : State A) (key : SeriesKey) (ns : List SerialNumber)
    (seller buyer : A) : (doTransferUnchecked s key ns seller buyer).assets = s.assets := by
  unfold doTransferUnchecked moveBalance decreaseBalance
  dsimp only [increaseBalance]
  cases (s.tokenBalance.getD seller ∅).get? key <;> rfl

theorem SplitExactly.fits {assets assets' : GenericAsset.State A} {aid : AssetId} {buyer seller : A}
    {p : Balance} {r : RoyaltiesSchedule A} {fromFree fromReserved : Nat}
    (h : SplitExactly assets assets' aid buyer seller p r.entitlements fromFree fromReserved) :
    RoyaltiesFit r p := by
  obtain ⟨proceeds, hsum, -⟩ := h.free
  exact royaltiesFit_iff.mpr (Nat.le.intro hsum)

def BuySplits (cfg : Config A) (s : State A) (o : A) (lid : ListingId) (li : FixedPriceListing A) : Prop :=
  (li.royaltiesSchedule.calculateTotalEntitlement ≠ 0 →
    NoUnderflow cfg li.fixedPrice li.fixedPrice li.royaltiesSchedule.entitlements) ∧
  ∃ s' paid, buy cfg s o lid = .ok s' ∧ SplitExactly s.assets paid li.paymentAsset o li.seller li.fixedPrice
      li.royaltiesSchedule.entitlements li.fixedPrice.toNat 0 ∧
    Swept cfg.assets paid s'.assets li.paymentAsset o

def SettlementSplits (cfg : Config A) (s : State A) (buyer seller : A) (aid : AssetId)
    (bundle : Bundle) (amt : Balance) (r : RoyaltiesSchedule A) : Prop :=
  (cfg.permillMul r.calculateTotalEntitlement amt ≠ 0 → NoUnderflow cfg amt amt r.entitlements) ∧
  ∃ s', processPaymentAndTransfer cfg s buyer seller aid bundle amt r = .ok s' ∧
    SplitExactly s.assets s'.assets aid buyer seller amt r.entitlements 0 amt.toNat

structure CanBuy (s : State A) (o : A) (lid : ListingId)
    (li : FixedPriceListing A) : Prop where
  listed : s.listings.get? lid = some (.fixedPrice li)
  allowed : li.buyer.all (o = ·) = true
  pays : CanPay s.assets o li.seller li.paymentAsset li.fixedPrice

/-- Both payments split the price exactly for the schedules and prices whose rounded royalties fit, and for no others.
-/
theorem royalties_split_iff (cfg : Config A) (r : RoyaltiesSchedule A) (price : Balance)
    (hmul : RoundsNearest cfg.permillMul) (hvalid : r.validate = true) :
    (∀ s origin listingId listing, listing.royaltiesSchedule = r → listing.fixedPrice = price →
      CanBuy s origin listingId listing → (BuySplits cfg s origin listingId listing ↔ RoyaltiesFit r price)) ∧
    ∀ s buyer seller assetId bundle, price.toNat ≤ s.assets.reservedOf assetId buyer →
      s.assets.holdings assetId < 2 ^ 128 →
      (SettlementSplits cfg s buyer seller assetId bundle price r ↔ RoyaltiesFit r price) := by
  refine ⟨?_, fun s buyer seller assetId bundle hre hho => ⟨?_, fun hfit => ?_⟩⟩
  · rintro s origin listingId listing rfl rfl h
    refine ⟨?_, fun hfit => ?_⟩
    · rintro ⟨-, s', paid, -, hsp, -⟩
      exact hsp.fits
    · rw [royaltiesFit_iff] at hfit
      obtain ⟨assets', paid, hpay, hsp, hsw⟩ := payFixedPrice_split hmul hvalid hfit h.pays
      refine ⟨fun _ => noUnderflow_of_fits hmul hfit, ?_⟩
      unfold buy
      simp only [h.listed, hpay, bind_eq_ok, ensure_eq_ok, pure_eq_ok]
      refine ⟨_, paid, ⟨(), h.allowed, assets', rfl, rfl⟩, hsp, ?_⟩
      rw [removeFixedPriceListing_assets, doTransferUnchecked_assets]
      exact hsw
  · rintro ⟨-, s', -, hsp⟩
    exact hsp.fits
  · rw [royaltiesFit_iff] at hfit
    obtain ⟨assets', hpay, hsp⟩ := payReserved_split seller hmul hvalid hfit hre hho
    refine ⟨fun _ => noUnderflow_of_fits hmul hfit, _, processPaymentAndTransfer_eq_ok.mpr ⟨assets', hpay, rfl⟩, ?_⟩
    rw [doTransferUnchecked_assets]
    exact hsp

end

/-! ### Two schedules -/

def roundingConfig : Config Nat :=
  { plainConfig with permillMul := fun share amt => BitVec.ofNat 128 (royaltyOf share amt) }

def eighths : RoyaltiesSchedule Nat :=
  ⟨[(11, 125000), (12, 125000), (13, 125000), (14, 125000), (15, 125000), (16, 125000), (17, 125000), (18, 125000)]⟩

def thirty : RoyaltiesSchedule Nat := ⟨[(11, 200000), (12, 100000)]⟩

def mintUnder (r : RoyaltiesSchedule Nat) : List (Op Nat) := [
  .call 1 (.createCollection [97] none),
  .call 1 (.mintSeries 0 1 none (.https [97]) (some r))]

def saleUnder (r : RoyaltiesSchedule Nat) (p : Balance) : State Nat :=
  Steps.execute (step roundingConfig) fundedBuyer (mintUnder r ++ [.call 1 (.sell (0, 0, 0) none 1 p none none)])

def offerUnder (r : RoyaltiesSchedule Nat) (p : Balance) : State Nat :=
  Steps.execute (step roundingConfig) fundedBuyer (mintUnder r ++ [.call 2 (.makeSimpleOffer (0, 0, 0) p 1 none)])

def listingUnder (r : RoyaltiesSchedule Nat) (p : Balance) : FixedPriceListing Nat where
  paymentAsset := 1
  fixedPrice := p
  close := 100
  buyer := none
  seller := 1
  bundle := ⟨(0, 0, 0), []⟩
  royaltiesSchedule := r
  marketplaceId := none

theorem thirty_splits : thirty.validate = true ∧
    BuySplits roundingConfig (saleUnder thirty 10) 2 0 (listingUnder thirty 10) ∧
    SettlementSplits roundingConfig (offerUnder thirty 10) 2 1 1 ⟨(0, 0, 0), []⟩ 10 thirty := by
  have hsp := royalties_split_iff roundingConfig thirty 10 (fun _ _ h => Nat.mod_eq_of_lt h) (by decide)
  refine ⟨by decide, (hsp.1 _ 2 0 (listingUnder thirty 10) rfl rfl ⟨?_, rfl, ?_, ?_, ?_, ?_⟩).mpr (by decide),
    (hsp.2 _ 2 1 1 _ ?_ ?_).mpr (by decide)⟩
  all_goals decide +kernel

/-- Eight eighths of 7 round to 8: the sale cannot be paid for, nor an offer of 7 accepted. -/
theorem eighths_of_seven_fail : eighths.validate = true ∧ ¬NoUnderflow roundingConfig 7 7 eighths.entitlements ∧
    ¬BuySplits roundingConfig (saleUnder eighths 7) 2 0 (listingUnder eighths 7) ∧
    ¬SettlementSplits roundingConfig (offerUnder eighths 7) 2 1 1 ⟨(0, 0, 0), []⟩ 7 eighths ∧
    (acceptOffer roundingConfig (offerUnder eighths 7) 1 0).isOk = false := by
  have hbuy : (buy roundingConfig (saleUnder eighths 7) 2 0).isOk = false := by decide +kernel
  have hse : (processPaymentAndTransfer roundingConfig (offerUnder eighths 7) 2 1 1 ⟨(0, 0, 0), []⟩ 7 eighths).isOk =
      false := by decide +kernel
  refine ⟨by decide, fun h => ?_, ?_, ?_, by decide +kernel⟩
  · exact absurd h.2.2.2.2.2.2.2.1 (by decide)
  · rintro ⟨-, s', paid, hok, -⟩
    rw [hok] at hbuy
    cases hbuy
  · rintro ⟨-, s', hok, -⟩
    rw [hok] at hse
    cases hse

end Nft
