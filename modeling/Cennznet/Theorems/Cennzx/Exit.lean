import Cennznet.Theorems.Cennzx.ShareValue
import Cennznet.Theorems.GenericAsset.Conservation

/-! # Leaving a pool

A pool of the core asset has one balance for both reserves. -/

namespace Cennzx

open GenericAsset (AssetId Balance)
open Result Shares StorageMap Steps List

variable {A : Type} [DecidableEq A]

def State.sharesOf (s : State A) (aid : AssetId) (who : A) : Nat :=
  (s.liquidityBalance.getD ((s.coreAssetId, aid), who) 0).toNat

def State.providedShares (s : State A) (aid : AssetId) : Nat :=
  s.liquidityBalance.sumBy (StorageMap.under BitVec.toNat (s.coreAssetId, aid))

structure Exitable (cfg : Config A) (coreAssetId aid : AssetId) (s : State A) : Prop where
  core : s.coreAssetId = coreAssetId
  shares : s.shares aid = s.providedShares aid
  /-- The pool is not its own provider. -/
  outside : s.sharesOf aid (cfg.exchangeAddressFor coreAssetId aid) = 0
  deposits : s.UnitDeposits
  fits : ∀ a, s.assets.holdings a < 2 ^ 128
  unlocked : ∀ a, s.assets.locks.getD (a, cfg.exchangeAddressFor coreAssetId aid) [] = []

section
variable {s : State A} {aid b : AssetId} {who x : A} {n : Balance}

theorem sharesOf_le_providedShares (s : State A) (aid : AssetId) (who : A) :
    s.sharesOf aid who ≤ s.providedShares aid := by
  have h := sumBy_under_remove (m := s.liquidityBalance) (f := BitVec.toNat) (d := 0) (b := who)
    (a := (s.coreAssetId, aid)) rfl
  unfold State.sharesOf State.providedShares
  omega

theorem mintLiquidity_sharesOf : (mintLiquidity s (s.coreAssetId, b) who n).sharesOf aid x =
      if aid = b ∧ x = who then min (s.sharesOf aid x + n.toNat) (2 ^ 128 - 1) else s.sharesOf aid x := by
  unfold State.sharesOf mintLiquidity
  dsimp only
  simp only [getD_insert, Prod.mk.injEq, true_and]
  split_ifs with h
  · obtain ⟨rfl, rfl⟩ := h
    rw [Word.toNat_saturatingAdd]
  · rfl

theorem mintLiquidity_providedShares (hfit : s.sharesOf b who + n.toNat < 2 ^ 128) :
    (mintLiquidity s (s.coreAssetId, b) who n).providedShares aid =
      if aid = b then s.providedShares aid + n.toNat else s.providedShares aid := by
  unfold State.providedShares mintLiquidity
  dsimp only
  by_cases h : aid = b
  · subst h
    have hsum := sumBy_under_insert (m := s.liquidityBalance) (f := BitVec.toNat) (d := 0)
      (a := (s.coreAssetId, aid)) (b := who)
      (v := Word.saturatingAdd (s.liquidityBalance.getD ((s.coreAssetId, aid), who) 0) n) rfl
    rw [Word.toNat_saturatingAdd] at hsum
    unfold State.sharesOf at hfit
    rw [if_pos rfl]
    omega
  · rw [if_neg h, sumBy_under_insert_ne]
    exact fun e => h (Prod.ext_iff.mp e).2

theorem burnLiquidity_sharesOf (hle : n.toNat ≤ s.sharesOf b who) :
    (burnLiquidity s (s.coreAssetId, b) who n).sharesOf aid x =
      if aid = b ∧ x = who then s.sharesOf aid x - n.toNat else s.sharesOf aid x := by
  unfold State.sharesOf at hle
  unfold State.sharesOf burnLiquidity
  dsimp only
  simp only [getD_insert, if_pos hle, Prod.mk.injEq, true_and]
  split_ifs with h
  · obtain ⟨rfl, rfl⟩ := h
    rw [Word.toNat_sub_of_le hle]
  · rfl

theorem burnLiquidity_providedShares (hle : n.toNat ≤ s.sharesOf b who) :
    (burnLiquidity s (s.coreAssetId, b) who n).providedShares aid =
      if aid = b then s.providedShares aid - n.toNat else s.providedShares aid := by
  have hall := sharesOf_le_providedShares s b who
  unfold State.sharesOf at hle hall
  unfold State.providedShares burnLiquidity
  dsimp only
  rw [if_pos hle]
  by_cases h : aid = b
  · subst h
    have hsum := sumBy_under_insert (m := s.liquidityBalance) (f := BitVec.toNat) (d := 0)
      (a := (s.coreAssetId, aid)) (b := who)
      (v := s.liquidityBalance.getD ((s.coreAssetId, aid), who) 0 - n) rfl
    rw [Word.toNat_sub_of_le hle] at hsum
    rw [if_pos rfl]
    unfold State.providedShares at hall
    omega
  · rw [if_neg h, sumBy_under_insert_ne]
    exact fun e => h (Prod.ext_iff.mp e).2

end

/-- The shares of a pool stay below the greatest balance, and its account does not provide to it. -/
def Call.Orderly (cfg : Config A) (aid : AssetId) (s : State A) : Call A → Prop
  | .addLiquidity fromAccount b _ maxAssetAmount coreAmount =>
    fromAccount ≠ s.exchangeAddress cfg aid ∧
      (b = aid → s.shares b + (depositTerms cfg s b maxAssetAmount coreAmount).2.toNat < 2 ^ 128)
  | _ => True

section
variable {cfg : Config A} {s s' t : State A} {coreAssetId aid : AssetId} {call : Call A}
  (h : Exitable cfg coreAssetId aid s)
include h

theorem Exitable.transfers (ht : Transfers cfg s t) :
    Exitable cfg coreAssetId aid t := by
  have hle := ht.assets (I := fun g => (∀ a, g.existentialDeposit a = 1) ∧ (∀ a, g.holdings a < 2 ^ 128) ∧
    ∀ a, g.locks.getD (a, cfg.exchangeAddressFor coreAssetId aid) [] = []) ?_ ⟨h.deposits, h.fits, h.unlocked⟩
  · obtain ⟨hde, hf, hun⟩ := hle
    have hfr := ht.frame
    refine ⟨?_, ?_, ?_, hde, hf, hun⟩ <;> rw [hfr]
    · exact h.core
    · exact h.shares
    · exact h.outside
  · rintro g g' src dest ccy val hg ⟨hde, hf, hun⟩
    have hwr := GenericAsset.transfer_wrote hg (hf ccy)
    refine ⟨fun a => ?_, fun a => ?_, fun a => ?_⟩
    · unfold GenericAsset.State.existentialDeposit
      rw [(GenericAsset.transfer_inv hg).assetMeta]
      exact hde a
    · rw [hwr.holdings_eq]
      exact hf a
    · rw [(GenericAsset.transfer_unchanged hg).1]
      exact hun a

theorem Exitable.minted {b : AssetId} {who : A} {n : Balance}
    (hwho : who ≠ cfg.exchangeAddressFor coreAssetId aid)
    (hfit : b = aid → s.shares b + n.toNat < 2 ^ 128) :
    Exitable cfg coreAssetId aid (mintLiquidity s (s.coreAssetId, b) who n) := by
  refine ⟨h.core, ?_, ?_, h.deposits, h.fits, h.unlocked⟩
  · by_cases hb : aid = b
    · subst hb
      have hle := sharesOf_le_providedShares s aid who
      have hsum := h.shares
      have hlt := hfit rfl
      rw [mintLiquidity_shares, mintLiquidity_providedShares (by omega), if_pos rfl, if_pos rfl]
      omega
    · rw [mintLiquidity_shares, if_neg hb, h.shares]
      unfold State.providedShares mintLiquidity
      dsimp only
      rw [sumBy_under_insert_ne]
      exact fun e => hb (Prod.ext_iff.mp e).2
  · rw [mintLiquidity_sharesOf, if_neg (fun e => hwho e.2.symm)]
    exact h.outside

theorem Exitable.burned {b : AssetId} {who : A} {n : Balance} (hle : n.toNat ≤ s.sharesOf b who) :
    Exitable cfg coreAssetId aid (burnLiquidity s (s.coreAssetId, b) who n) := by
  refine ⟨h.core, ?_, ?_, h.deposits, h.fits, h.unlocked⟩
  · rw [burnLiquidity_shares hle, burnLiquidity_providedShares hle, h.shares]
  · rw [burnLiquidity_sharesOf hle]
    have hout := h.outside
    split <;> omega

theorem Exitable.dispatch (orderly : call.Orderly cfg aid s)
    (hd : dispatch cfg s call = .ok s') : Exitable cfg coreAssetId aid s' := by
  obtain ⟨t, ht, hbo⟩ := dispatch_inv hd
  have hk := h.transfers ht
  have hfr := ht.frame
  cases call with
  | buyAsset trader rcp sell buy n maximum => exact (show s' = t from hbo) ▸ hk
  | sellAsset trader rcp sell buy n mn => exact (show s' = t from hbo) ▸ hk
  | addLiquidity who b minLiquidity maxA core =>
    obtain rfl : s' = mintLiquidity t _ who _ := hbo
    refine hk.minted ?_ ?_
    · rw [← h.core]
      exact orderly.1
    · rw [hfr]
      exact orderly.2
  | removeLiquidity who b liq minAsset minCore =>
    obtain ⟨hle, rfl⟩ := hbo
    have hc : s.coreAssetId = t.coreAssetId := by rw [hfr]
    rw [hc]
    refine hk.burned ?_
    rw [hfr]
    exact hle
  | setFeeRate rate =>
    obtain rfl : s' = { t with defaultFeeRate := rate } := hbo
    exact ⟨hk.core, hk.shares, hk.outside, hk.deposits, hk.fits, hk.unlocked⟩

theorem Exitable.step (orderly : call.Orderly cfg aid s) :
    Exitable cfg coreAssetId aid (step cfg s call) :=
  step_cases (P := Exitable cfg coreAssetId aid) (fun _ hd => h.dispatch orderly hd) h

end

/-! ### Withdrawing everything -/

def exitCall (s : State A) (aid : AssetId) (who : A) : Call A :=
  .removeLiquidity who aid (s.liquidityBalance.getD ((s.coreAssetId, aid), who) 0) 0 0

def exitStep (cfg : Config A) (aid : AssetId) (s : State A) (who : A) : State A :=
  step cfg s (exitCall s aid who)

section
variable {cfg : Config A} {s : State A} {coreAssetId aid : AssetId} {who : A}

section
variable (h : Exitable cfg coreAssetId aid s)
include h

theorem Exitable.shares_eq_zero (hn : ∀ x, s.sharesOf aid x = 0) : s.shares aid = 0 := by
  rw [h.shares]
  refine sumBy_eq_zero fun k v hk => ?_
  unfold StorageMap.under
  split_ifs with hkey
  · have hz := hn k.2
    unfold State.sharesOf at hz
    rw [← hkey, getD_of_get? hk] at hz
    exact hz
  · rfl

theorem Exitable.transfer_isOk {val : Balance} (ccy : AssetId)
    (hwho : cfg.exchangeAddressFor coreAssetId aid ≠ who)
    (hfu : val.toNat ≤ s.assets.freeOf ccy (cfg.exchangeAddressFor coreAssetId aid)) :
    ∃ s', s.transfer cfg (cfg.exchangeAddressFor coreAssetId aid) who ccy val = .ok s' := by
  obtain ⟨assets, hss⟩ := GenericAsset.transfer_isOk cfg.assets hfu hwho (h.fits ccy) (h.unlocked ccy)
  refine ⟨{ s with assets := assets }, ?_⟩
  simp only [State.transfer, bind_eq_ok, mapError_eq_ok, pure_eq_ok]
  exact ⟨assets, hss, rfl⟩

variable (hne : aid ≠ coreAssetId) (hpos : 0 < s.sharesOf aid who) (hf : (exitCall s aid who).ProductsFit cfg s)
include hne hpos hf

theorem Exitable.exit_isOk :
    ∃ s', removeLiquidity cfg s who aid (s.liquidityBalance.getD ((s.coreAssetId, aid), who) 0) 0 0 = .ok s' := by
  obtain rfl := h.core
  have hle := sharesOf_le_providedShares s aid who
  have htot : 0 < s.shares aid := by
    rw [h.shares]
    omega
  have hwho : s.exchangeAddress cfg aid ≠ who := by
    rintro rfl
    exact absurd h.outside hpos.ne'
  obtain ⟨hz, -⟩ | ⟨-, -, hcv, hav⟩ := calculateLiquidityValue_exact_iff.mpr hf
  · exact absurd hz htot.ne'
  obtain ⟨s₁, h₁⟩ := h.transfer_isOk s.coreAssetId hwho (hcv.trans_le (redeemed_le (Nat.min_le_right _ _)))
  have m₁ := transfer_moved h.deposits h₁
  obtain ⟨s₂, h₂⟩ := (h.transfers (.transfer .refl h₁)).transfer_isOk aid hwho (by
    rw [m₁.others aid hne]
    exact hav.trans_le (redeemed_le (Nat.min_le_right _ _)))
  exact ⟨_, removeLiquidity_eq_ok.mpr ⟨Nat.le_refl _, htot, Nat.zero_le _, Nat.zero_le _, s₁, s₂, h₁, h₂, rfl⟩⟩

theorem Exitable.exit :
    (∃ s', Cennzx.dispatch cfg s (exitCall s aid who) = .ok s') ∧
      Exitable cfg coreAssetId aid (exitStep cfg aid s who) ∧
      (∀ x, (exitStep cfg aid s who).sharesOf aid x = if x = who then 0 else s.sharesOf aid x) ∧
      ((exitStep cfg aid s who).shares aid = 0 → (exitStep cfg aid s who).coreReserve cfg aid = 0 ∧
          (exitStep cfg aid s who).assetReserve cfg aid = 0) := by
  obtain ⟨s', hok⟩ := h.exit_isOk hne hpos hf
  have hdi : Cennzx.dispatch cfg s (exitCall s aid who) = .ok s' := hok
  have hs : exitStep cfg aid s who = s' := by
    unfold exitStep Cennzx.step
    rw [hdi]
  rw [hs]
  have hor : (exitCall s aid who).Orderly cfg aid s := trivial
  refine ⟨⟨s', hdi⟩, h.dispatch hor hdi, fun x => ?_, fun hz => ?_⟩
  · obtain ⟨t, ht, -, rfl⟩ := dispatch_inv hdi
    have hfr := ht.frame
    have hc : s.coreAssetId = t.coreAssetId := by rw [hfr]
    have hk : t.sharesOf = s.sharesOf := by
      rw [hfr]
      rfl
    have hall : (s.liquidityBalance.getD ((s.coreAssetId, aid), who) 0).toNat = s.sharesOf aid who := rfl
    rw [hc, burnLiquidity_sharesOf] <;> rw [← hc, hall, hk]
    by_cases hx : x = who
    · rw [if_pos ⟨rfl, hx⟩, if_pos hx, hx, Nat.sub_self]
    · rw [if_neg (fun e => hx e.2), if_neg hx]
  · have hwho : who ≠ s.exchangeAddress cfg aid := by
      rintro rfl
      have hout := h.outside
      rw [← h.core] at hout
      exact absurd hout hpos.ne'
    obtain ⟨hc, hst, hsh⟩ := removeLiquidity_reserves (h.core ▸ hne) h.deposits hwho hf hok
    have hle := sharesOf_le_providedShares s aid who
    have hpo : 0 < s.shares aid := by
      rw [h.shares]
      omega
    rw [hsh] at hz
    have hall : min (s.liquidityBalance.getD ((s.coreAssetId, aid), who) 0).toNat (s.shares aid) =
        s.shares aid := by omega
    rw [hc, hst, hall, redeemed_all hpo, redeemed_all hpo, Nat.sub_self, Nat.sub_self]
    exact ⟨rfl, rfl⟩

end

theorem Exitable.exit_all (hne : aid ≠ coreAssetId) (providers : List A)
    (h : Exitable cfg coreAssetId aid s) (hno : providers.Nodup)
    (hall : ∀ x, x ∈ providers ↔ 0 < s.sharesOf aid x)
    (hf : Each (exitStep cfg aid) (fun t x => (exitCall t aid x).ProductsFit cfg t) s providers) :
    Each (exitStep cfg aid) (fun t x => ∃ t', Cennzx.dispatch cfg t (exitCall t aid x) = .ok t') s providers ∧
      (providers ≠ [] → (execute (exitStep cfg aid) s providers).coreReserve cfg aid = 0 ∧
        (execute (exitStep cfg aid) s providers).assetReserve cfg aid = 0) := by
  induction providers generalizing s with
  | nil => exact ⟨trivial, fun hnil => absurd rfl hnil⟩
  | cons who providers ih =>
    obtain ⟨hnt, hno⟩ := nodup_cons.mp hno
    obtain ⟨hok, hnx, hsh, hey⟩ := h.exit hne ((hall who).mp mem_cons_self) hf.1
    have hr (x : A) : x ∈ providers ↔ 0 < (exitStep cfg aid s who).sharesOf aid x := by
      rw [hsh]
      by_cases hx : x = who
      · rw [if_pos hx, hx]
        exact iff_of_false hnt (Nat.lt_irrefl 0)
      · rw [if_neg hx, ← hall, mem_cons]
        exact (or_iff_right hx).symm
    obtain ⟨hoth, hl⟩ := ih hnx hno hr hf.2
    refine ⟨⟨hok, hoth⟩, fun _ => ?_⟩
    cases providers with
    | nil =>
      refine hey (hnx.shares_eq_zero fun x => ?_)
      have hn := (hr x).not.mp not_mem_nil
      omega
    | cons next providers => exact hl (cons_ne_nil _ _)

end

theorem Exitable.genesis {cfg : Config A} {ledger : GenericAsset.State A} {coreAssetId aid : AssetId}
    {feeRate : FeeRate perMillion} (hde : ∀ a, ledger.existentialDeposit a = 1)
    (hf : ∀ a, ledger.holdings a < 2 ^ 128)
    (hun : ∀ a, ledger.locks.getD (a, cfg.exchangeAddressFor coreAssetId aid) [] = []) :
    Exitable cfg coreAssetId aid (.genesis ledger coreAssetId feeRate) :=
  ⟨rfl, rfl, rfl, hde, hf, hun⟩

/-- From every state that calls reach, the providers of a pool of a trade asset can withdraw all they have, in any
order, and the last leaves both reserves empty. -/
theorem providers_exit (cfg : Config A) (ledger : GenericAsset.State A) (coreAssetId assetId : AssetId)
    (feeRate : FeeRate perMillion) (hne : assetId ≠ coreAssetId) (hdeposits : ∀ a, ledger.existentialDeposit a = 1)
    (hfits : ∀ a, ledger.holdings a < 2 ^ 128)
    (hunlocked : ∀ a, ledger.locks.getD (a, cfg.exchangeAddressFor coreAssetId assetId) [] = [])
    (calls : List (Call A))
    (run : Each (step cfg) (Call.Orderly cfg assetId) (.genesis ledger coreAssetId feeRate) calls) (providers : List A)
    (hnodup : providers.Nodup)
    (hall : ∀ who, who ∈ providers ↔
      0 < (execute (step cfg) (.genesis ledger coreAssetId feeRate) calls).sharesOf assetId who)
    (hproducts : Each (exitStep cfg assetId) (fun s who => (exitCall s assetId who).ProductsFit cfg s)
      (execute (step cfg) (.genesis ledger coreAssetId feeRate) calls) providers) :
    let reached := execute (step cfg) (.genesis ledger coreAssetId feeRate) calls
    Each (exitStep cfg assetId) (fun s who => ∃ s', dispatch cfg s (exitCall s assetId who) = .ok s') reached
        providers ∧
      (providers ≠ [] → (execute (exitStep cfg assetId) reached providers).coreReserve cfg assetId = 0 ∧
        (execute (exitStep cfg assetId) reached providers).assetReserve cfg assetId = 0) := by
  have hre := run.invariant (I := Exitable cfg coreAssetId assetId) (fun _ _ orderly h => h.step orderly)
    (.genesis hdeposits hfits hunlocked)
  exact Exitable.exit_all hne providers hre hnodup hall hproducts

def endowedPair : GenericAsset.GenesisConfig Nat where
  assets := [0, 1]
  initialBalance := 1000000
  endowedAccounts := [7, 8]
  nextAssetId := 17000
  permissions := []
  assetMeta := []

def sharing : List (Call Nat) :=
  [.addLiquidity 7 1 1 1000 500, .sellAsset 8 none 0 1 100 1, .addLiquidity 8 1 1 1000 33]

def sharedPool : State Nat := execute (step plainConfig) (.genesis (.build endowedPair) 0 ⟨3000⟩) sharing

theorem sharedPool_providers (who : Nat) : who ∈ [8, 7] ↔ 0 < sharedPool.sharesOf 1 who := by
  have hent : sharedPool.liquidityBalance.entries.map (fun e => e.1.2) = [8, 7] := by decide +kernel
  constructor
  · intro h
    rcases mem_pair.mp h with rfl | rfl <;> decide +kernel
  · intro hpos
    unfold State.sharesOf StorageMap.getD at hpos
    cases hget : sharedPool.liquidityBalance.get? ((sharedPool.coreAssetId, 1), who) with
    | none =>
      rw [hget] at hpos
      exact absurd hpos (Nat.lt_irrefl 0)
    | some v =>
      rw [← hent]
      exact mem_map.mpr ⟨_, mem_entries.mpr hget, rfl⟩

theorem sharedPool_exit :
    Each (exitStep plainConfig 1) (fun s who => ∃ s', dispatch plainConfig s (exitCall s 1 who) = .ok s') sharedPool
        [8, 7] ∧
      (execute (exitStep plainConfig 1) sharedPool [8, 7]).coreReserve plainConfig 1 = 0 ∧
      (execute (exitStep plainConfig 1) sharedPool [8, 7]).assetReserve plainConfig 1 = 0 := by
  have hba : (GenericAsset.State.build endowedPair).Balanced :=
    GenericAsset.build_balanced (by decide) (by decide) (by decide)
  obtain ⟨hok, hey⟩ := providers_exit plainConfig (.build endowedPair) 0 1 ⟨3000⟩ (by decide) (fun _ => rfl)
    hba.holdings_lt (fun _ => rfl) sharing
    ⟨⟨by decide, fun _ => by decide +kernel⟩, trivial, ⟨by decide, fun _ => by decide +kernel⟩, trivial⟩ [8, 7] (by decide)
    sharedPool_providers (by decide +kernel)
  exact ⟨hok, hey (cons_ne_nil _ _)⟩

/-- A pool of the core asset, with one unit on either side: the two are one balance, and its only provider is due all of
it twice. -/
theorem core_pool_exit_fails :
    let s := execute (step plainConfig) (.genesis (.build endowedPair) 0 ⟨3000⟩) [.addLiquidity 7 0 1 1 1]
    s.shares 0 = 1 ∧ s.sharesOf 0 7 = 1 ∧ s.coreReserve plainConfig 0 = 2 ∧
      ¬∃ s', dispatch plainConfig s (exitCall s 0 7) = .ok s' := by
  intro s
  have hfa : (dispatch plainConfig s (exitCall s 0 7)).isOk = false := by decide +kernel
  refine ⟨by decide +kernel, by decide +kernel, by decide +kernel, ?_⟩
  rintro ⟨s', h⟩
  rw [h] at hfa
  cases hfa

end Cennzx
