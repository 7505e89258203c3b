import Cennznet.Theorems.Erc20Peg.Books
import Cennznet.Theorems.GenericAsset.Credit

/-! # Deposits that are reported and paid

A deposit is reported as executed whatever becomes of the payment. -/

namespace Erc20Peg

open EthBridge (Bytes EthAddress EthHash EventClaimId EventProofId)
open GenericAsset List
open Result

/-! ### The event data -/

theorem addressWord_length (addr : EthAddress) : (addressWord addr).length = 32 := by
  unfold addressWord
  rw [length_append, length_replicate, BigEndian.length_encode]

theorem ofNat_decode_encode {w k : Nat} (x : BitVec w) (h : 2 ^ w = 256 ^ k) :
    BitVec.ofNat w (BigEndian.decode (BigEndian.encode k x.toNat)) = x := by
  rw [BigEndian.decode_encode (h ▸ x.isLt), BitVec.ofNat_toNat, BitVec.setWidth_eq]

theorem decode_encode (e : Erc20DepositEvent) : Erc20DepositEvent.decode e.encode = some e := by
  have hle : e.encode.length = 3 * 32 := by
    unfold Erc20DepositEvent.encode
    rw [length_append, length_append, addressWord_length, BigEndian.length_encode, BigEndian.length_encode]
  have htok : (e.encode.drop 12).take 20 = BigEndian.encode 20 e.tokenAddress.toNat := by
    unfold Erc20DepositEvent.encode addressWord
    rw [append_assoc, append_assoc, drop_left' length_replicate, take_left' BigEndian.length_encode]
  have hamo : (e.encode.drop 32).take 32 = BigEndian.encode 32 e.amount.toNat := by
    unfold Erc20DepositEvent.encode
    rw [append_assoc, drop_left' (addressWord_length _), take_left' BigEndian.length_encode]
  have hbe : e.encode.drop 64 = BigEndian.encode 32 e.beneficiary.toNat := by
    unfold Erc20DepositEvent.encode
    refine drop_left' ?_
    rw [length_append, addressWord_length, BigEndian.length_encode]
  unfold Erc20DepositEvent.decode
  rw [if_neg (not_not.mpr hle), htok, hamo, hbe, ofNat_decode_encode _ (by decide),
    ofNat_decode_encode _ (by decide), ofNat_decode_encode _ (by decide)]

variable {K A : Type} [DecidableEq A] {cfg : Config A} {s : State K A}

/-- The payment reaches the beneficiary: the transfer goes through, or the balance has room for what is minted. -/
def Pays (cfg : Config A) (s : State K A) (aid : AssetId) (amt : Balance) (beneficiary : A) : Prop :=
  if aid = cfg.stakingCurrency ∧ s.cennzDepositsActive = true then
    amt = 0 ∨ TransferPays cfg.assets s.assets aid cfg.pegAccount beneficiary amt
  else s.assets.freeOf aid beneficiary + amt.toNat < 2 ^ 128

theorem payDeposit_pays_iff {a : AssetId} {n : Balance} {beneficiary : A} :
    (payDeposit cfg s a n beneficiary).freeOf a beneficiary = s.assets.freeOf a beneficiary + n.toNat ↔
      Pays cfg s a n beneficiary := by
  unfold payDeposit Pays
  split
  · exact transfer_pays_iff
  · exact depositCreating_pays_iff

/-- The payment of a token's first deposit reaches the beneficiary. Its asset is the next one: its creation sets the
balance of the peg account to nothing. -/
def PaysFirst (cfg : Config A) (s : State K A) (amt : Balance) (beneficiary : A) : Prop :=
  (beneficiary = cfg.pegAccount → s.assets.freeOf s.assets.nextAssetId cfg.pegAccount = 0) ∧
    (amt = 0 ∨ ¬(s.assets.nextAssetId = cfg.stakingCurrency ∧ s.cennzDepositsActive = true) ∧
      s.assets.freeOf s.assets.nextAssetId beneficiary + amt.toNat < 2 ^ 128)

theorem payDeposit_transfer {a : AssetId} {n : Balance} {ben : A}
    (h : a = cfg.stakingCurrency ∧ s.cennzDepositsActive = true) :
    payDeposit cfg s a n ben = Result.getD (MultiCurrency.transfer cfg.assets s.assets cfg.pegAccount ben a n)
        s.assets :=
  if_pos h

theorem payDeposit_mint {a : AssetId} {n : Balance} {ben : A}
    (h : ¬(a = cfg.stakingCurrency ∧ s.cennzDepositsActive = true)) :
    payDeposit cfg s a n ben =
      let r := MultiCurrency.depositCreating s.assets ben a n
      dropPositive r.1 r.2 :=
  if_neg h

theorem opened_freeOf (cfg : Config A) (s : State K A) (tok : EthAddress) (x : A) :
    (s.opened cfg tok).freeOf s.assets.nextAssetId x =
      if x = cfg.pegAccount then 0 else s.assets.freeOf s.assets.nextAssetId x := by
  have hset : (setFreeBalance s.assets s.assets.nextAssetId cfg.pegAccount 0).freeOf s.assets.nextAssetId =
      Function.update (s.assets.freeOf s.assets.nextAssetId) cfg.pegAccount 0 := setFreeBalance_freeOf
  have hx := congrFun hset x
  rw [Function.update_apply] at hx
  exact hx

theorem payDeposit_first_pays_iff {tok : EthAddress} {n : Balance} {beneficiary : A} :
    (payDeposit cfg (s.withAsset (s.opened cfg tok) tok s.assets.nextAssetId) s.assets.nextAssetId n
          beneficiary).freeOf s.assets.nextAssetId beneficiary =
        s.assets.freeOf s.assets.nextAssetId beneficiary + n.toNat ↔
      PaysFirst cfg s n beneficiary := by
  have hz : n = 0 ↔ n.toNat = 0 := BitVec.toNat_inj.symm
  have hlt := n.isLt
  have hf : s.assets.freeOf s.assets.nextAssetId beneficiary < 2 ^ 128 := BitVec.isLt _
  have hopd := opened_freeOf cfg s tok beneficiary
  unfold PaysFirst
  by_cases hst : s.assets.nextAssetId = cfg.stakingCurrency ∧ s.cennzDepositsActive = true
  · have hey := (opened_freeOf cfg s tok _).trans (if_pos rfl)
    rw [payDeposit_transfer (s := s.withAsset (s.opened cfg tok) tok s.assets.nextAssetId) hst]
    unfold State.withAsset
    rw [transfer_getD_of_empty hey, hopd, hz, eq_true hst, not_true, false_and, or_false]
    by_cases hpeg : beneficiary = cfg.pegAccount
    · subst hpeg
      simp only [↓reduceIte, forall_const]
      omega
    · simp only [hpeg, ↓reduceIte, false_implies, true_and]
      omega
  · have hmi : (payDeposit cfg (s.withAsset (s.opened cfg tok) tok s.assets.nextAssetId) s.assets.nextAssetId
        n beneficiary).freeOf s.assets.nextAssetId beneficiary =
          ((s.opened cfg tok).freeOf s.assets.nextAssetId beneficiary + n.toNat) % 2 ^ 128 := by
      rw [payDeposit_mint (s := s.withAsset (s.opened cfg tok) tok s.assets.nextAssetId) hst]
      exact (congrArg BitVec.toNat depositCreating_free).trans (BitVec.toNat_add _ _)
    rw [hmi, hopd, hz, eq_true hst, true_and]
    by_cases hpeg : beneficiary = cfg.pegAccount
    · subst hpeg
      simp only [↓reduceIte, forall_const]
      omega
    · simp only [hpeg, ↓reduceIte, false_implies, true_and]
      omega

variable [Inhabited A]

/-- A deposit returned or reported as executed has been paid, and one that fails changes no balance. -/
structure ReportsPaid (cfg : Config A) (s : State K A) (event : Erc20DepositEvent) : Prop where
  returned : ∀ t aid amt beneficiary, doDeposit cfg s event = .ok (t, aid, amt, beneficiary) →
    amt.toNat = event.amount.toNat ∧
      t.assets.freeOf aid beneficiary = s.assets.freeOf aid beneficiary + event.amount.toNat
  reported : ∀ id s', onSuccess cfg s id s.contractAddress cfg.depositEventSignature event.encode = .ok s' →
    (∃ aid amt beneficiary, s'.events = s.events ++ [.erc20Deposit id aid amt beneficiary] ∧
      amt.toNat = event.amount.toNat ∧
      s'.assets.freeOf aid beneficiary = s.assets.freeOf aid beneficiary + event.amount.toNat) ∨
    (s'.events = s.events ++ [.erc20DepositFail id] ∧ s'.assets = s.assets)

def DepositPays (cfg : Config A) (s : State K A) (event : Erc20DepositEvent) : Prop :=
  ∀ beneficiary, cfg.decodeAccount event.beneficiary = some beneficiary →
    match s.erc20ToAssetId.get? event.tokenAddress with
    | some aid => Pays cfg s aid (event.amount.setWidth 128) beneficiary
    | none => s.Creates event.tokenAddress → PaysFirst cfg s (event.amount.setWidth 128) beneficiary

theorem assetOf_pays_iff {tok : EthAddress} {n : Balance} {beneficiary : A} : (∀ s₁ a, assetOf cfg s tok = .ok (s₁, a) →
        (payDeposit cfg s₁ a n beneficiary).freeOf a beneficiary = s.assets.freeOf a beneficiary + n.toNat) ↔
      match s.erc20ToAssetId.get? tok with
      | some a => Pays cfg s a n beneficiary
      | none => s.Creates tok → PaysFirst cfg s n beneficiary := by
  simp only [assetOf_eq_ok, createFor_eq_ok]
  cases s.erc20ToAssetId.get? tok with
  | some known =>
    refine Iff.trans ⟨fun h => h s known (Or.inl ⟨rfl, rfl⟩), fun h => ?_⟩ payDeposit_pays_iff
    rintro s₁ a (⟨heq, rfl⟩ | ⟨hn, -⟩)
    · cases heq
      exact h
    · cases hn
  | none =>
    constructor
    · intro h hcr
      exact payDeposit_first_pays_iff.mp (h _ _ (Or.inr ⟨rfl, _, ⟨hcr, rfl, rfl⟩, rfl⟩))
    · rintro h s₁ a (⟨hso, -⟩ | ⟨-, assets, ⟨hcr, rfl, rfl⟩, rfl⟩)
      · cases hso
      · exact payDeposit_first_pays_iff.mpr (h hcr)

theorem onSuccess_reports {ev : Erc20DepositEvent} {id : EventClaimId} {s' : State K A}
    (h : onSuccess cfg s id s.contractAddress cfg.depositEventSignature ev.encode = .ok s') :
    (∃ t a n ben, doDeposit cfg s ev = .ok (t, a, n, ben) ∧ s' = depositEvent t (.erc20Deposit id a n ben)) ∨
      s' = depositEvent s (.erc20DepositFail id) := by
  have hde : isDeposit cfg s s.contractAddress cfg.depositEventSignature = true := by simp [isDeposit]
  unfold onSuccess at h
  rw [if_pos hde, decode_encode] at h
  dsimp only at h
  split at h
  · rename_i t a n ben hp
    cases h
    exact Or.inl ⟨t, a, n, ben, hp, rfl⟩
  · cases h
  · cases h
    exact Or.inr rfl

theorem doDeposit_events {ev : Erc20DepositEvent} {t : State K A} {a : AssetId} {n : Balance}
    {ben : A} (h : doDeposit cfg s ev = .ok (t, a, n, ben)) :
    t.events = s.events := by
  obtain ⟨s₁, hst, -, -, rfl⟩ := doDeposit_eq_ok.mp h
  rcases assetOf_eq_ok.mp hst with ⟨-, rfl⟩ | ⟨-, assets, -, rfl⟩
  · rfl
  · rfl

/-- Deposits are reported and paid alike exactly if the payment reaches the beneficiary. -/
theorem reportsPaid_iff (cfg : Config A) (s : State K A) (event : Erc20DepositEvent)
    (hamount : event.amount.toNat < 2 ^ 128) : ReportsPaid cfg s event ↔ DepositPays cfg s event := by
  have hwi : (event.amount.setWidth 128).toNat = event.amount.toNat := by
    rw [BitVec.toNat_setWidth, Nat.mod_eq_of_lt hamount]
  constructor
  · intro h ben hde
    refine assetOf_pays_iff.mp fun s₁ a hst => ?_
    have hp := h.returned _ _ _ _ (doDeposit_eq_ok.mpr ⟨s₁, hst, hde, hwi.symm, rfl⟩)
    rw [hwi]
    exact hp.2
  · intro h
    have hre : ∀ t a amt ben, doDeposit cfg s event = .ok (t, a, amt, ben) → amt.toNat = event.amount.toNat ∧
          t.assets.freeOf a ben = s.assets.freeOf a ben + event.amount.toNat := by
      intro t a amt ben hok
      obtain ⟨s₁, hst, hde, heq, rfl⟩ := doDeposit_eq_ok.mp hok
      have hs : event.amount.setWidth 128 = amt := BitVec.eq_of_toNat_eq (hwi.trans heq)
      have hpa := h ben hde
      rw [hs] at hpa
      have hp := assetOf_pays_iff.mpr hpa s₁ a hst
      rw [heq]
      exact ⟨rfl, hp⟩
    refine ⟨hre, fun id s' hok => ?_⟩
    rcases onSuccess_reports hok with ⟨t, a, amt, ben, hp, rfl⟩ | rfl
    · obtain ⟨hs, hgr⟩ := hre _ _ _ _ hp
      refine Or.inl ⟨a, amt, ben, ?_, hs, hgr⟩
      exact congrArg (· ++ [Event.erc20Deposit id a amt ben]) (doDeposit_events hp)
    · exact Or.inr ⟨rfl, rfl⟩

def sampleConfig : Config Nat where
  assets := ⟨99⟩
  bridge := EthBridge.runtimeConfig
  pegAccount := 50
  stakingCurrency := 16000
  depositEventSignature := 1
  decodeAccount beneficiary := some beneficiary.toNat
  hash _ _ := 0
  dbWeight := .rocksDb

def sampleGenesis (endowed : List Nat) : State Nat Nat :=
  State.genesis 16000 [(206, cennzSymbol, 4)] (GenericAsset.State.build
      { assets := [16000], initialBalance := 100, endowedAccounts := endowed, nextAssetId := 17000, permissions := [],
        assetMeta := [] })
    (EthBridge.State.genesis [])

theorem funded_deposit_paid :
    let s := step sampleConfig (sampleGenesis [50]) (.call .activateCennzDeposits)
    ReportsPaid sampleConfig s ⟨206, 5, 7⟩ := by
  refine (reportsPaid_iff _ _ _ (by decide)).mpr fun ben hde => ?_
  cases hde
  refine (if_pos (by decide +kernel)).mpr (Or.inr ⟨by decide, ?_, ?_, ?_, ?_⟩)
  · decide +kernel
  · decide +kernel
  · decide +kernel
  · exact fun hdu => absurd hdu (by decide)

/-- With nothing on it, the deposit is reported as executed, and account 7 gets nothing. -/
theorem unfunded_deposit_reported :
    let s := step sampleConfig (sampleGenesis [1, 2]) (.call .activateCennzDeposits)
    let event : Erc20DepositEvent := ⟨206, 5, 7⟩
    event.amount.toNat < 2 ^ 128 ∧
      (doDeposit sampleConfig s event).map (fun r => (r.2, r.1.assets.freeOf 16000 7)) = .ok ((16000, 5, 7), 0) ∧
      (onSuccess sampleConfig s 3 s.contractAddress sampleConfig.depositEventSignature event.encode).map (·.events) =
        .ok [.cennzDepositsActive, .erc20Deposit 3 16000 5 7] ∧
      ¬ReportsPaid sampleConfig s event := by
  intro s event
  have hrun : (doDeposit sampleConfig s event).map (fun r => (r.2, r.1.assets.freeOf 16000 7)) = .ok ((16000, 5, 7), 0) := by
    decide +kernel
  refine ⟨by decide, hrun, by decide +kernel, fun h => ?_⟩
  obtain ⟨⟨t, a, n, ben⟩, hok, heq⟩ := map_eq_ok.mp hrun
  simp only [Prod.mk.injEq] at heq
  obtain ⟨⟨rfl, rfl, rfl⟩, hno⟩ := heq
  have hgr := (h.returned _ _ _ _ hok).2
  have hfi : event.amount.toNat = 5 := rfl
  omega

end Erc20Peg
