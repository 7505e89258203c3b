import Cennznet.Theorems.Erc20Peg.Deposit
import Cennznet.Theorems.GenericAsset.Frame

/-! # The staking currency is only moved

Before its deposits are active, the staking currency is minted. -/

namespace Erc20Peg

open EthBridge (EthAddress)
open GenericAsset

variable {K A : Type}

variable [DecidableEq A]

/-- The staking currency only moves between a user and the peg account, and to the account of the dust. -/
def OnlyMoves (cfg : Config A) (s s' : State K A) : Prop :=
  ∃ user, Moves s.assets s'.assets cfg.stakingCurrency [user, cfg.pegAccount, cfg.assets.dustAccount]

/-- A deposit of the staking currency finds its deposits active, and no token gets its id. -/
def SparesStaking (cfg : Config A) (s : State K A) (op : Op K A) : Prop :=
  ∀ event, op.deposit? cfg s = some event →
    match s.erc20ToAssetId.get? event.tokenAddress with
    | some aid => aid = cfg.stakingCurrency → event.amount ≠ 0 → s.cennzDepositsActive = true
    | none => s.Creates event.tokenAddress → s.assets.nextAssetId ≠ cfg.stakingCurrency

variable {cfg : Config A} {s : State K A} {aid a : AssetId} {n : Balance}
  {ben o : A}

theorem tookPayment_moves {assets assets' : GenericAsset.State A} (h : TookPayment cfg assets o aid n assets') :
    Moves assets assets' cfg.stakingCurrency [o, cfg.pegAccount, cfg.assets.dustAccount] := by
  unfold TookPayment at h
  split_ifs at h with hst
  · subst hst
    exact transfer_moves h
  · obtain ⟨left, imb, hwi, rfl⟩ := h
    exact (withdraw_leaves hwi (Ne.symm hst)).moves _

theorem payDeposit_leaves (h : a ≠ aid) : Leaves s.assets (payDeposit cfg s aid n ben) a := by
  unfold payDeposit
  split
  · refine Result.getD_cases (P := fun assets' => Leaves s.assets assets' a) (fun assets' hok => ?_) .refl
    exact transfer_leaves hok h
  · exact depositCreating_leaves h

theorem payDeposit_moves (h : n ≠ 0 → s.cennzDepositsActive = true) :
    Moves s.assets (payDeposit cfg s cfg.stakingCurrency n ben) cfg.stakingCurrency
      [ben, cfg.pegAccount, cfg.assets.dustAccount] := by
  by_cases hac : s.cennzDepositsActive = true
  · rw [payDeposit_transfer ⟨rfl, hac⟩]
    refine Result.getD_cases (P := fun assets' => Moves s.assets assets' cfg.stakingCurrency _)
      (fun assets' hok => ?_) (Leaves.refl.moves _)
    exact (transfer_moves hok).mono (by simp)
  · have hz : n = 0 := by
      by_contra hne
      exact hac (h hne)
    subst hz
    rw [payDeposit_mint fun hbo => hac hbo.2]
    exact dropPositive_zero_leaves.moves _

variable [Inhabited A]

theorem doDeposit_moves {op : Op K A} {ev : Erc20DepositEvent} {t : State K A}
    (hop : op.deposit? cfg s = some ev) (h : doDeposit cfg s ev = .ok (t, aid, n, ben))
    (hsp : SparesStaking cfg s op) : OnlyMoves cfg s t := by
  have hev := hsp ev hop
  obtain ⟨s₁, hss, -, hamo, rfl⟩ := doDeposit_eq_ok.mp h
  refine ⟨ben, ?_⟩
  rcases assetOf_eq_ok.mp hss with ⟨hkn, rfl⟩ | ⟨hun, assets, hce, rfl⟩
  · rw [hkn] at hev
    by_cases hst : aid = cfg.stakingCurrency
    · subst hst
      refine payDeposit_moves fun hne => hev rfl fun hz => hne ?_
      rw [hz] at hamo
      exact Word.toNat_eq_zero.mp hamo.symm
    · exact (payDeposit_leaves (Ne.symm hst)).moves _
  · rw [hun] at hev
    obtain ⟨hcr, rfl, rfl⟩ := createFor_eq_ok.mp hce
    have hne : cfg.stakingCurrency ≠ s.assets.nextAssetId := (hev hcr).symm
    have hcd : Leaves s.assets (s.opened cfg ev.tokenAddress) cfg.stakingCurrency := created_leaves hne
    exact (hcd.trans (payDeposit_leaves (s := s.withAsset _ _ _) hne)).moves _

variable [DecidableEq K]

theorem step_onlyMoves {op : Op K A} (h : SparesStaking cfg s op) : OnlyMoves cfg s (step cfg s op) := by
  have hs {s' : State K A} (heq : s'.books.assets = s.books.assets) : OnlyMoves cfg s s' := by
    have hss : s'.assets = s.assets := heq
    refine ⟨cfg.pegAccount, ?_⟩
    rw [hss]
    exact Leaves.refl.moves _
  cases step_effect cfg s op with
  | frame hbo => exact hs (congrArg Books.assets hbo)
  | delayed claim tx room hbo =>
    refine hs ?_
    rw [hbo]
    rfl
  | processed hbo => exact hs (processed_leaves hbo).1
  | withdrew o aid n tok ben assets hpe hto hbo =>
    have hss : (step cfg s op).assets = assets := (withdrew_leaves hbo).1
    refine ⟨o, ?_⟩
    rw [hss]
    exact tookPayment_moves hto
  | deposited ev t aid n ben hop hp hbo =>
    have hss : (step cfg s op).assets = t.assets := congrArg Books.assets hbo
    obtain ⟨user, hmo⟩ := doDeposit_moves hop hp h
    refine ⟨user, ?_⟩
    rw [hss]
    exact hmo

/-- In a run whose steps spare the staking currency, each step only moves it, and its issuance stays. -/
theorem run_onlyMoves (cfg : Config A) (s : State K A) (ops : List (Op K A))
    (hrun : Steps.Each (step cfg) (SparesStaking cfg) s ops) :
    Steps.Each (step cfg) (fun s op => OnlyMoves cfg s (step cfg s op)) s ops ∧ ∀ done, done <+: ops →
        (Steps.execute (step cfg) s done).assets.issuanceOf cfg.stakingCurrency =
          s.assets.issuanceOf cfg.stakingCurrency := by
  refine ⟨hrun.imp (I := fun _ => True) (fun _ _ _ h => h) (fun _ _ _ h => step_onlyMoves h) trivial, fun done hdo => ?_⟩
  refine hrun.throughout (I := fun t : State K A =>
    t.assets.issuanceOf cfg.stakingCurrency = s.assets.issuanceOf cfg.stakingCurrency) ?_ rfl hdo
  intro t op hsp hiss
  obtain ⟨user, hmo⟩ := step_onlyMoves hsp
  exact hmo.issuance.trans hiss

theorem active_deposit_moves :
    let deposit : Op Nat Nat := .onSuccess 3 0 1 (Erc20DepositEvent.encode ⟨206, 5, 7⟩)
    let s := Steps.execute (step sampleConfig) (sampleGenesis [50]) [.call .activateCennzDeposits, deposit]
    s.assets.issuanceOf 16000 = (sampleGenesis [50]).assets.issuanceOf 16000 ∧ s.assets.freeOf 16000 7 = 5 := by
  intro deposit s
  have hsp : SparesStaking sampleConfig (step sampleConfig (sampleGenesis [50]) (.call .activateCennzDeposits)) deposit := by
    intro event hop
    have hev : deposit.deposit? sampleConfig (step sampleConfig (sampleGenesis [50]) (.call .activateCennzDeposits)) =
        some ⟨206, 5, 7⟩ := by decide +kernel
    obtain rfl : ⟨206, 5, 7⟩ = event := Option.some.inj (hev.symm.trans hop)
    have hkn : (step sampleConfig (sampleGenesis [50]) (.call .activateCennzDeposits)).erc20ToAssetId.get? 206 =
        some 16000 := by decide +kernel
    rw [hkn]
    exact fun _ _ => rfl
  have hfi : SparesStaking sampleConfig (sampleGenesis [50]) (.call .activateCennzDeposits) := fun event hop => nomatch hop
  have hrun : Steps.Each (step sampleConfig) (SparesStaking sampleConfig) (sampleGenesis [50])
      [.call .activateCennzDeposits, deposit] := ⟨hfi, hsp, trivial⟩
  exact ⟨(run_onlyMoves _ _ _ hrun).2 _ List.prefix_rfl, by decide +kernel⟩

theorem inactive_deposit_mints :
    let deposit : Op Nat Nat := .onSuccess 3 0 1 (Erc20DepositEvent.encode ⟨206, 5, 7⟩)
    let s := sampleGenesis [50]
    s.cennzDepositsActive = false ∧ s.assets.issuanceOf 16000 = 100 ∧
      (step sampleConfig s deposit).assets.issuanceOf 16000 = 105 ∧ ¬OnlyMoves sampleConfig s (step sampleConfig s deposit) := by
  intro deposit s
  have hbe : s.assets.issuanceOf 16000 = 100 := by decide +kernel
  have haf : (step sampleConfig s deposit).assets.issuanceOf 16000 = 105 := by decide +kernel
  refine ⟨rfl, hbe, haf, ?_⟩
  rintro ⟨user, hmo⟩
  have hs := hmo.issuance
  rw [show sampleConfig.stakingCurrency = 16000 from rfl, hbe, haf] at hs
  exact absurd hs (by decide)

end Erc20Peg
