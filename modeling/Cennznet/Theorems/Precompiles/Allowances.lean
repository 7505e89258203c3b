import Cennznet.Lib.Run
import Cennznet.TokenApprovals
import Cennznet.Theorems.GenericAsset.Transfer
import Cennznet.Theorems.Precompiles.Addresses

/-! # Allowances of the ERC-20 precompiles -/

namespace Precompiles.Erc20PrecompileSet

open EthBridge (EthAddress)
open GenericAsset (AssetId Balance)
open PrefixedAddressMapping (intoAccountId)
open Result Steps StorageMap Word List

/-- `n` of the asset goes from the owner to another address, at the cost of the allowance. -/
structure Spent (c c' : Chain) (a : AssetId) (owner dest spender : EthAddress) (n : Nat) : Prop where
  paid : c'.nft.assets.freeOf a (intoAccountId owner) + n = c.nft.assets.freeOf a (intoAccountId owner)
  received : c'.nft.assets.freeOf a (intoAccountId dest) = c.nft.assets.freeOf a (intoAccountId dest) + n
  others : ∀ b who, ¬(b = a ∧ (who = intoAccountId owner ∨ who = intoAccountId dest)) →
    c'.nft.assets.freeOf b who = c.nft.assets.freeOf b who
  lowered : (allowance c' a owner spender).toNat + n = (allowance c a owner spender).toNat
  kept : ∀ b owner' spender', ¬(b = a ∧ owner' = owner ∧ spender' = spender) →
    allowance c' b owner' spender' = allowance c b owner' spender'

abbrev Op := Context × AssetId × Call

section
variable (cfg : GenericAsset.Config AccountId) (a : AssetId) (owner spender : EthAddress)

def step (c : Chain) (op : Op) : Chain := (Result.getD (call cfg c op.1 op.2.1 op.2.2) (c, [])).1

/-- What the call moves from the owner on account of the spender. -/
def spentBy (c : Chain) : Op → Nat
  | (x, a', .transferFrom source dest amount) =>
    match transferFrom cfg c x a' source dest amount with
    | .ok _ => if x.caller = spender ∧ source = owner ∧ a' = a then (saturatedInto 128 amount).toNat else 0
    | .error _ => 0
  | _ => 0

def totalSpent : Chain → List Op → Nat
  | _, [] => 0
  | c, op :: ops => spentBy cfg a owner spender c op + totalSpent (step cfg c op) ops

def Approves : Op → Prop
  | (x, a', .approve spender' _) => a' = a ∧ x.caller = owner ∧ spender' = spender
  | _ => False

/-- A transfer by another caller than the owner spends the amount, up to what fits. -/
def SpendsExactly (c : Chain) (op : Op) : Prop :=
  ∀ x a source dest amount c' logs, op = (x, a, .transferFrom source dest amount) → x.caller ≠ source → source ≠ dest →
    transferFrom cfg c x a source dest amount = .ok (c', logs) →
      Spent c c' a source dest x.caller (saturatedInto 128 amount).toNat

end

variable {cfg : GenericAsset.Config AccountId} {c c' : Chain} {x : Context} {a : AssetId}
  {owner spender source dest : EthAddress} {n : Balance} {amount : BitVec 256} {logs : List (Log 128)}
  {op : Op}

theorem spendApproval_inv {s : TokenApprovals.State} (hne : x.caller ≠ source) (h : spendApproval c x a source n = .ok s) :
    (s.erc20Approvals.getD ((source, a), x.caller) 0).toNat + n.toNat = (allowance c a source x.caller).toNat ∧
      ∀ k, k ≠ ((source, a), x.caller) → s.erc20Approvals.getD k 0 = c.approvals.erc20Approvals.getD k 0 := by
  unfold spendApproval at h
  rw [if_neg hne] at h
  simp only [bind_eq_ok, okOr_eq_ok, checkedSub_eq_some] at h
  obtain ⟨rest, hr, h⟩ := h
  split_ifs at h with h0
  · cases h
    refine ⟨Eq.trans ?_ hr, fun k hk => getD_remove.trans (if_neg hk)⟩
    rw [h0]
    exact congrArg (fun m : Balance => m.toNat + n.toNat) (getD_remove.trans (if_pos rfl))
  · simp only [mapError_eq_ok, TokenApprovals.erc20Approval, bind_eq_ok, pure_eq_ok] at h
    obtain ⟨_, -, rfl⟩ := h
    refine ⟨Eq.trans ?_ hr, fun k hk => getD_insert.trans (if_neg hk)⟩
    exact congrArg (fun m : Balance => m.toNat + n.toNat) (getD_insert.trans (if_pos rfl))

theorem dispatchTransfer_inv (h : dispatchTransfer cfg c a source dest n = .ok c') :
    GenericAsset.Transferred c.nft.assets c'.nft.assets a (intoAccountId source) (intoAccountId dest) n.toNat ∧
      c'.approvals = c.approvals := by
  simp only [dispatchTransfer, bind_eq_ok, mapError_eq_ok, GenericAsset.dispatch, pure_eq_ok] at h
  obtain ⟨assets, htr, rfl⟩ := h
  split at htr
  · cases htr
  · exact ⟨GenericAsset.makeTransfer_inv htr, rfl⟩

theorem transferFrom_inv (h : transferFrom cfg c x a source dest amount = .ok (c', logs)) :
    spendApproval c x a source (saturatedInto 128 amount) = .ok c'.approvals ∧
      GenericAsset.Transferred c.nft.assets c'.nft.assets a (intoAccountId source) (intoAccountId dest)
        (saturatedInto 128 amount).toNat := by
  simp only [transferFrom, bind_eq_ok, pure_eq_ok, Prod.mk.injEq] at h
  obtain ⟨s, hs, c', hc, rfl, -⟩ := h
  obtain ⟨htr, hap⟩ := dispatchTransfer_inv hc
  exact ⟨hap ▸ hs, htr⟩

theorem spent_of_transferFrom (hed : (c.nft.assets.existentialDeposit a).toNat ≤ 1) (hne : x.caller ≠ source)
    (hsd : source ≠ dest) (h : transferFrom cfg c x a source dest amount = .ok (c', logs)) :
    Spent c c' a source dest x.caller (saturatedInto 128 amount).toNat := by
  obtain ⟨hap, htr⟩ := transferFrom_inv h
  obtain ⟨hal, hoth⟩ := spendApproval_inv hne hap
  have hdi : intoAccountId source ≠ intoAccountId dest :=
    fun heq => hsd (Function.LeftInverse.injective intoAccountId_recovered heq)
  have hmo := htr.amounts hed
  refine ⟨?_, ?_, fun b who hb => ?_, hal, fun b o s hk => hoth _ fun heq => hk ?_⟩
  · rw [hmo, GenericAsset.moved_source hdi]
    exact Nat.sub_add_cancel htr.funded
  · rw [hmo, GenericAsset.moved_dest hdi]
  · by_cases hba : b = a
    · subst hba
      rw [not_and, not_or] at hb
      obtain ⟨hs, hd⟩ := hb rfl
      rw [hmo, GenericAsset.moved_other hs hd]
    · rw [htr.others b hba]
  · cases heq
    exact ⟨rfl, rfl, rfl⟩

theorem call_assetMeta {y : Chain × List (Log 128)} (h : call cfg c op.1 op.2.1 op.2.2 = .ok y) :
    y.1.nft.assets.assetMeta = c.nft.assets.assetMeta := by
  obtain ⟨x, a, call⟩ := op
  cases call with
  | approve spender amount =>
    simp only [Erc20PrecompileSet.call, approve, bind_eq_ok, pure_eq_ok] at h
    obtain ⟨_, -, rfl⟩ := h
    rfl
  | transfer dest amount =>
    simp only [Erc20PrecompileSet.call, transfer, bind_eq_ok, pure_eq_ok] at h
    obtain ⟨_, hc, rfl⟩ := h
    exact (dispatchTransfer_inv hc).1.assetMeta
  | transferFrom source dest amount => exact (transferFrom_inv h).2.assetMeta

theorem step_assetMeta : (step cfg c op).nft.assets.assetMeta = c.nft.assets.assetMeta :=
  getD_cases (P := fun y : Chain × List (Log 128) => y.1.nft.assets.assetMeta = c.nft.assets.assetMeta)
    (fun _ h => call_assetMeta h) rfl

theorem step_allowance (hne : spender ≠ owner) (hap : ¬Approves a owner spender op) :
    (allowance (step cfg c op) a owner spender).toNat + spentBy cfg a owner spender c op =
      (allowance c a owner spender).toNat := by
  obtain ⟨x, a', call⟩ := op
  unfold step
  cases call with
  | approve spender' amount =>
    refine getD_cases (P := fun y : Chain × List (Log 128) => (allowance y.1 a owner spender).toNat + 0 =
      (allowance c a owner spender).toNat) (fun y h => ?_) rfl
    simp only [Erc20PrecompileSet.call, approve, TokenApprovals.erc20Approval, bind_eq_ok, mapError_eq_ok, pure_eq_ok] at h
    obtain ⟨_, ⟨_, -, rfl⟩, rfl⟩ := h
    refine congrArg BitVec.toNat (getD_insert.trans (if_neg fun heq => hap ?_))
    cases heq
    exact ⟨rfl, rfl, rfl⟩
  | transfer dest amount =>
    refine getD_cases (P := fun y : Chain × List (Log 128) => (allowance y.1 a owner spender).toNat + 0 =
      (allowance c a owner spender).toNat) (fun y h => ?_) rfl
    simp only [Erc20PrecompileSet.call, transfer, bind_eq_ok, pure_eq_ok] at h
    obtain ⟨_, hc, rfl⟩ := h
    exact congrArg (fun s : TokenApprovals.State => (s.erc20Approvals.getD ((owner, a), spender) 0).toNat)
      (dispatchTransfer_inv hc).2
  | transferFrom source dest amount =>
    unfold spentBy
    simp only [Erc20PrecompileSet.call]
    cases hc : transferFrom cfg c x a' source dest amount with
    | error => rfl
    | ok y =>
      obtain ⟨hs, -⟩ := transferFrom_inv hc
      dsimp only
      by_cases hca : x.caller = source
      · rw [spendApproval, if_pos hca] at hs
        rw [if_neg (fun h => hne (h.1.symm.trans (hca.trans h.2.1)))]
        exact congrArg (fun s => (StorageMap.getD s.erc20Approvals ((owner, a), spender) 0).toNat) (Except.ok.inj hs).symm
      · obtain ⟨hal, hoth⟩ := spendApproval_inv hca hs
        split_ifs with h
        · obtain ⟨rfl, rfl, rfl⟩ := h
          exact hal
        · refine congrArg BitVec.toNat (hoth _ fun heq => h ?_)
          cases heq
          exact ⟨rfl, rfl, rfl⟩

theorem run_allowance (cfg : GenericAsset.Config AccountId) (hne : spender ≠ owner) {ops : List Op}
    (hap : ∀ op ∈ ops, ¬Approves a owner spender op) :
    (allowance (Steps.execute (step cfg) c ops) a owner spender).toNat + totalSpent cfg a owner spender c ops =
      (allowance c a owner spender).toNat := by
  induction ops generalizing c with
  | nil => rfl
  | cons op ops ih =>
    have hone : _ + spentBy cfg a owner spender c op = _ := step_allowance hne (hap op mem_cons_self)
    have hr := ih (c := step cfg c op) fun op h => hap op (mem_cons_of_mem _ h)
    rw [execute_cons, totalSpent]
    omega

theorem step_approve (hne : x.caller ≠ spender) :
    allowance (step cfg c (x, a, .approve spender amount)) a x.caller spender = saturatedInto 128 amount := by
  simp only [step, Erc20PrecompileSet.call, approve, TokenApprovals.erc20Approval, ensure, if_pos hne]
  exact getD_insert.trans (if_pos rfl)

/-- With existential deposits of at most one, each transfer by a spender moves its amount and lowers the allowance by
it. Between two approvals a spender moves at most what the former approved. -/
theorem allowances_bound_spending (cfg : GenericAsset.Config AccountId) (c : Chain)
    (hdeposit : ∀ a, (c.nft.assets.existentialDeposit a).toNat ≤ 1) (ops : List Op) :
    Each (step cfg) (SpendsExactly cfg) c ops ∧
      ∀ done mid x a spender amount, done ++ (x, a, .approve spender amount) :: mid <+: ops → x.caller ≠ spender →
        (∀ op ∈ mid, ¬Approves a x.caller spender op) →
          totalSpent cfg a x.caller spender (Steps.execute (step cfg) c (done ++ [(x, a, .approve spender amount)])) mid ≤
            (saturatedInto 128 amount).toNat := by
  constructor
  · refine each_of_invariant (I := fun c' => c'.nft.assets.assetMeta = c.nft.assets.assetMeta)
      (fun _ _ h => step_assetMeta.trans h) (fun c₁ op h x a source dest amount c' logs _ hne hsd hc => ?_) rfl
    refine spent_of_transferFrom ?_ hne hsd hc
    have heq := hdeposit a
    unfold GenericAsset.State.existentialDeposit at heq ⊢
    rwa [h]
  · intro done mid x a spender amount _ hne hap
    have hrun := run_allowance cfg (c := Steps.execute (step cfg) c (done ++ [(x, a, .approve spender amount)]))
      hne.symm hap
    rw [execute_concat, step_approve hne] at hrun
    rw [execute_concat]
    exact hrun ▸ Nat.le_add_left _ _

def funded : Chain := ⟨.genesis (GenericAsset.setFreeBalance (.genesis 17000) 1 (intoAccountId 1) 100), .genesis⟩

def spends : List Op :=
  [(⟨0, 2⟩, 1, .transferFrom 1 3 4), (⟨0, 2⟩, 1, .transferFrom 1 3 7), (⟨0, 2⟩, 1, .transferFrom 1 3 6)]

theorem allowance_used_up :
    let ops : List Op := (⟨0, 1⟩, 1, .approve 2 10) :: spends
    (Steps.execute (step ⟨0⟩) funded ops).nft.assets.freeOf 1 (intoAccountId 3) = 10 ∧
      totalSpent ⟨0⟩ 1 1 2 (Steps.execute (step ⟨0⟩) funded [(⟨0, 1⟩, 1, .approve 2 10)]) spends ≤ 10 :=
  ⟨by decide +kernel, (allowances_bound_spending ⟨0⟩ funded (fun _ => Nat.le_refl 1) _).2 [] spends ⟨0, 1⟩ 1 2 10
    (prefix_refl _) (by decide) (by simp [spends, Approves])⟩

end Precompiles.Erc20PrecompileSet
