import Cennznet.Theorems.Staking.Payouts

/-! # Who is credited

The payee of what the split names is credited, and the split names payees already. -/

namespace Rewards

open Word List
open GenericAsset (Balance)
open Staking (EraIndex)

variable {A : Type}

def stakeShare (cfg : Config A) (commission : Perbill) (exposures : Exposure A) (reward stake : Balance) :
    Balance :=
  (cfg.fromRational stake.toNat (max exposures.total.toNat 1)).mul (saturatingSub reward (commission.mul reward))

def shares (cfg : Config A) (validator : A) (commission : Perbill) (exposures : Exposure A) (reward : Balance) :
    List (A × Balance) :=
  if commission.mul reward = reward then [(validator, reward)]
  else
    (exposures.others.map fun n => (n.who, stakeShare cfg commission exposures reward n.value)) ++
      [(validator, stakeShare cfg commission exposures reward exposures.own + commission.mul reward)]

def stakers (validator : A) (exposures : Exposure A) : List A :=
  exposures.others.map (·.who) ++ [validator]

theorem takesAll_iff {commission : Perbill} {reward : Balance} :
    saturatingSub reward (commission.mul reward) = 0 ↔ commission.mul reward = reward := by
  have hle := commission.mul_le reward
  rw [← toNat_eq_zero, toNat_saturatingSub, ← BitVec.toNat_inj]
  omega

theorem map_fst_shares {cfg : Config A} {validator : A} {commission : Perbill} {exposures : Exposure A}
    {reward : Balance} (h : commission.mul reward ≠ reward) :
    (shares cfg validator commission exposures reward).map Prod.fst = stakers validator exposures := by
  simp [shares, stakers, h, Function.comp_def]

theorem fst_mem_stakers {cfg : Config A} {validator : A} {commission : Perbill} {exposures : Exposure A}
    {reward : Balance} {stash : A} (h : stash ∈ (shares cfg validator commission exposures reward).map Prod.fst) :
    stash ∈ stakers validator exposures := by
  by_cases hall : commission.mul reward = reward
  · rw [shares, if_pos hall, map_singleton, mem_singleton] at h
    exact mem_append_right _ (mem_singleton.mpr h)
  · rwa [map_fst_shares hall] at h

section
variable [DecidableEq A] [Inhabited A]

def toPayees (s : State A) (pays : List (A × Balance)) : List (A × Balance) :=
  pays.map fun p => (payee s p.1, p.2)

variable (cfg : Config A) (s : State A) (validator : A) (commission : Perbill) (exposures : Exposure A)
  (reward : Balance)

theorem calculateNposPayouts_eq : calculateNposPayouts cfg s validator commission exposures reward =
    if commission.mul reward = reward then shares cfg validator commission exposures reward
    else toPayees s (shares cfg validator commission exposures reward) := by
  have hle := commission.mul_le reward
  simp only [calculateNposPayouts, if_pos hle, takesAll_iff]
  split_ifs with hall
  · rw [shares, if_pos hall, hall]
  · simp only [toPayees, shares, if_neg hall, stakeShare, map_append, map_map, map_cons, map_nil, Function.comp_def]

theorem toPayees_eq_iff {ps : List (A × Balance)} : toPayees s (toPayees s ps) = toPayees s ps ↔
      ∀ stash ∈ ps.map Prod.fst, payee s (payee s stash) = payee s stash := by
  simp only [toPayees, map_map, map_inj_left, Function.comp_apply, Prod.mk.injEq, and_true, forall_mem_map]

theorem toPayees_calculateNposPayouts_iff : toPayees s (calculateNposPayouts cfg s validator commission exposures reward) =
      toPayees s (shares cfg validator commission exposures reward) ↔
    commission.mul reward = reward ∨ ∀ stash ∈ stakers validator exposures, payee s (payee s stash) = payee s stash := by
  rw [calculateNposPayouts_eq]
  split_ifs with hall
  · exact iff_of_true rfl (Or.inl hall)
  · rw [or_iff_right hall, toPayees_eq_iff, map_fst_shares hall]

theorem paid_shares : paid (calculateNposPayouts cfg s validator commission exposures reward) =
    paid (shares cfg validator commission exposures reward) := by
  rw [calculateNposPayouts_eq]
  split
  · rfl
  · simp only [paid, toPayees, map_map, Function.comp_def]

theorem payee_congr {s t : State A} (h : t.payees = s.payees) : payee t = payee s := by
  unfold payee
  rw [h]

theorem foldl_payStaker_leaves (era : EraIndex) (ps : List (A × Balance)) (acc : State A × Balance) :
    (ps.foldl (payStaker era) acc).1.payees = acc.1.payees ∧
      (ps.foldl (payStaker era) acc).1.scheduledPayoutAmounts = acc.1.scheduledPayoutAmounts ∧
      (ps.foldl (payStaker era) acc).1.scheduledPayoutErasAndCounts = acc.1.scheduledPayoutErasAndCounts := by
  induction ps generalizing acc with
  | nil => exact ⟨rfl, rfl, rfl⟩
  | cons p rest ih => exact ih (payStaker era acc p)

theorem minted_foldl_payStaker (era : EraIndex) (pays : List (A × Balance)) (acc : State A × Balance) :
    (pays.foldl (payStaker era) acc).1.minted = acc.1.minted ++ toPayees acc.1 pays := by
  induction pays generalizing acc with
  | nil => exact (append_nil _).symm
  | cons p rest ih =>
    have hs : (payStaker era acc p).1.minted = acc.1.minted ++ [(payee acc.1 p.1, p.2)] := rfl
    have hk : (payStaker era acc p).1.payees = acc.1.payees := rfl
    have hto : toPayees (payStaker era acc p).1 rest = toPayees acc.1 rest := by
      unfold toPayees
      rw [payee_congr hk]
    rw [foldl_cons, ih, hs, hto, append_assoc]
    rfl

def leftOver (cfg : Config A) (validator : A) (commission : Perbill) (exposures : Exposure A) (totalPayout : Balance) :
    Balance :=
  BitVec.ofNat 128 (totalPayout.toNat - paid (shares cfg validator commission exposures totalPayout))

variable (totalPayout : Balance) (era : EraIndex)

theorem minted_processRewardPayout : (processRewardPayout cfg s validator commission exposures totalPayout era).minted =
    s.minted ++ if totalPayout = 0 then []
      else toPayees s (calculateNposPayouts cfg s validator commission exposures totalPayout) ++
        [(cfg.treasuryAccount, leftOver cfg validator commission exposures totalPayout)] := by
  unfold processRewardPayout
  split
  · exact (append_nil _).symm
  · have hmi := minted_foldl_payStaker era (calculateNposPayouts cfg s validator commission exposures totalPayout) (s, 0)
    have hsum := (foldl_payStaker era (calculateNposPayouts cfg s validator commission exposures totalPayout) (s, 0)).2
    have hlt := totalPayout.isLt
    have hr : saturatingSub totalPayout
        ((calculateNposPayouts cfg s validator commission exposures totalPayout).foldl (payStaker era) (s, 0)).2 =
          leftOver cfg validator commission exposures totalPayout := by
      rw [← BitVec.toNat_inj, toNat_saturatingSub, hsum, paid_shares, leftOver]
      simp only [BitVec.ofNat_eq_ofNat, BitVec.toNat_ofNat]
      omega
    simp only [depositCreating, hmi, hr, append_assoc]

theorem processRewardPayout_leaves :
    (processRewardPayout cfg s validator commission exposures totalPayout era).payees = s.payees ∧
    (processRewardPayout cfg s validator commission exposures totalPayout era).scheduledPayoutAmounts =
      s.scheduledPayoutAmounts ∧
    (processRewardPayout cfg s validator commission exposures totalPayout era).scheduledPayoutErasAndCounts =
      s.scheduledPayoutErasAndCounts := by
  unfold processRewardPayout
  split
  · exact ⟨rfl, rfl, rfl⟩
  · have hle := foldl_payStaker_leaves era (calculateNposPayouts cfg s validator commission exposures totalPayout) (s, 0)
    simp only [depositCreating]
    exact hle

def dueCredits : List (A × Balance) :=
  if totalPayout = 0 then []
  else toPayees s (shares cfg validator commission exposures totalPayout) ++
    [(cfg.treasuryAccount, leftOver cfg validator commission exposures totalPayout)]

/-- Every share of a payout is credited to the payee of its stash, and to nobody else, exactly if there is nothing to
pay, the commission takes it all, or no payee of a staker has another payee. -/
theorem credited_to_payees_iff : (processRewardPayout cfg s validator commission exposures totalPayout era).minted =
      s.minted ++ dueCredits cfg s validator commission exposures totalPayout ↔
    totalPayout = 0 ∨ commission.mul totalPayout = totalPayout ∨
      ∀ stash ∈ stakers validator exposures, payee s (payee s stash) = payee s stash := by
  rw [minted_processRewardPayout, append_right_inj, dueCredits]
  split_ifs with hz
  · exact iff_of_true rfl (Or.inl hz)
  · rw [append_left_inj, toPayees_calculateNposPayouts_iff, or_iff_right hz]

end

def chainedPayees : State Nat := { eraOf 0 [] with payees := (StorageMap.insert ∅ 2 3).insert 3 4 }

def halves : Exposure Nat := { total := 2, own := 1, others := [⟨2, 1⟩] }

theorem nominator_paid_at_payee_of_payee : payee chainedPayees 2 = 3 ∧
    (processRewardPayout sampleConfig chainedPayees 1 ⟨0, by decide⟩ halves 100 5).minted =
      [(4, 50), (1, 50), (sampleConfig.treasuryAccount, 0)] := by
  decide +kernel

end Rewards
