import Cennznet.Theorems.Staking.EraRewards

/-! # The split of a validator's payout

Each share is rounded by itself, and the rest saturates. -/

namespace Rewards

open Word List
open GenericAsset (Balance)
open Staking (EraIndex)

variable {A : Type}

/-! ### The shares of the stakers -/

def afterCommission (com : Perbill) (reward : Balance) : Nat := reward.toNat - (com.mul reward).toNat

def shareParts (cfg : Config A) (com : Perbill) (exps : Exposure A) (reward : Balance) : List Nat :=
  (exps.others.map (·.value) ++ [exps.own]).map fun stake =>
    (cfg.fromRational stake.toNat (max exps.total.toNat 1)).parts * afterCommission com reward

/-- What rounding up gains is covered by what rounding down loses and the ratios leave. -/
def SharesFit (cfg : Config A) (com : Perbill) (exps : Exposure A) (reward : Balance) : Prop :=
  let parts := shareParts cfg com exps reward
  parts.sum + Rounding.gained Perbill.accuracy parts ≤
    Perbill.accuracy * afterCommission com reward + Rounding.lost Perbill.accuracy parts

instance (cfg : Config A) (com : Perbill) (exps : Exposure A) (reward : Balance) :
    Decidable (SharesFit cfg com exps reward) :=
  inferInstanceAs (Decidable (_ ≤ _))

section
variable {cfg : Config A} {com : Perbill} {exps : Exposure A} {reward : Balance}

theorem sum_shares_eq_zero (h : afterCommission com reward = 0) :
    ((shareParts cfg com exps reward).map (Rounding.nearest · Perbill.accuracy)).sum = 0 := by
  simp [shareParts, h, Function.comp_def]

variable [DecidableEq A] [Inhabited A] {s : State A} {v : A}

theorem paid_calculateNposPayouts : paid (calculateNposPayouts cfg s v com exps reward) =
    ((shareParts cfg com exps reward).map (Rounding.nearest · Perbill.accuracy)).sum + (com.mul reward).toNat := by
  have hle : (com.mul reward).toNat ≤ reward.toNat := com.mul_le reward
  have hcut : (saturatingSub reward (com.mul reward)).toNat = afterCommission com reward := toNat_saturatingSub
  simp only [calculateNposPayouts, if_pos hle]
  split_ifs with hz
  · have hn : afterCommission com reward = 0 := by rw [← hcut, hz]; rfl
    simp [paid, sum_shares_eq_zero hn]
  · have hsh (ratio : Perbill) : (ratio.mul (saturatingSub reward (com.mul reward))).toNat =
        Rounding.nearest (ratio.parts * afterCommission com reward) Perbill.accuracy := by
      rw [Perbill.toNat_mul, hcut]
    -- the validator's share and its commission are parts of the reward, so their sum does not wrap
    have hown (ratio : Perbill) : (ratio.mul (saturatingSub reward (com.mul reward)) + com.mul reward).toNat =
          Rounding.nearest (ratio.parts * afterCommission com reward) Perbill.accuracy + (com.mul reward).toNat := by
      have hpa := ratio.nearest_le (afterCommission com reward)
      have hlt : reward.toNat < 2 ^ 128 := reward.isLt
      have hsp : afterCommission com reward + (com.mul reward).toNat = reward.toNat := Nat.sub_add_cancel hle
      rw [BitVec.toNat_add_of_lt (by rw [hsh]; omega), hsh]
    simp only [paid, shareParts, map_append, map_map, map_cons, map_nil,
      sum_append_nat, sum_cons, sum_nil, Function.comp_def, hsh, hown]
    omega

end

/-! ### What is minted -/

variable [DecidableEq A]

theorem paid_depositCreating (s : State A) (who : A) (val : Balance) :
    paid (depositCreating s who val).1.minted = paid s.minted + val.toNat := by
  simp [depositCreating, paid]

variable [Inhabited A]

theorem foldl_payStaker (era : EraIndex) (ps : List (A × Balance)) (acc : State A × Balance) :
    paid (ps.foldl (payStaker era) acc).1.minted = paid acc.1.minted + paid ps ∧
      (ps.foldl (payStaker era) acc).2.toNat = min (acc.2.toNat + paid ps) (2 ^ 128 - 1) := by
  induction ps generalizing acc with
  | nil =>
    have hlt : acc.2.toNat < 2 ^ 128 := acc.2.isLt
    simp only [foldl_nil, paid, map_nil, sum_nil]
    omega
  | cons p rest ih =>
    obtain ⟨hmi, him⟩ := ih (payStaker era acc p)
    have hs : paid (payStaker era acc p).1.minted = paid acc.1.minted + p.2.toNat :=
      paid_depositCreating acc.1 (payee acc.1 p.1) p.2
    have hadd : (payStaker era acc p).2.toNat = min (acc.2.toNat + p.2.toNat) (2 ^ 128 - 1) := toNat_saturatingAdd
    have hp : paid (p :: rest) = p.2.toNat + paid rest := by simp only [paid, map_cons, sum_cons]
    rw [foldl_cons, hp]
    omega

theorem paid_processRewardPayout (cfg : Config A) (s : State A) (v : A)
    (com : Perbill) (exps : Exposure A) (pay : Balance) (era : EraIndex) :
    paid (processRewardPayout cfg s v com exps pay era).minted =
      if pay = 0 then paid s.minted
      else paid s.minted + max (paid (calculateNposPayouts cfg s v com exps pay)) pay.toNat := by
  unfold processRewardPayout
  split
  · rfl
  · have hlt : pay.toNat < 2 ^ 128 := pay.isLt
    obtain ⟨hmi, him⟩ := foldl_payStaker era (calculateNposPayouts cfg s v com exps pay) (s, 0)
    dsimp only
    rw [paid_depositCreating, toNat_saturatingSub, hmi, him]
    simp only [BitVec.ofNat_eq_ofNat, BitVec.toNat_ofNat]
    omega

/-- A scheduled reward is minted exactly if the shares of its stakers fit, and only then. -/
theorem reward_minted_exactly (cfg : Config A) (s : State A) (validator : A) (commission : Perbill)
    (exposures : Exposure A) (totalPayout : Balance) (era : EraIndex) :
    paid (processRewardPayout cfg s validator commission exposures totalPayout era).minted =
        paid s.minted + totalPayout.toNat ↔
      SharesFit cfg commission exposures totalPayout := by
  have hco := commission.mul_le totalPayout
  rw [paid_processRewardPayout, SharesFit, ← Rounding.sum_nearest_le_iff (by decide)]
  split_ifs with hz
  · subst hz
    have hn : afterCommission commission 0 = 0 := Nat.zero_sub _
    rw [sum_shares_eq_zero hn]
    exact ⟨fun _ => Nat.zero_le _, fun _ => rfl⟩
  · rw [paid_calculateNposPayouts, afterCommission]
    omega

def equalStakes : Exposure Nat := { total := 8, own := 1, others := [2, 3, 4, 5, 6, 7, 8].map fun who => ⟨who, 1⟩ }

theorem eightStakers_overpaid :
    equalStakes.own.toNat + (equalStakes.others.map (·.value.toNat)).sum = equalStakes.total.toNat ∧
      paid (processRewardPayout sampleConfig (eraOf 0 []) 1 ⟨0, by decide⟩ equalStakes 1000007 5).minted = 1000008 := by
  decide +kernel

end Rewards
