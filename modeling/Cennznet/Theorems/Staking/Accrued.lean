import Cennznet.Lib.Lists
import Cennznet.Staking.PayoutQueue
import Cennznet.Theorems.Staking.Payees

/-! # The estimate of a reward

The estimate looks for the payee of a stash among the accounts that the split names. -/

namespace Rewards

open Word List Lists
open GenericAsset (Balance)
open Staking (EraIndex)

variable {A : Type} [DecidableEq A]

/-! ### Sums over the payouts of one account -/

def paidTo (account : A) (payouts : List (A × Balance)) : Nat :=
  (payouts.map fun p => if p.1 = account then p.2.toNat else 0).sum

theorem paidTo_flatMap {ι : Type} (account : A) (l : List ι) (f : ι → List (A × Balance)) :
    paidTo account (l.flatMap f) = (l.map fun i => paidTo account (f i)).sum := by
  induction l with
  | nil => rfl
  | cons i l ih =>
    rw [flatMap_cons, map_cons, sum_cons, ← ih]
    simp only [paidTo, map_append, sum_append_nat]

theorem paidTo_eq_zero {account : A} {ps : List (A × Balance)} (h : account ∉ ps.map Prod.fst) :
    paidTo account ps = 0 := by
  refine sum_eq_zero fun n hn => ?_
  obtain ⟨p, hp, rfl⟩ := mem_map.mp hn
  exact if_neg fun heq => h (mem_map.mpr ⟨p, hp, heq⟩)

theorem paidTo_singleton {account who : A} {amount : Balance} :
    paidTo account [(who, amount)] = if who = account then amount.toNat else 0 :=
  Nat.add_zero _

theorem toNat_foldl_payeeCut (account : A) (ps : List (A × Balance)) (cut : Balance) :
    (ps.foldl (fun cut p => if p.1 = account then saturatingAdd cut p.2 else cut) cut).toNat =
      min (cut.toNat + paidTo account ps) (2 ^ 128 - 1) := by
  induction ps generalizing cut with
  | nil =>
    have hlt := cut.isLt
    simp only [foldl_nil, paidTo, map_nil, sum_nil]
    omega
  | cons p rest ih =>
    have hco : paidTo account (p :: rest) = (if p.1 = account then p.2.toNat else 0) + paidTo account rest := sum_cons
    rw [foldl_cons, ih, hco]
    split
    · rw [toNat_saturatingAdd]
      omega
    · omega

section
variable {cfg : Config A} {stash validator : A} {commission : Perbill} {exps : Exposure A}
  {amount : Balance}

theorem paidTo_shares_of_filtered
    (h : (decide (stash ≠ validator) && !exps.others.any (fun x => x.who = stash)) = true) :
    paidTo stash (shares cfg validator commission exps amount) = 0 := by
  refine paidTo_eq_zero fun hmem => ?_
  simp only [Bool.and_eq_true, decide_eq_true_eq, Bool.not_eq_true', any_eq_false, decide_eq_true_eq] at h
  rcases mem_append.mp (fst_mem_stakers hmem) with hoth | hown
  · obtain ⟨x, hx, hwho⟩ := mem_map.mp hoth
    exact h.2 x hx hwho
  · exact h.1 (mem_singleton.mp hown)

theorem paidTo_shares_of_zero : paidTo stash (shares cfg validator commission exps 0) = 0 := by
  have hle := commission.mul_le (0 : Balance)
  have hz : commission.mul (0 : Balance) = 0 := toNat_eq_zero.mp (Nat.le_zero.mp hle)
  rw [shares, if_pos hz, paidTo_singleton]
  exact ite_self 0

end

section
variable {cfg : Config A} {s s' : State A} {era : EraIndex} {validators : List A}
  {duration : BitVec 64}

theorem validatorPayout_le {cut amount : Balance} {points : EraRewardPoints A} {validator : A}
    (h : validatorPayout cfg cut validators points validator = some amount) : amount.toNat ≤ cut.toNat := by
  unfold validatorPayout at h
  split at h
  · obtain ⟨-, hdiv⟩ := checkedDiv_eq_some.mp h
    rw [← hdiv]
    exact Nat.div_le_self _ _
  · cases h
    exact Perbill.mul_le _ _

def scheduledAmount (s : State A) (era : EraIndex) (validator : A) : Balance :=
  s.scheduledPayoutAmounts.getD (era, validator) 0

theorem scheduledAmount_congr (hamo : s'.scheduledPayoutAmounts = s.scheduledPayoutAmounts) :
    scheduledAmount s' = scheduledAmount s := by
  unfold scheduledAmount
  rw [hamo]

/-- The payout of a validator if the era ended now. -/
def accruedPayout (cfg : Config A) (s : State A) (validators : List A) (duration : BitVec 64) (validator : A) :
    Balance :=
  (validatorPayout cfg (calculateTotalReward cfg s duration).stakersCut validators s.currentEraRewardPoints
    validator).getD 0

theorem scheduledAmount_of_onEndEra (hno : validators.Nodup)
    (hend : onEndEra cfg s validators era duration = some s') : ∀ v ∈ validators,
    validatorPayout cfg (calculateTotalReward cfg s duration).stakersCut validators s.currentEraRewardPoints v =
        some (accruedPayout cfg s validators duration v) ∧
      scheduledAmount s' era v = accruedPayout cfg s validators duration v := by
  obtain ⟨payouts, remainder, hca, -, hamo, -⟩ := onEndEra_inv cfg era hend
  obtain ⟨hpa, hso⟩ := takePayouts_inv hca
  have hfst : (payouts.map Prod.fst).Nodup := by rwa [fst_takePayouts hca]
  intro v hv
  have hmem : (v, accruedPayout cfg s validators duration v) ∈ payouts := by
    rw [hpa]
    exact mem_map.mpr ⟨v, hv, rfl⟩
  refine ⟨hso v hv, ?_⟩
  rw [scheduledAmount, hamo, StorageMap.getD, (get?_insertPayouts_eq_some hfst).mpr (Or.inl ⟨rfl, hmem⟩),
    Option.getD_some]

end

variable [Inhabited A]

/-! ### Payees that are kept apart -/

/-- No two stashes share a payee, no payee is a stash with another payee, and only stashes have payees. -/
structure PayeesApart (s : State A) (stashes : Set A) : Prop where
  injective : ∀ x ∈ stashes, ∀ y ∈ stashes, payee s x = payee s y → x = y
  settled : ∀ x ∈ stashes, payee s x ∈ stashes → payee s (payee s x) = payee s x
  keyed : ∀ x, x ∉ stashes → payee s x = x

variable {cfg : Config A} {s s' : State A} {stashes : Set A} {stash validator : A} {commission : Perbill}
  {exps : Exposure A} {amount : Balance}

theorem PayeesApart.payee_payee (h : PayeesApart s stashes) (hst : stash ∈ stashes) :
    payee s (payee s stash) = payee s stash := by
  by_cases hmem : payee s stash ∈ stashes
  · exact h.settled stash hst hmem
  · exact h.keyed _ hmem

theorem PayeesApart.eq_of_payee_eq (h : PayeesApart s stashes) (hst : stash ∈ stashes) (hva : validator ∈ stashes)
    (heq : validator = payee s stash) : validator = stash := by
  refine h.injective validator hva stash hst ?_
  rw [heq, h.payee_payee hst]

theorem PayeesApart.paidTo_toPayees (h : PayeesApart s stashes) (hst : stash ∈ stashes) {payouts : List (A × Balance)}
    (hmem : ∀ x ∈ payouts.map Prod.fst, x ∈ stashes) :
    paidTo (payee s stash) (toPayees s payouts) = paidTo stash payouts := by
  unfold paidTo toPayees
  rw [map_map]
  refine congrArg List.sum (map_congr_left fun p hp => if_congr ⟨fun heq => ?_, fun heq => heq ▸ rfl⟩ rfl rfl)
  exact h.injective p.1 (hmem p.1 (mem_map_of_mem hp)) stash hst heq

/-! ### One validator -/

def estimatedPayouts (cfg : Config A) (s : State A) (stash validator : A) (commission : Perbill) (exps : Exposure A)
    (amount : Balance) : List (A × Balance) :=
  if decide (stash ≠ validator) && !exps.others.any (fun x => x.who = stash) then []
  else if amount = 0 then []
  else calculateNposPayouts cfg s validator commission exps amount

/-- The commission takes all of the validator's payout, and its payee is another account. -/
def Overlooked (s : State A) (validator : A) (commission : Perbill) (amount : Balance) : Prop :=
  amount ≠ 0 ∧ commission.mul amount = amount ∧ payee s validator ≠ validator

instance : Decidable (Overlooked s validator commission amount) := inferInstanceAs (Decidable (_ ∧ _ ∧ _))

theorem PayeesApart.paidTo_estimatedPayouts (h : PayeesApart s stashes) (hsh : stash ∈ stashes)
    (hst : ∀ x ∈ stakers validator exps, x ∈ stashes) :
    paidTo (payee s stash) (estimatedPayouts cfg s stash validator commission exps amount) =
      if validator = stash ∧ Overlooked s stash commission amount then 0
      else paidTo stash (shares cfg validator commission exps amount) := by
  unfold estimatedPayouts
  split
  · rename_i hfi
    rw [paidTo_shares_of_filtered hfi]
    exact (ite_self 0).symm
  split
  · rename_i hz
    rw [hz, paidTo_shares_of_zero]
    exact (ite_self 0).symm
  · rename_i hz
    rw [calculateNposPayouts_eq]
    split
    · rename_i hall
      have hva : validator ∈ stashes := hst validator (mem_append_right _ mem_cons_self)
      rw [shares, if_pos hall, paidTo_singleton, paidTo_singleton]
      by_cases heq : validator = stash
      · subst heq
        by_cases hse : payee s validator = validator
        · simp only [hse, if_true, Overlooked, ne_eq, not_true_eq_false, and_false, if_false]
        · rw [if_neg fun h => hse h.symm, if_pos ⟨rfl, hz, hall, hse⟩]
      · rw [if_neg fun hpa => heq (h.eq_of_payee_eq hsh hva hpa), if_neg fun h => heq h.1, if_neg heq]
    · rename_i hl
      rw [h.paidTo_toPayees hsh fun x hx => hst x (fst_mem_stakers hx), if_neg fun h => hl h.2.2.1]

section
variable {r : Runner A} {era : EraIndex} {validators : List A} {duration : BitVec 64}

def runScheduledPayouts (cfg : Config A) (r : Runner A) (era : EraIndex) (s : Paying A) (validators : List A) :
    Paying A :=
  validators.foldl (fun s validator => (runPayout cfg r s validator (scheduledAmount s.rewards era validator) era).1) s

def earned (cfg : Config A) (r : Runner A) (amount : A → Balance) (era : EraIndex) (validators : List A) (stash : A) :
    Nat :=
  (validators.map fun v => paidTo stash
    (shares cfg v (r.commission era v) (r.erasStakersClipped era v) (amount v))).sum

/-- What is estimated for a stash of the payout of a validator. -/
def estimated (cfg : Config A) (r : Runner A) (amount : A → Balance) (era : EraIndex) (s : State A) (stash v : A) :
    Nat :=
  paidTo (payee s stash) (estimatedPayouts cfg s stash v (r.commission era v) (r.erasStakersClipped era v) (amount v))

theorem dueCredits_congr {t t' : State A} (hpa : t'.payees = t.payees) :
    dueCredits cfg t' validator commission exps amount = dueCredits cfg t validator commission exps amount := by
  unfold dueCredits toPayees
  rw [payee_congr hpa]

theorem minted_runScheduledPayouts {t : Paying A}
    (hpa : ∀ v ∈ validators, ∀ x ∈ stakers v (r.erasStakersClipped era v),
      payee t.rewards (payee t.rewards x) = payee t.rewards x) :
    (runScheduledPayouts cfg r era t validators).rewards.minted = t.rewards.minted ++ validators.flatMap fun v =>
      dueCredits cfg t.rewards v (r.commission era v) (r.erasStakersClipped era v) (scheduledAmount t.rewards era v) := by
  induction validators generalizing t with
  | nil => exact (append_nil _).symm
  | cons v rest ih =>
    obtain ⟨hfi, hr⟩ := forall_mem_cons.mp hpa
    obtain ⟨hk, hamo, -⟩ := processRewardPayout_leaves cfg t.rewards v (r.commission era v)
      (r.erasStakersClipped era v) (scheduledAmount t.rewards era v) era
    have hcr : (processRewardPayout cfg t.rewards v (r.commission era v) (r.erasStakersClipped era v)
        (scheduledAmount t.rewards era v) era).minted = t.rewards.minted ++
          dueCredits cfg t.rewards v (r.commission era v) (r.erasStakersClipped era v)
            (scheduledAmount t.rewards era v) := by
      rw [minted_processRewardPayout, dueCredits, (toPayees_calculateNposPayouts_iff ..).mpr (Or.inr hfi)]
    refine (ih ?_).trans ?_
    · simp only [runPayout, payee_congr hk]
      exact hr
    · simp only [runPayout, hcr, dueCredits_congr hk, scheduledAmount_congr hamo, flatMap_cons, append_assoc]

theorem calculateIndividualReward_eq (r : Runner A) (era : EraIndex) (stash : A) {amount : A → Balance}
    (hamo : ∀ v ∈ validators,
      validatorPayout cfg (calculateTotalReward cfg s duration).stakersCut validators s.currentEraRewardPoints v =
        some (amount v)) :
    ∃ reward, calculateIndividualReward cfg s stash duration (r.validatorCommissionStakeMap era validators) =
        some reward ∧
      reward.toNat = min (validators.map (estimated cfg r amount era s stash)).sum (2 ^ 128 - 1) := by
  unfold calculateIndividualReward calculatePayoutsFiltered
  have hfst : (r.validatorCommissionStakeMap era validators).map Prod.fst = validators := by
    rw [Runner.validatorCommissionStakeMap, map_map]
    exact map_id validators
  dsimp only
  split_ifs with hz
  · -- with no reward there is nothing for the stakers
    have hcut : (calculateTotalReward cfg s duration).stakersCut.toNat = 0 := by
      have hsum := treasuryCut_add_stakersCut ((cfg.fromRational duration.toNat fullEraDuration.toNat).mul
        s.targetInflationPerStakingEra) s.transactionFeePot s.developmentFundTake
      have htot := toNat_eq_zero.mpr hz
      simp only [calculateTotalReward] at htot ⊢
      omega
    refine ⟨0, rfl, ?_⟩
    have hno : (validators.map (estimated cfg r amount era s stash)).sum = 0 := by
      refine sum_eq_zero fun n hn => ?_
      obtain ⟨v, hv, rfl⟩ := mem_map.mp hn
      have hle := validatorPayout_le (hamo v hv)
      have hnil : amount v = 0 := toNat_eq_zero.mp (by omega)
      simp only [estimated, estimatedPayouts, hnil, if_true, ite_self]
      rfl
    rw [hno]
    rfl
  · rw [hfst]
    unfold Runner.validatorCommissionStakeMap
    rw [mapM_map, mapM_eq_some (g := fun v =>
      estimatedPayouts cfg s stash v (r.commission era v) (r.erasStakersClipped era v) (amount v))]
    · refine ⟨_, rfl, ?_⟩
      rw [toNat_foldl_payeeCut, ← flatMap_def, paidTo_flatMap]
      exact congrArg (min · _) (Nat.zero_add _)
    · intro v hv
      simp only [Function.comp_apply, estimatedPayouts, hamo v hv, Option.bind_eq_bind, Option.bind_some]
      split
      · rfl
      · split
        · rfl
        · rfl

theorem sum_estimatedPayouts (cfg : Config A) (amount : A → Balance) (h : PayeesApart s stashes)
    (hsh : stash ∈ stashes) (hst : ∀ v ∈ validators, ∀ x ∈ stakers v (r.erasStakersClipped era v), x ∈ stashes) :
    let estimate := (validators.map (estimated cfg r amount era s stash)).sum
    if stash ∈ validators ∧ Overlooked s stash (r.commission era stash) (amount stash) then
      estimate < earned cfg r amount era validators stash
    else estimate = earned cfg r amount era validators stash := by
  intro estimate
  have hea : ∀ v ∈ validators, estimated cfg r amount era s stash v =
        if v = stash ∧ Overlooked s stash (r.commission era v) (amount v) then 0
        else paidTo stash (shares cfg v (r.commission era v) (r.erasStakersClipped era v) (amount v)) :=
    fun v hv => h.paidTo_estimatedPayouts hsh (hst v hv)
  split_ifs with hmi
  · obtain ⟨hmem, hov⟩ := hmi
    refine sum_lt_sum _ _ (fun v hv => ?_) ⟨stash, hmem, ?_⟩
    · rw [hea v hv]
      split
      · exact Nat.zero_le _
      · exact Nat.le_refl _
    · rw [hea stash hmem, if_pos ⟨rfl, hov⟩, shares, if_pos hov.2.1, paidTo_singleton, if_pos rfl]
      exact toNat_pos.mpr hov.1
  · refine congrArg List.sum (map_congr_left fun v hv => ?_)
    rw [hea v hv]
    refine if_neg ?_
    rintro ⟨rfl, hov⟩
    exact hmi ⟨hv, hov⟩

/-- Every share would be credited to the payee of its stash if the era ended now. The estimate for a stash is what it
would earn exactly if that fits a balance, and the stash is no validator with another payee whose commission takes all.
-/
theorem accrued_reward_iff (h : PayeesApart s stashes) (hstash : stash ∈ stashes)
    (hstakers : ∀ v ∈ validators, ∀ x ∈ stakers v (r.erasStakersClipped era v), x ∈ stashes)
    (hnodup : validators.Nodup) (hend : onEndEra cfg s validators era duration = some s')
    (runs : List (EraIndex × A × Balance)) :
    let amount := accruedPayout cfg s validators duration
    (runScheduledPayouts cfg r era ⟨s', runs⟩ validators).rewards.minted = s'.minted ++ validators.flatMap (fun v =>
      dueCredits cfg s v (r.commission era v) (r.erasStakersClipped era v) (amount v)) ∧
    ((∃ reward, calculateIndividualReward cfg s stash duration (r.validatorCommissionStakeMap era validators) =
        some reward ∧ reward.toNat = earned cfg r amount era validators stash) ↔
      earned cfg r amount era validators stash < 2 ^ 128 ∧
        (stash ∈ validators → ¬Overlooked s stash (r.commission era stash) (amount stash))) := by
  intro amount
  obtain ⟨-, -, -, hk, -⟩ := onEndEra_inv cfg era hend
  have hsc : ∀ v ∈ validators, _ = some (amount v) ∧ scheduledAmount s' era v = amount v :=
    scheduledAmount_of_onEndEra hnodup hend
  constructor
  · rw [minted_runScheduledPayouts fun v hv x hx => ?_]
    · refine congrArg _ (flatMap_congr fun v hv => ?_)
      rw [(hsc v hv).2, dueCredits_congr hk]
    · rw [payee_congr hk]
      exact h.payee_payee (hstakers v hv x hx)
  · obtain ⟨reward, hre, htn⟩ := calculateIndividualReward_eq r era stash fun v hv => (hsc v hv).1
    have hsum := sum_estimatedPayouts cfg amount h hstash hstakers
    have hs : (∃ reward, calculateIndividualReward cfg s stash duration (r.validatorCommissionStakeMap era validators) =
        some reward ∧ reward.toNat = earned cfg r amount era validators stash) ↔
          reward.toNat = earned cfg r amount era validators stash := by
      rw [hre]
      simp only [Option.some_inj, exists_eq_left']
    rw [hs, htn, ← not_and]
    dsimp only at hsum
    split_ifs at hsum with hmi
    · refine iff_of_false ?_ fun hho => hho.2 hmi
      omega
    · rw [hsum]
      constructor
      · intro hmin
        exact ⟨by omega, hmi⟩
      · rintro ⟨hf, -⟩
        omega

end

/-! ### One validator and one nominator -/

def sampleRunner (commission : Perbill) : Runner Nat where
  erasStakersClipped _ _ := halves
  commission _ _ := commission
  processRewardPayouts _ := 1000000

def nominatorAtNine : State Nat := { eraOf 100 [1] with payees := StorageMap.insert ∅ 2 9 }

theorem payee_nominatorAtNine (x : Nat) : payee nominatorAtNine x = if x = 2 then 9 else x := by
  by_cases hx : x = 2
  · subst hx
    rfl
  · rw [if_neg hx]
    simp [payee, nominatorAtNine, StorageMap.getD, StorageMap.get?_insert, hx]

theorem payeesApart_nominatorAtNine : PayeesApart nominatorAtNine {1, 2} := by
  constructor
  · simp [payee_nominatorAtNine]
  · simp [payee_nominatorAtNine]
  · simp +contextual [payee_nominatorAtNine]

/-- Half of the reward of 100 is estimated for nominator 2, whose payee is account 9. -/
theorem accrued_reward_of_nominator : payee nominatorAtNine 2 = 9 ∧
    ∃ s' reward, onEndEra sampleConfig nominatorAtNine [1] 5 86400000 = some s' ∧
      calculateIndividualReward sampleConfig nominatorAtNine 2 86400000
        ((sampleRunner ⟨0, by decide⟩).validatorCommissionStakeMap 5 [1]) = some reward ∧ reward.toNat = 50 := by
  obtain ⟨s', hend⟩ : ∃ s', onEndEra sampleConfig nominatorAtNine [1] 5 86400000 = some s' := ⟨_, rfl⟩
  have hea : earned sampleConfig (sampleRunner ⟨0, by decide⟩) (accruedPayout sampleConfig nominatorAtNine [1] 86400000) 5
      [1] 2 = 50 := by decide +kernel
  have hiff := (accrued_reward_iff (r := sampleRunner ⟨0, by decide⟩) payeesApart_nominatorAtNine
    (Set.mem_insert_of_mem 1 rfl) (by simp [stakers, sampleRunner, halves]) (by decide) hend []).2
  obtain ⟨reward, hre, heq⟩ := hiff.mpr ⟨by omega, fun hmem => absurd hmem (by decide)⟩
  exact ⟨rfl, s', reward, hend, hre, heq.trans hea⟩

def paidAtNine : State Nat := { eraOf 100 [1] with payees := StorageMap.insert ∅ 1 9 }

/-- With a commission of all, nothing is estimated for validator 1, and the payout credits 100 to its payee. -/
theorem accrued_reward_overlooked : payee paidAtNine 1 = 9 ∧
    calculateIndividualReward sampleConfig paidAtNine 1 86400000
      ((sampleRunner ⟨1000000000, by decide⟩).validatorCommissionStakeMap 5 [1]) = some 0 ∧
    ∃ s', onEndEra sampleConfig paidAtNine [1] 5 86400000 = some s' ∧
      (runScheduledPayouts sampleConfig (sampleRunner ⟨1000000000, by decide⟩) 5 ⟨s', []⟩ [1]).rewards.minted =
        s'.minted ++ [(9, 100), (sampleConfig.treasuryAccount, 0)] :=
  ⟨by decide +kernel, by decide +kernel, _, rfl, by decide +kernel⟩

end Rewards
