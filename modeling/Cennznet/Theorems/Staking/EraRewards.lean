import Cennznet.Staking.Rewards

/-! # The split of an era's reward

Ratios are rounded down, but payouts to the nearest integer. -/

namespace Rewards

open Word List
open GenericAsset (Balance)
open Staking (EraIndex)

variable {A : Type}

/-! ### The running remainder -/

def paid (ps : List (A × Balance)) : Nat := (ps.map fun p => p.2.toNat).sum

/-- No payout taken off the remainder exceeds what is left of it. -/
def NoUnderflow : Balance → List (A × Balance) → Prop
  | _, [] => True
  | remainder, p :: rest => p.2.toNat ≤ remainder.toNat ∧ NoUnderflow (remainder - p.2) rest

section
variable {payoutOf : A → Option Balance} {n : A → Balance} {vs : List A}
  {remainder : Balance} {ps : List (A × Balance)}

theorem noUnderflow_iff : NoUnderflow remainder ps ↔ paid ps ≤ remainder.toNat := by
  induction ps generalizing remainder with
  | nil => simp [NoUnderflow, paid]
  | cons p rest ih =>
    simp only [NoUnderflow, ih, paid, map_cons, sum_cons]
    constructor
    · rintro ⟨hle, hr⟩
      rw [toNat_sub_of_le hle] at hr
      omega
    · intro h
      have hle : p.2.toNat ≤ remainder.toNat := by omega
      rw [toNat_sub_of_le hle]
      omega

theorem takePayouts_eq (remainder : Balance) (h : ∀ v ∈ vs, payoutOf v = some (n v)) :
    takePayouts payoutOf vs remainder = some (vs.map fun v => (v, n v), vs.foldl (fun r v => r - n v) remainder) := by
  induction vs generalizing remainder with
  | nil => rfl
  | cons v rest ih =>
    have hr : ∀ v ∈ rest, payoutOf v = some (n v) := fun v hv => h v (mem_cons_of_mem _ hv)
    simp only [takePayouts, h v mem_cons_self, ih _ hr, Option.bind_eq_bind, Option.bind_some, Option.pure_def,
      map_cons, foldl_cons]

theorem toNat_foldl_sub (remainder : Balance) (h : (vs.map fun v => (n v).toNat).sum ≤ remainder.toNat) :
    (vs.map fun v => (n v).toNat).sum + (vs.foldl (fun r v => r - n v) remainder).toNat = remainder.toNat := by
  induction vs generalizing remainder with
  | nil => simp
  | cons v rest ih =>
    simp only [map_cons, sum_cons, foldl_cons] at h ⊢
    have hsub : (remainder - n v).toNat = remainder.toNat - (n v).toNat := toNat_sub_of_le (by omega)
    have hih := ih (remainder - n v) (by omega)
    omega

theorem paid_map : paid (vs.map fun v => (v, n v)) = (vs.map fun v => (n v).toNat).sum := by
  rw [paid, map_map]
  rfl

theorem takePayouts_inv {remainder' : Balance} (h : takePayouts payoutOf vs remainder = some (ps, remainder')) :
    (ps = vs.map fun v => (v, (payoutOf v).getD 0)) ∧ ∀ v ∈ vs, payoutOf v = some ((payoutOf v).getD 0) := by
  induction vs generalizing remainder ps with
  | nil =>
    cases h
    exact ⟨rfl, fun v hv => by cases hv⟩
  | cons v rest ih =>
    simp only [takePayouts, Option.bind_eq_bind, Option.bind_eq_some_iff, Option.pure_def, Option.some_inj,
      Prod.mk.injEq] at h
    obtain ⟨payout, hpa, ⟨ps, r⟩, hta, rfl, rfl⟩ := h
    obtain ⟨hpy, hr⟩ := ih hta
    refine ⟨?_, forall_mem_cons.mpr ⟨?_, hr⟩⟩
    · rw [map_cons, ← hpy, hpa, Option.getD_some]
    · rw [hpa, Option.getD_some]

theorem fst_takePayouts {remainder' : Balance} (h : takePayouts payoutOf vs remainder = some (ps, remainder')) :
    ps.map Prod.fst = vs := by
  rw [(takePayouts_inv h).1, map_map]
  exact map_id vs

end

theorem toNat_as_u32 (n : Nat) : ((BitVec.ofNat 32 n).setWidth 128).toNat = n % 2 ^ 32 := by
  rw [BitVec.toNat_setWidth, BitVec.toNat_ofNat]
  omega

variable [DecidableEq A]

/-! ### When the payouts fit -/

/-- The payouts are calculated without underflow, and with the remainder they make up the cut. -/
def SplitsExactly (cfg : Config A) (cut : Balance) (vs : List A) (points : EraRewardPoints A) : Prop :=
  ∃ ps remainder, calculatePerValidatorPayouts cfg cut vs points = some (ps, remainder) ∧
    NoUnderflow cut ps ∧ paid ps + remainder.toNat = cut.toNat

/-- Without points, the number of validators divides the cut. With points, what rounding up gains is covered by what
rounding down loses and the ratios leave. -/
def PayoutsFit (cfg : Config A) (cut : Balance) (vs : List A) (points : EraRewardPoints A) : Prop :=
  if points.total = 0 then
    (vs.length % 2 ^ 32 = 0 → vs = []) ∧ vs.length * (cut.toNat / (vs.length % 2 ^ 32)) ≤ cut.toNat
  else
    let parts := vs.map fun v => (points.ratio cfg v).parts * cut.toNat
    parts.sum + Rounding.gained Perbill.accuracy parts ≤
      Perbill.accuracy * cut.toNat + Rounding.lost Perbill.accuracy parts

instance (cfg : Config A) (cut : Balance) (vs : List A) (points : EraRewardPoints A) :
    Decidable (PayoutsFit cfg cut vs points) :=
  inferInstanceAs (Decidable (ite _ _ _))

section
variable {cfg : Config A} {cut : Balance} {vs : List A} {points : EraRewardPoints A}

theorem splitsExactly_iff (n : A → Balance) (h : ∀ v ∈ vs, validatorPayout cfg cut vs points v = some (n v)) :
    SplitsExactly cfg cut vs points ↔ (vs.map fun v => (n v).toNat).sum ≤ cut.toNat := by
  have heq := takePayouts_eq cut h
  constructor
  · rintro ⟨ps, remainder, hca, hno, -⟩
    rw [calculatePerValidatorPayouts, heq, Option.some_inj, Prod.mk.injEq] at hca
    rw [← paid_map, hca.1]
    exact noUnderflow_iff.mp hno
  · intro hfit
    refine ⟨_, _, heq, noUnderflow_iff.mpr (paid_map.trans_le hfit), ?_⟩
    rw [paid_map]
    exact toNat_foldl_sub cut hfit

theorem splitsExactly_iff_of_no_points (htot : points.total = 0) :
    SplitsExactly cfg cut vs points ↔ PayoutsFit cfg cut vs points := by
  rw [PayoutsFit, if_pos htot]
  by_cases hlen : vs.length % 2 ^ 32 = 0
  · -- the division panics, unless there is no validator to pay
    cases vs with
    | nil => rw [splitsExactly_iff (fun _ => 0) (by simp)]; simp
    | cons v rest =>
      have hn : validatorPayout cfg cut (v :: rest) points v = none := by
        rw [validatorPayout, if_pos htot, checkedDiv, toNat_as_u32, if_pos hlen]
      have hca : calculatePerValidatorPayouts cfg cut (v :: rest) points = none := by
        simp only [calculatePerValidatorPayouts, takePayouts, hn, Option.bind_eq_bind, Option.bind_none]
      constructor
      · rintro ⟨ps, remainder, h, -⟩
        rw [hca] at h
        cases h
      · rintro ⟨hnil, -⟩
        cases hnil hlen
  · have hall : ∀ v ∈ vs, validatorPayout cfg cut vs points v =
        some (cut / (BitVec.ofNat 32 vs.length).setWidth 128) := fun v _ => by
      rw [validatorPayout, if_pos htot, checkedDiv, toNat_as_u32, if_neg hlen]
    rw [splitsExactly_iff (fun _ => _) hall, BitVec.toNat_udiv, toNat_as_u32, map_const', sum_replicate_nat]
    exact ⟨fun h => ⟨fun h0 => absurd h0 hlen, h⟩, And.right⟩

theorem splitsExactly_iff_of_points (htot : points.total ≠ 0) :
    SplitsExactly cfg cut vs points ↔ PayoutsFit cfg cut vs points := by
  have hall : ∀ v ∈ vs, validatorPayout cfg cut vs points v = some ((points.ratio cfg v).mul cut) := fun v _ => if_neg htot
  have hpa : (vs.map fun v => ((points.ratio cfg v).mul cut).toNat) =
      (vs.map fun v => (points.ratio cfg v).parts * cut.toNat).map (Rounding.nearest · Perbill.accuracy) := by
    simp only [Perbill.toNat_mul, map_map, Function.comp_def]
  rw [splitsExactly_iff _ hall, hpa, Rounding.sum_nearest_le_iff (by decide), PayoutsFit, if_neg htot]

end

theorem splitsExactly_iff_payoutsFit (cfg : Config A) (cut : Balance) (vs : List A) (points : EraRewardPoints A) :
    SplitsExactly cfg cut vs points ↔ PayoutsFit cfg cut vs points := by
  by_cases htot : points.total = 0
  · exact splitsExactly_iff_of_no_points htot
  · exact splitsExactly_iff_of_points htot

/-! ### The scheduled payouts -/

def scheduledFor (s : State A) (era : EraIndex) (vs : List A) : Nat :=
  (vs.map fun v => (s.scheduledPayoutAmounts.getD (era, v) 0).toNat).sum

section
variable {era : EraIndex} {amounts : StorageMap (EraIndex × A) Balance}
  {ps : List (A × Balance)}

theorem getD_insertPayouts_of_notMem {v : A} (h : v ∉ ps.map Prod.fst) :
    (insertPayouts era amounts ps).getD (era, v) 0 = amounts.getD (era, v) 0 := by
  induction ps generalizing amounts with
  | nil => rfl
  | cons p rest ih =>
    simp only [map_cons, mem_cons, not_or] at h
    have hne : (era, v) ≠ (era, p.1) := fun heq => h.1 (congrArg Prod.snd heq)
    refine (ih h.2).trans ?_
    rw [StorageMap.getD_insert, if_neg hne]

theorem get?_insertPayouts_eq_some {e : EraIndex} {v : A} {a : Balance} (hno : (ps.map Prod.fst).Nodup) :
    (insertPayouts era amounts ps).get? (e, v) = some a ↔
      e = era ∧ (v, a) ∈ ps ∨ (e ≠ era ∨ v ∉ ps.map Prod.fst) ∧ amounts.get? (e, v) = some a := by
  induction ps generalizing amounts with
  | nil => simp [insertPayouts]
  | cons p rest ih =>
    rw [map_cons, nodup_cons] at hno
    have hs : insertPayouts era amounts (p :: rest) = insertPayouts era (amounts.insert (era, p.1) p.2) rest := rfl
    rw [hs, ih hno.2, StorageMap.get?_insert_eq_some, Prod.mk.injEq, mem_cons, map_cons, mem_cons, Prod.ext_iff]
    have hnew : v ∈ rest.map Prod.fst → v ≠ p.1 := fun hv heq => hno.1 (heq ▸ hv)
    have hmem : (v, a) ∈ rest → v ∈ rest.map Prod.fst := fun h => mem_map_of_mem h
    grind

theorem map_getD_insertPayouts (amounts : StorageMap (EraIndex × A) Balance) (hno : (ps.map Prod.fst).Nodup) :
    ((ps.map Prod.fst).map fun v => ((insertPayouts era amounts ps).getD (era, v) 0).toNat).sum = paid ps := by
  induction ps generalizing amounts with
  | nil => rfl
  | cons p rest ih =>
    simp only [map_cons, nodup_cons] at hno
    have hp : (insertPayouts era amounts (p :: rest)).getD (era, p.1) 0 = p.2 := by
      refine (getD_insertPayouts_of_notMem hno.1).trans ?_
      rw [StorageMap.getD_insert, if_pos rfl]
    have hr := ih (amounts.insert (era, p.1) p.2) hno.2
    simp only [map_cons, sum_cons, hp, paid] at hr ⊢
    exact congrArg (p.2.toNat + ·) hr

end

/-! ### The end of an era -/

theorem treasuryCut_add_stakersCut (inflation fees : Balance) (rate : Perbill) :
    (RewardParts.new inflation fees rate).treasuryCut.toNat + (RewardParts.new inflation fees rate).stakersCut.toNat =
      (RewardParts.new inflation fees rate).total.toNat := by
  have hcut : (rate.mul fees).toNat ≤ fees.toNat := rate.mul_le fees
  have hfe : fees.toNat < 2 ^ 128 := fees.isLt
  simp only [RewardParts.new, toNat_saturatingSub, toNat_saturatingAdd]
  omega

section
variable (cfg : Config A) {s : State A} (era : EraIndex)

theorem renewFiscalEra_frame (s : State A) :
    (renewFiscalEra cfg s era).currentEraRewardPoints = s.currentEraRewardPoints ∧
      (renewFiscalEra cfg s era).minted = s.minted ∧ (renewFiscalEra cfg s era).payees = s.payees ∧
      (renewFiscalEra cfg s era).scheduledPayoutAmounts = s.scheduledPayoutAmounts ∧
      (renewFiscalEra cfg s era).scheduledPayoutErasAndCounts = s.scheduledPayoutErasAndCounts := by
  simp only [renewFiscalEra, newFiscalEra, depositEvent]
  split <;> split <;> exact ⟨rfl, rfl, rfl, rfl, rfl⟩

variable {duration : BitVec 64} {vs : List A}

theorem onEndEra_inv {s' : State A} (h : onEndEra cfg s vs era duration = some s') :
    ∃ ps remainder, calculatePerValidatorPayouts cfg (calculateTotalReward cfg s duration).stakersCut vs
        s.currentEraRewardPoints = some (ps, remainder) ∧
      s'.payees = s.payees ∧
      s'.scheduledPayoutAmounts = insertPayouts era s.scheduledPayoutAmounts ps ∧
      s'.scheduledPayoutErasAndCounts = s.scheduledPayoutErasAndCounts ++ [(era, BitVec.ofNat 32 vs.length)] := by
  obtain ⟨hpo, -, hpa, hamo, hco⟩ := renewFiscalEra_frame cfg era s
  simp only [onEndEra, scheduleRewardPayouts, Option.bind_eq_bind, Option.bind_eq_some_iff, Option.pure_def,
    Option.some_inj] at h
  obtain ⟨⟨t, remainder⟩, ⟨⟨ps, r⟩, hca, ht⟩, rfl⟩ := h
  cases ht
  rw [hpo] at hca
  refine ⟨ps, r, hca, hpa, ?_, ?_⟩
  · rw [← hamo]
    rfl
  · rw [← hco]
    rfl

theorem onEndEra_eq {ps : List (A × Balance)} {remainder : Balance}
    (h : calculatePerValidatorPayouts cfg (calculateTotalReward cfg s duration).stakersCut vs
      s.currentEraRewardPoints = some (ps, remainder)) :
    ∃ s', onEndEra cfg s vs era duration = some s' ∧
      s'.minted = s.minted ++ [(cfg.treasuryAccount, (calculateTotalReward cfg s duration).treasuryCut + remainder)] ∧
      ∃ amounts, s'.scheduledPayoutAmounts = insertPayouts era amounts ps := by
  obtain ⟨hpo, hmi, -⟩ := renewFiscalEra_frame cfg era s
  rw [← hpo] at h
  refine ⟨_, by simp only [onEndEra, scheduleRewardPayouts, h, Option.bind_eq_bind, Option.bind_some, Option.pure_def]; rfl,
    ?_, _, rfl⟩
  simp only [noteFeePayout, depositEvent, depositCreating, hmi]

end

/-- The reward of an era is split exactly if its payouts fit, and only then; the payouts scheduled and the deposit to
the treasury are together the reward. -/
theorem era_rewards_split_exactly (cfg : Config A) :
    (∀ stakersCut validators (points : EraRewardPoints A),
      SplitsExactly cfg stakersCut validators points ↔ PayoutsFit cfg stakersCut validators points) ∧
    ∀ (s : State A) validators era duration, validators.Nodup →
      PayoutsFit cfg (calculateTotalReward cfg s duration).stakersCut validators s.currentEraRewardPoints →
      ∃ s' treasury, onEndEra cfg s validators era duration = some s' ∧
        s'.minted = s.minted ++ [(cfg.treasuryAccount, treasury)] ∧
        scheduledFor s' era validators + treasury.toNat = (calculateTotalReward cfg s duration).total.toNat := by
  refine ⟨splitsExactly_iff_payoutsFit cfg, fun s validators era duration hno hfit => ?_⟩
  obtain ⟨ps, remainder, hca, -, hsum⟩ := (splitsExactly_iff_payoutsFit ..).mpr hfit
  have hfst : ps.map Prod.fst = validators := fst_takePayouts hca
  obtain ⟨s', hend, hmi, amounts, hamo⟩ := onEndEra_eq cfg era hca
  refine ⟨s', _, hend, hmi, ?_⟩
  have hsc : scheduledFor s' era validators = paid ps := by
    rw [scheduledFor, hamo, ← hfst, map_getD_insertPayouts amounts (hfst ▸ hno)]
  have htot : (calculateTotalReward cfg s duration).treasuryCut.toNat +
      (calculateTotalReward cfg s duration).stakersCut.toNat = (calculateTotalReward cfg s duration).total.toNat :=
    treasuryCut_add_stakersCut ..
  have hlt : (calculateTotalReward cfg s duration).total.toNat < 2 ^ 128 := BitVec.isLt _
  rw [hsc, BitVec.toNat_add_of_lt (by omega)]
  omega

/-! ### Two eras -/

def EraRewardPoints.Balanced (points : EraRewardPoints A) : Prop :=
  points.individual.sumBy (fun _ n => n.toNat) = points.total.toNat

instance (points : EraRewardPoints A) : Decidable points.Balanced := inferInstanceAs (Decidable (_ = _))

def oneBlockEach (vs : List A) : EraRewardPoints A :=
  { total := BitVec.ofNat 32 (20 * vs.length), individual := (∅ : StorageMap _ _).insertAll vs 20 }

def sampleConfig : Config Nat :=
  { treasuryAccount := 0, historicalPayoutEras := 7, fiscalEraLength := 365, fiscalEraLength_ne_zero := by decide,
    saturatingMulInt := fun _ _ => 0, fromRational := Perbill.ofRatio,
    dbWeight := .rocksDb }

def eraOf (fees : Balance) (vs : List Nat) : State Nat :=
  { baseInflationRate := 0, developmentFundTake := ⟨0, by decide⟩, transactionFeePot := fees,
    transactionFeePotHistory := [], payees := ∅, scheduledPayoutAmounts := ∅, scheduledPayoutErasAndCounts := [],
    targetInflationPerStakingEra := 0, fiscalEraEpoch := 0, forceFiscalEra := false,
    currentEraRewardPoints := oneBlockEach vs, totalIssuance := 0, minted := [], events := [] }

theorem threeValidators_split : SplitsExactly sampleConfig 1000003 [1, 2, 3] (oneBlockEach [1, 2, 3]) ∧
      ∃ s' treasury, onEndEra sampleConfig (eraOf 1000003 [1, 2, 3]) [1, 2, 3] 5 86400000 = some s' ∧
        s'.minted = [(0, treasury)] ∧ scheduledFor s' 5 [1, 2, 3] + treasury.toNat = 1000003 :=
  ⟨((era_rewards_split_exactly sampleConfig).1 1000003 [1, 2, 3] (oneBlockEach [1, 2, 3])).mpr (by decide +kernel),
    (era_rewards_split_exactly sampleConfig).2 (eraOf 1000003 [1, 2, 3]) [1, 2, 3] 5 86400000 (by decide)
      (by decide +kernel)⟩

/-- An eighth of 1000007 is rounded up to 125001, so the eighth payout underflows the remainder, and the greatest
balance is minted to the treasury. -/
theorem eightValidators_overpaid : [1, 2, 3, 4, 5, 6, 7, 8].Nodup ∧ (oneBlockEach [1, 2, 3, 4, 5, 6, 7, 8]).Balanced ∧
      calculatePerValidatorPayouts sampleConfig 1000007 [1, 2, 3, 4, 5, 6, 7, 8] (oneBlockEach [1, 2, 3, 4, 5, 6, 7, 8]) =
        some ([1, 2, 3, 4, 5, 6, 7, 8].map fun v => (v, 125001), maxValue 128) ∧
      ¬SplitsExactly sampleConfig 1000007 [1, 2, 3, 4, 5, 6, 7, 8] (oneBlockEach [1, 2, 3, 4, 5, 6, 7, 8]) ∧
      (onEndEra sampleConfig (eraOf 1000007 [1, 2, 3, 4, 5, 6, 7, 8]) [1, 2, 3, 4, 5, 6, 7, 8] 5 86400000).map
        State.minted = some [(0, maxValue 128)] := by
  refine ⟨by decide, by decide +kernel, by decide +kernel, ?_, by decide +kernel⟩
  rw [splitsExactly_iff_payoutsFit]
  decide +kernel

end Rewards
