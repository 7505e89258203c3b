import Cennznet.Theorems.GenericAsset.Ledger

/-! # Imbalances and the issuance

Only `burn` gives out an imbalance and leaves the issuance as it was. -/

namespace GenericAsset

open StorageMap Word List

namespace SignedImbalance

def assetId : SignedImbalance → AssetId
  | .positive p => p.assetId
  | .negative n => n.assetId

def amount : SignedImbalance → Balance
  | .positive p => p.amount
  | .negative n => n.amount

/-- What dropping the imbalance adds to the issuance of an asset. -/
def worth (a : AssetId) : SignedImbalance → Int
  | .positive p => if p.assetId = a then p.amount.toNat else 0
  | .negative n => if n.assetId = a then -n.amount.toNat else 0

def split (amount : Balance) : SignedImbalance → List SignedImbalance
  | .positive p => [.positive (p.split amount).1, .positive (p.split amount).2]
  | .negative n => [.negative (n.split amount).1, .negative (n.split amount).2]

/-- `merge` and `subsume` have one body. Imbalances of opposite signs are of different types. -/
def merge : SignedImbalance → SignedImbalance → Option SignedImbalance
  | .positive p, .positive other => some (.positive (p.subsume other))
  | .negative n, .negative other => some (.negative (n.subsume other))
  | _, _ => none

def offset : SignedImbalance → SignedImbalance → Option SignedImbalance
  | .positive p, .negative n =>
    match p.offset n with
    | .none => none
    | .same p => some (.positive p)
    | .other n => some (.negative n)
  | .negative n, .positive p =>
    match n.offset p with
    | .none => none
    | .same n => some (.negative n)
    | .other p => some (.positive p)
  | _, _ => none

variable {a : AssetId} {x y z : SignedImbalance} {v : Balance}

theorem worth_split : ((x.split v).map (worth a)).sum = x.worth a := by
  cases x
  all_goals
    simp only [split, PositiveImbalance.split, NegativeImbalance.split, worth, map_cons, map_nil, sum_cons, sum_nil]
    split_ifs <;> bv_omega

theorem worth_merge (hm : merge x y = some z) (ha : x.assetId = y.assetId)
    (hfit : x.amount.toNat + y.amount.toNat < 2 ^ 128) : z.worth a = x.worth a + y.worth a := by
  cases x <;> cases y <;> cases hm
  all_goals
    simp only [assetId, amount] at ha hfit
    simp only [PositiveImbalance.subsume, NegativeImbalance.subsume, worth, ha, toNat_saturatingAdd]
    split <;> omega

theorem worth_offset (ho : offset x y = some z) (ha : x.assetId = y.assetId) : z.worth a = x.worth a + y.worth a := by
  cases x <;> cases y <;>
    simp only [offset, PositiveImbalance.offset, NegativeImbalance.offset, reduceCtorEq] at ho
  all_goals
    simp only [assetId] at ha
    split_ifs at ho <;> cases ho <;> simp only [worth, ha] <;> split <;> bv_omega

end SignedImbalance

structure Purse (A : Type) where
  ledger : State A
  held : List SignedImbalance

namespace Purse

variable {A : Type} (s : Purse A)

/-- The issuance of an asset once the imbalances are dropped. -/
def after (held : List SignedImbalance) (a : AssetId) : Int :=
  (s.ledger.issuanceOf a).toNat + (held.map (·.worth a)).sum

def net (a : AssetId) : Int := s.after s.held a

/-- An operation on the imbalances held, and what it burns. No amount or issuance passes 0 or the maximum, and two
imbalances are of one asset. -/
inductive Step : List (AssetId × Balance) → Purse A → Prop
  | issue (assetId : AssetId) (amount : Balance)
      (hfit : (s.ledger.issuanceOf assetId).toNat + amount.toNat < 2 ^ 128) :
      Step [] ⟨(AssetCurrency.issue s.ledger assetId amount).1,
        .negative (AssetCurrency.issue s.ledger assetId amount).2 :: s.held⟩
  | burn (assetId : AssetId) (amount : Balance) (hfit : amount.toNat ≤ (s.ledger.issuanceOf assetId).toNat) :
      Step [(assetId, amount)] ⟨(AssetCurrency.burn s.ledger assetId amount).1,
        .positive (AssetCurrency.burn s.ledger assetId amount).2 :: s.held⟩
  | split {x : SignedImbalance} {rest : List SignedImbalance} (hheld : s.held.Perm (x :: rest)) (amount : Balance) :
      Step [] ⟨s.ledger, x.split amount ++ rest⟩
  | merge {x y z : SignedImbalance} {rest : List SignedImbalance} (hheld : s.held.Perm (x :: y :: rest))
      (hmerge : x.merge y = some z) (hasset : x.assetId = y.assetId)
      (hfit : x.amount.toNat + y.amount.toNat < 2 ^ 128) : Step [] ⟨s.ledger, z :: rest⟩
  | offset {x y z : SignedImbalance} {rest : List SignedImbalance} (hheld : s.held.Perm (x :: y :: rest))
      (hoffset : x.offset y = some z) (hasset : x.assetId = y.assetId) : Step [] ⟨s.ledger, z :: rest⟩
  | drop {x : SignedImbalance} {rest : List SignedImbalance} (hheld : s.held.Perm (x :: rest))
      (hfit : 0 ≤ s.after [x] x.assetId ∧ s.after [x] x.assetId < 2 ^ 128) : Step [] ⟨dropSigned s.ledger x, rest⟩

inductive Run : Purse A → List (AssetId × Balance) → Purse A → Prop
  | done {s : Purse A} : Run s [] s
  | next {s s' s'' : Purse A} {burns burns' : List (AssetId × Balance)} (h : Run s burns s')
      (hstep : s'.Step burns' s'') : Run s (burns ++ burns') s''

def burnt (a : AssetId) (burns : List (AssetId × Balance)) : Nat :=
  (burns.map fun b => if b.1 = a then b.2.toNat else 0).sum

variable {s} {s' : Purse A} {held rest : List SignedImbalance} {x y z : SignedImbalance} {a : AssetId}
  {burns : List (AssetId × Balance)}

theorem net_of_perm (hh : s.held.Perm held) : s.net a = s.after held a := by
  unfold net after
  rw [(hh.map _).sum_eq]

theorem after_joined (hh : s.held.Perm (x :: y :: rest)) (hz : z.worth a = x.worth a + y.worth a) :
    net ⟨s.ledger, z :: rest⟩ a = s.net a := by
  rw [net_of_perm hh]
  unfold net after
  simp only [map_cons, sum_cons, hz, Int.add_assoc]

theorem issuance_insert {ledger : State A} {assetId : AssetId} {total : Balance} :
    ((State.issuanceOf { ledger with totalIssuance := ledger.totalIssuance.insert assetId total } a).toNat : Int) =
      (ledger.issuanceOf a).toNat + if assetId = a then (total.toNat : Int) - (ledger.issuanceOf assetId).toNat else 0 := by
  unfold State.issuanceOf
  rw [getD_insert]
  split
  · rename_i heq
    rw [heq, if_pos rfl]
    omega
  · rename_i hne
    rw [if_neg (Ne.symm hne), Int.add_zero]

theorem dropSigned_issuance (hfit : 0 ≤ s.after [x] x.assetId ∧ s.after [x] x.assetId < 2 ^ 128) :
    (((dropSigned s.ledger x).issuanceOf a).toNat : Int) = (s.ledger.issuanceOf a).toNat + x.worth a := by
  cases x
  all_goals
    simp only [after, map_cons, map_nil, sum_cons, sum_nil, SignedImbalance.worth,
      SignedImbalance.assetId, if_pos] at hfit
    simp only [dropSigned, dropPositive, dropNegative, issuance_insert, toNat_saturatingAdd, toNat_saturatingSub,
      SignedImbalance.worth]
    split <;> omega

theorem Step.net_eq (h : s.Step burns s') : s'.net a = s.net a + burnt a burns := by
  have hn : (burnt a [] : Int) = 0 := rfl
  cases h with
  | issue assetId amount hfit =>
    obtain ⟨total, ht⟩ := exists_toNat_eq hfit
    have hadd := checkedAdd_eq_some.mpr ht.symm
    simp only [AssetCurrency.issue, hadd, net, after, issuance_insert, map_cons, sum_cons, SignedImbalance.worth, hn]
    split <;> omega
  | burn assetId amount hfit =>
    have hsub : checkedSub (s.ledger.issuanceOf assetId) amount = some (s.ledger.issuanceOf assetId - amount) := if_pos hfit
    simp only [AssetCurrency.burn, hsub, net, after, issuance_insert, map_cons, sum_cons, map_nil,
      sum_nil, SignedImbalance.worth, burnt]
    split <;> omega
  | split hh amount =>
    rw [net_of_perm hh, hn]
    simp only [net, after, map_append, sum_append, SignedImbalance.worth_split, map_cons, sum_cons, Int.add_zero]
  | merge hh hm ha hfit =>
    exact (after_joined hh (SignedImbalance.worth_merge hm ha hfit)).trans (Int.add_zero _).symm
  | offset hh ho ha =>
    exact (after_joined hh (SignedImbalance.worth_offset ho ha)).trans (Int.add_zero _).symm
  | drop hh hfit =>
    rw [net_of_perm hh, hn]
    simp only [net, after, dropSigned_issuance hfit, map_cons, sum_cons, Int.add_zero, Int.add_assoc]

theorem Run.net_eq (h : Run s burns s') : s'.net a = s.net a + burnt a burns := by
  induction h with
  | done => exact (Int.add_zero _).symm
  | next h hs ih =>
    rw [hs.net_eq, ih, burnt, burnt, burnt, map_append, sum_append, Nat.cast_add, Int.add_assoc]

/-- A run changes the net issuance by what it burns, so nothing changes exactly if nothing is burnt. -/
theorem issuance_conserved_iff (s s' : Purse A) (burns : List (AssetId × Balance)) (h : Run s burns s') :
    (∀ a, s'.net a = s.net a) ↔ ∀ b ∈ burns, b.2 = 0 := by
  have hnet (a : AssetId) : s'.net a = s.net a ↔ burnt a burns = 0 := by
    rw [h.net_eq]
    omega
  simp only [hnet, burnt, sum_eq_zero_iff, forall_mem_map]
  constructor
  · intro hz b hb
    exact toNat_eq_zero.mp ((if_pos rfl).symm.trans (hz b.1 b hb))
  · intro hz a b hb
    rw [hz b hb]
    exact ite_self 0

def tenIssued : Purse Nat := ⟨{ State.genesis 0 with totalIssuance := (∅ : StorageMap AssetId Balance).insert 7 10 }, []⟩

theorem issued_and_dropped_conserved : ∃ s' : Purse Nat, s'.held = [] ∧ ∀ a, s'.net a = tenIssued.net a := by
  have hrun := Run.done.next (.issue (s := tenIssued) 7 5 (by decide)) |>.next (.drop (.refl _) (by decide))
  exact ⟨_, rfl, (issuance_conserved_iff _ _ _ hrun).mpr nofun⟩

theorem burnt_and_dropped_adds : ∃ s', Run tenIssued [(7, 5)] s' ∧ s'.held = [] ∧ s'.ledger.issuanceOf 7 = 15 :=
  ⟨_, Run.done.next (.burn 7 5 (by decide)) |>.next (.drop (.refl _) (by decide)), rfl, by decide⟩

end Purse

end GenericAsset
