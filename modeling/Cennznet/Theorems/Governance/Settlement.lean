import Cennznet.Theorems.GenericAsset.Reserves
import Cennznet.Theorems.Governance.Effects

/-! # The settlement of a bond -/

namespace Governance

open Result StorageMap
open GenericAsset

/-! ### Bonds -/

def ProposalStatusInfo.isFinal : ProposalStatusInfo → Bool
  | .disapproved | .referendumVetoed | .approvedEnacted _ | .approvedEnactmentCancelled => true
  | .deliberation | .referendumDeliberation | .approvedWaitingEnactment => false

def ProposalStatusInfo.releases : ProposalStatusInfo → Bool
  | .approvedEnacted _ => true
  | _ => false

def ProposalStatusInfo.slashes (status : ProposalStatusInfo) : Bool := status.isFinal && !status.releases

theorem ProposalStatusInfo.isFinal_of_releases : ∀ {status : ProposalStatusInfo}, status.releases = true →
    status.isFinal = true
  | .approvedEnacted _, _ => rfl

theorem ProposalStatusInfo.isFinal_of_slashes {status : ProposalStatusInfo} (h : status.slashes = true) :
    status.isFinal = true := (Bool.and_eq_true_iff.mp h).1

structure Bond (A : Type) where
  sponsor : A
  amount : Balance

section
variable {A : Type} {s t u : State A} {bonds : StorageMap ProposalId (Bond A)}
  {bond : Bond A} {id : ProposalId} {status : ProposalStatusInfo}

def AtBond (bonds : StorageMap ProposalId (Bond A)) (id : ProposalId) (amount : Balance) : Prop :=
  ∀ bond ∈ bonds.get? id, bond.amount = amount

instance (bonds : StorageMap ProposalId (Bond A)) (id : ProposalId) (amount : Balance) :
    Decidable (AtBond bonds id amount) := Option.decidableForallMem _

def unfinished (s : State A) (id : ProposalId) : Bool :=
  (s.proposalStatus.get? id).any fun status => !status.isFinal

def reaches (p : ProposalStatusInfo → Bool) (s t : State A) (id : ProposalId) : Bool :=
  unfinished s id && (t.proposalStatus.get? id).any p

def total (bonds : StorageMap ProposalId (Bond A)) (p : ProposalId → Bool) (q : A → Bool) : Nat :=
  bonds.sumBy fun id bond => if p id && q bond.sponsor then bond.amount.toNat else 0

theorem unfinished_iff : unfinished s id = true ↔ ∃ status, s.proposalStatus.get? id = some status ∧
    status.isFinal = false := by
  simp [unfinished, Option.any_eq_true]

theorem unfinished_of_same (h : t.proposalStatus.get? id = s.proposalStatus.get? id) :
    unfinished t id = unfinished s id := by
  unfold unfinished
  rw [h]

theorem unfinished_insert (h : t.proposalStatus = s.proposalStatus.insert id status) (p : ProposalId) :
    unfinished t p = if p = id then !status.isFinal else unfinished s p := by
  unfold unfinished
  rw [h, get?_insert]
  split <;> rfl

theorem total_congr {p p' : ProposalId → Bool} (q : A → Bool) (h : ∀ id, p id = p' id) :
    total bonds p q = total bonds p' q := by
  rw [show p = p' from funext h]

theorem total_change {p p' : ProposalId → Bool} (q : A → Bool) (hb : bonds.get? id = some bond)
    (h : ∀ k, k ≠ id → p k = p' k) (hout : p id = false) :
    total bonds p' q = total bonds p q + if p' id && q bond.sponsor then bond.amount.toNat else 0 := by
  have hsum := sumBy_change (m := bonds) (k := id)
    (f := fun id bond => if p id && q bond.sponsor then bond.amount.toNat else 0)
    (g := fun id bond => if p' id && q bond.sponsor then bond.amount.toNat else 0)
    fun k _ hk => by simp only [h k hk]
  rw [share_of_get? hb, share_of_get? hb] at hsum
  simp only [hout, Bool.false_and, Bool.false_eq_true, if_false] at hsum
  unfold total
  omega

theorem total_insert (bonds : StorageMap ProposalId (Bond A)) (bond : Bond A) {p p' : ProposalId → Bool}
    (q : A → Bool) (h : ∀ k, k ≠ id → p k = p' k) (hout : p id = false) :
    total (bonds.insert id bond) p' q = total bonds p q + if p' id && q bond.sponsor then bond.amount.toNat else 0 := by
  have hins := sumBy_insert (m := bonds) (k := id) (v := bond)
    (f := fun id bond => if p' id && q bond.sponsor then bond.amount.toNat else 0)
  have hch := sumBy_change (m := bonds) (k := id)
    (f := fun id bond => if p id && q bond.sponsor then bond.amount.toNat else 0)
    (g := fun id bond => if p' id && q bond.sponsor then bond.amount.toNat else 0)
    fun k _ hk => by simp only [h k hk]
  have hn : bonds.share (fun id bond => if p id && q bond.sponsor then bond.amount.toNat else 0) id = 0 := by
    unfold StorageMap.share
    cases bonds.get? id <;> simp [hout]
  unfold total
  omega

structure Idles (t u : State A) : Prop where
  assets : u.assets = t.assets
  proposals : u.proposals = t.proposals
  calls : u.proposalCalls = t.proposalCalls
  status : u.proposalStatus = t.proposalStatus ∨ ∃ id status, unfinished t id = true ∧ status.isFinal = false ∧
    u.proposalStatus = t.proposalStatus.insert id status
  scheduled : ∀ {id}, u.scheduled.contains id = true → t.scheduled.contains id = true ∨ unfinished t id = true

theorem Idles.unfinished (I : Idles t u) (p : ProposalId) : unfinished u p = unfinished t p := by
  rcases I.status with hs | ⟨id, status, hopn, hfi, hst⟩
  · exact unfinished_of_same (by rw [hs])
  · rw [unfinished_insert hst]
    split_ifs with heq
    · rw [heq, hopn, hfi]
      rfl
    · rfl

theorem Idles.final (I : Idles t u) (hget : t.proposalStatus.get? id = some status) (hfi : status.isFinal = true) :
    u.proposalStatus.get? id = some status := by
  rcases I.status with hs | ⟨p, status', hopn, -, hst⟩
  · rw [hs]
    exact hget
  · have hne : id ≠ p := by
      rintro rfl
      obtain ⟨status'', hge', hop'⟩ := unfinished_iff.mp hopn
      rw [Option.some.inj (hget.symm.trans hge'), hop'] at hfi
      cases hfi
    rw [hst, get?_insert_ne hne]
    exact hget

structure Closes (t u : State A) (id : ProposalId) (status : ProposalStatusInfo) : Prop where
  status : u.proposalStatus = t.proposalStatus.insert id status
  proposals : ∀ {p}, p ≠ id → u.proposals.get? p = t.proposals.get? p
  calls : u.proposalCalls = t.proposalCalls.remove id
  scheduled : ∀ {p}, u.scheduled.contains p = true → t.scheduled.contains p = true
  cleared : u.proposals.contains id = true → u.scheduled.contains id = false

theorem unfinished_of_closes (C : Closes t u id status) (hfi : status.isFinal = true) {p : ProposalId} :
    unfinished u p = true ↔ p ≠ id ∧ unfinished t p = true := by
  rw [unfinished_insert C.status, hfi]
  split_ifs with heq
  · simp [heq]
  · exact (and_iff_right heq).symm

section
variable {p : ProposalStatusInfo → Bool} (hp : ∀ {status}, p status = true → status.isFinal = true)
include hp

theorem not_reaches_of_unfinished (h : unfinished t id = true) : reaches p s t id = false := by
  obtain ⟨status, hget, hopn⟩ := unfinished_iff.mp h
  have hnot : p status = false := by
    by_contra hre
    rw [hp (Bool.eq_true_of_not_eq_false hre)] at hopn
    cases hopn
  unfold reaches
  rw [hget, Option.any_some, hnot, Bool.and_false]

theorem total_reaches_eq_zero (hk : ∀ id, unfinished s id = true → unfinished t id = true) (q : A → Bool) :
    total bonds (reaches p s t) q = 0 := by
  refine sumBy_eq_zero fun id bond _ => ?_
  have hnot : reaches p s t id = false := by
    by_cases hopn : unfinished s id = true
    · exact not_reaches_of_unfinished hp (hk id hopn)
    · unfold reaches
      rw [Bool.eq_false_iff.mpr hopn, Bool.false_and]
  rw [hnot, Bool.false_and]
  rfl

theorem Idles.reaches (I : Idles t u) (k : ProposalId) : reaches p s u k = reaches p s t k := by
  by_cases hopn : Governance.unfinished t k = true
  · rw [not_reaches_of_unfinished hp hopn, not_reaches_of_unfinished hp ((I.unfinished k).trans hopn)]
  · unfold Governance.reaches
    congr 1
    cases hget : t.proposalStatus.get? k with
    | none =>
      rcases I.status with hs | ⟨id, status, hop', -, hst⟩
      · rw [hs, hget]
      · have hne : k ≠ id := by
          rintro rfl
          exact hopn hop'
        rw [hst, get?_insert_ne hne, hget]
    | some status =>
      have hfi : status.isFinal = true := by
        by_contra hnot
        exact hopn (unfinished_iff.mpr ⟨status, hget, Bool.eq_false_iff.mpr hnot⟩)
      rw [I.final hget hfi]

theorem total_reaches_insert (hsi : unfinished s id = true) (hopn : unfinished t id = true)
    (hb : bonds.get? id = some bond) (hst : u.proposalStatus = t.proposalStatus.insert id status) (q : A → Bool) :
    total bonds (reaches p s u) q =
      total bonds (reaches p s t) q + if p status && q bond.sponsor then bond.amount.toNat else 0 := by
  have hoth : ∀ k, k ≠ id → reaches p s t k = reaches p s u k := by
    intro k hk
    unfold reaches
    rw [hst, get?_insert_ne hk]
  have hre : reaches p s u id = p status := by
    unfold reaches
    rw [hst, get?_insert_self, hsi]
    rfl
  rw [total_change q hb hoth (not_reaches_of_unfinished hp hopn), hre]

end

end

section
variable {A : Type} [LinearOrder A]

def owed (bonds : StorageMap ProposalId (Bond A)) (s : State A) (x : A) : Nat :=
  total bonds (unfinished s) fun who => who = x

def settled (bonds : StorageMap ProposalId (Bond A)) (s t : State A) (x : A) : Nat :=
  total bonds (reaches ProposalStatusInfo.isFinal s t) fun who => who = x

def released (bonds : StorageMap ProposalId (Bond A)) (s t : State A) (x : A) : Nat :=
  total bonds (reaches ProposalStatusInfo.releases s t) fun who => who = x

def slashed (bonds : StorageMap ProposalId (Bond A)) (s t : State A) : Nat :=
  total bonds (reaches ProposalStatusInfo.slashes s t) fun _ => true

/-- The bonds in the ledger, beside what was reserved to begin with. What is stored with its call, or a task of the
scheduler, is under way. -/
structure Books (cfg : Config A) (base : A → Nat) (bonds : StorageMap ProposalId (Bond A))
    (s : State A) : Prop where
  reserved : ∀ x, s.assets.reservedOf cfg.spendingAssetId x = base x + owed bonds s x
  bonded : ∀ {id}, unfinished s id = true → ∃ proposal bond, s.proposals.get? id = some proposal ∧
    bonds.get? id = some bond ∧ bond.sponsor = proposal.sponsor
  call : ∀ {id}, unfinished s id = true → s.proposalCalls.contains id = true
  stored : ∀ {id}, s.proposals.contains id = true →
    s.proposalCalls.contains id = true ∨ s.scheduled.contains id = true → unfinished s id = true

/-- From `s` to `t` the bonds of the proposals that ended were settled, in a ledger that others had left as `ledger`. -/
structure Progress (cfg : Config A) (base : A → Nat) (bonds : StorageMap ProposalId (Bond A))
    (s : State A) (ledger : GenericAsset.State A) (t : State A) : Prop where
  books : Books cfg base bonds t
  since : ∀ {id}, unfinished t id = true → unfinished s id = true
  final : ∀ {id status}, s.proposalStatus.get? id = some status → status.isFinal = true →
    t.proposalStatus.get? id = some status
  reserved : ∀ x, t.assets.reservedOf cfg.spendingAssetId x + settled bonds s t x =
    s.assets.reservedOf cfg.spendingAssetId x
  free : ∀ x, t.assets.free cfg.spendingAssetId x =
    ledger.free cfg.spendingAssetId x + BitVec.ofNat 128 (released bonds s t x)
  issuance : (t.assets.issuanceOf cfg.spendingAssetId).toNat =
    (ledger.issuanceOf cfg.spendingAssetId).toNat - slashed bonds s t

variable {cfg : Config A} {base : A → Nat} {bonds : StorageMap ProposalId (Bond A)}
  {bond : Bond A} {s t u : State A} {ledger : GenericAsset.State A} {id : ProposalId}
  {status : ProposalStatusInfo}

theorem Books.covers (B : Books cfg base bonds s) (hopn : unfinished s id = true) (hb : bonds.get? id = some bond) :
    bond.amount.toNat ≤ s.assets.reservedOf cfg.spendingAssetId bond.sponsor := by
  have hoth : ∀ k, k ≠ id → (unfinished s k && decide (k ≠ id)) = unfinished s k := fun k hk => by simp [hk]
  have hsum := total_change (p := fun k => unfinished s k && decide (k ≠ id)) (fun who => decide (who = bond.sponsor)) hb
    hoth (by simp)
  simp only [hopn, decide_true, Bool.and_true, if_true] at hsum
  rw [B.reserved]
  unfold owed
  omega

theorem Books.of_ledger (B : Books cfg base bonds s)
    (h : ∀ x, ledger.reservedOf cfg.spendingAssetId x = s.assets.reservedOf cfg.spendingAssetId x) :
    Books cfg base bonds { s with assets := ledger } where
  reserved x := (h x).trans (B.reserved x)
  bonded := B.bonded
  call := B.call
  stored := B.stored

theorem Progress.start (B : Books cfg base bonds t) (hst : t.proposalStatus = s.proposalStatus)
    (hre : ∀ x, t.assets.reservedOf cfg.spendingAssetId x = s.assets.reservedOf cfg.spendingAssetId x) :
    Progress cfg base bonds s t.assets t := by
  have hs : ∀ id, unfinished t id = unfinished s id := fun id => unfinished_of_same (by rw [hst])
  have hk : ∀ id, unfinished s id = true → unfinished t id = true := fun id hopn => (hs id).trans hopn
  refine ⟨B, fun {id} hopn => (hs id).symm.trans hopn, fun hget _ => hst ▸ hget, fun x => ?_, fun x => ?_, ?_⟩
  · rw [settled, total_reaches_eq_zero (fun h => h) hk]
    exact hre x
  · rw [released, total_reaches_eq_zero (p := ProposalStatusInfo.releases) ProposalStatusInfo.isFinal_of_releases hk]
    exact (BitVec.add_zero _).symm
  · rw [slashed, total_reaches_eq_zero (p := ProposalStatusInfo.slashes) ProposalStatusInfo.isFinal_of_slashes hk]
    rfl

theorem Progress.refl (B : Books cfg base bonds s) : Progress cfg base bonds s s.assets s :=
  Progress.start B rfl fun _ => rfl

theorem Books.idle (B : Books cfg base bonds t) (I : Idles t u) : Books cfg base bonds u where
  reserved x := by
    rw [I.assets, B.reserved]
    unfold owed
    rw [total_congr _ I.unfinished]
  bonded {id} hopn := by
    rw [I.proposals]
    exact B.bonded (I.unfinished id ▸ hopn)
  call {id} hopn := by
    rw [I.calls]
    exact B.call (I.unfinished id ▸ hopn)
  stored {id} hpr hca := by
    rw [I.proposals] at hpr
    rw [I.calls] at hca
    rw [I.unfinished id]
    rcases hca with hc | hta
    · exact B.stored hpr (Or.inl hc)
    · rcases I.scheduled hta with hta | hopn
      · exact B.stored hpr (Or.inr hta)
      · exact hopn

theorem Progress.idle (P : Progress cfg base bonds s ledger t) (I : Idles t u) : Progress cfg base bonds s ledger u where
  books := P.books.idle I
  since {id} hopn := P.since (I.unfinished id ▸ hopn)
  final hget hfi := I.final (P.final hget hfi) hfi
  reserved x := by
    rw [I.assets, settled, total_congr _ (I.reaches id)]
    exact P.reserved x
  free x := by
    rw [I.assets, released, total_congr _ (I.reaches ProposalStatusInfo.isFinal_of_releases)]
    exact P.free x
  issuance := by
    rw [I.assets, slashed, total_congr _ (I.reaches ProposalStatusInfo.isFinal_of_slashes)]
    exact P.issuance

theorem Books.settle (B : Books cfg base bonds t) (hopn : unfinished t id = true) (hb : bonds.get? id = some bond)
    (hfi : status.isFinal = true) (C : Closes t u id status)
    (hre : Released t.assets u.assets cfg.spendingAssetId bond.sponsor bond.amount.toNat) :
    Books cfg base bonds u where
  reserved x := by
    have hout : unfinished u id = false := by
      rw [unfinished_insert C.status, if_pos rfl, hfi]
      rfl
    have hoth : ∀ k, k ≠ id → unfinished u k = unfinished t k := by
      intro k hk
      rw [unfinished_insert C.status, if_neg hk]
    have hsum := total_change (fun who => decide (who = x)) hb hoth hout
    have hbe := B.reserved x
    have hmo := hre.of_asset x
    simp only [hopn, Bool.true_and, decide_eq_true_eq] at hsum
    unfold owed at hbe ⊢
    omega
  bonded {p} hun := by
    obtain ⟨hne, hun⟩ := (unfinished_of_closes C hfi).mp hun
    rw [C.proposals hne]
    exact B.bonded hun
  call {p} hun := by
    obtain ⟨hne, hun⟩ := (unfinished_of_closes C hfi).mp hun
    rw [C.calls, contains_remove]
    exact ⟨hne, B.call hun⟩
  stored {p} hpr hca := by
    have hne : p ≠ id := by
      rintro rfl
      rcases hca with hc | hta
      · rw [C.calls, contains_remove] at hc
        exact hc.1 rfl
      · rw [C.cleared hpr] at hta
        cases hta
    refine (unfinished_of_closes C hfi).mpr ⟨hne, B.stored ?_ ?_⟩
    · obtain ⟨pr, hget⟩ := contains_iff.mp hpr
      exact contains_iff.mpr ⟨pr, (C.proposals hne).symm.trans hget⟩
    · refine hca.imp (fun hc => ?_) C.scheduled
      rw [C.calls, contains_remove] at hc
      exact hc.2

theorem Progress.settle (P : Progress cfg base bonds s ledger t) (hopn : unfinished t id = true)
    (hb : bonds.get? id = some bond) (hfi : status.isFinal = true) (C : Closes t u id status)
    (hre : Released t.assets u.assets cfg.spendingAssetId bond.sponsor bond.amount.toNat)
    (hf : ∀ x, u.assets.free cfg.spendingAssetId x = t.assets.free cfg.spendingAssetId x +
      BitVec.ofNat 128 (if status.releases && decide (bond.sponsor = x) then bond.amount.toNat else 0))
    (hiss : (u.assets.issuanceOf cfg.spendingAssetId).toNat =
      (t.assets.issuanceOf cfg.spendingAssetId).toNat - if status.slashes then bond.amount.toNat else 0) :
    Progress cfg base bonds s ledger u where
  books := P.books.settle hopn hb hfi C hre
  since hun := P.since ((unfinished_of_closes C hfi).mp hun).2
  final {p st} hget hov := by
    have hbe := P.final hget hov
    have hne : p ≠ id := by
      rintro rfl
      obtain ⟨st', hge', hnot⟩ := unfinished_iff.mp hopn
      rw [Option.some.inj (hbe.symm.trans hge'), hnot] at hov
      cases hov
    rw [C.status, get?_insert_ne hne]
    exact hbe
  reserved x := by
    have hsum := total_reaches_insert (p := ProposalStatusInfo.isFinal) (s := s) (fun h => h) (P.since hopn) hopn hb
      C.status fun who => decide (who = x)
    have hbe := P.reserved x
    have hmo := hre.of_asset x
    simp only [hfi, Bool.true_and, decide_eq_true_eq] at hsum
    unfold settled at hbe ⊢
    omega
  free x := by
    rw [hf, P.free, BitVec.add_assoc, ← BitVec.ofNat_add]
    unfold released
    rw [total_reaches_insert (p := ProposalStatusInfo.releases) ProposalStatusInfo.isFinal_of_releases (P.since hopn)
      hopn hb C.status]
  issuance := by
    rw [hiss, P.issuance, Nat.sub_sub]
    unfold slashed
    rw [total_reaches_insert (p := ProposalStatusInfo.slashes) ProposalStatusInfo.isFinal_of_slashes (P.since hopn) hopn
      hb C.status, Bool.and_true]

theorem Progress.enact (P : Progress cfg base bonds s ledger t) (hopn : unfinished t id = true)
    (hb : bonds.get? id = some bond) (hfo : bond.amount = t.proposalBond) (ok : Bool) :
    Progress cfg base bonds s ledger (finishEnactment cfg t id bond.sponsor ok) := by
  have hle := P.books.covers hopn hb
  have hss : (finishEnactment cfg t id bond.sponsor ok).assets =
      (unreserve t.assets cfg.spendingAssetId bond.sponsor bond.amount).1 := by
    rw [hfo]
    rfl
  have C : Closes t (finishEnactment cfg t id bond.sponsor ok) id (.approvedEnacted ok) := {
    status := rfl
    proposals := get?_remove_ne
    calls := rfl
    scheduled := fun hta => hta
    cleared := fun hpr => absurd rfl (contains_remove.mp hpr).1 }
  refine P.settle hopn hb rfl C ?_ (fun x => ?_) ?_
  · rw [hss]
    exact unreserve_moves hle
  · rw [hss, unreserve_free hle]
    by_cases hx : bond.sponsor = x
    · rw [if_pos hx.symm]
      simp [ProposalStatusInfo.releases, hx]
    · rw [if_neg (Ne.symm hx)]
      simp [hx]
  · rw [hss, unreserve_fst hle]
    unfold GenericAsset.State.issuanceOf
    rw [setFreeBalance_totalIssuance, setReservedBalance_totalIssuance]
    rfl

theorem Progress.slash (P : Progress cfg base bonds s ledger t) (status : ProposalStatusInfo)
    {p : Proposal A} (hopn : unfinished t id = true)
    (hpr : t.proposals.get? id = some p) (hfo : AtBond bonds id t.proposalBond)
    (hsl : status.slashes = true) (C : Closes t u id status)
    (hss : u.assets = (slashBond cfg t p.sponsor).assets) : Progress cfg base bonds s ledger u := by
  obtain ⟨p', bond, hpr', hb, hsp⟩ := P.books.bonded hopn
  cases Option.some.inj (hpr.symm.trans hpr')
  have hle := P.books.covers hopn hb
  have hld : u.assets = dropNegative (setReservedBalance t.assets cfg.spendingAssetId
      bond.sponsor (t.assets.reserved cfg.spendingAssetId bond.sponsor - bond.amount))
        ⟨bond.amount, cfg.spendingAssetId⟩ := by
    rw [hss, ← hsp]
    unfold slashBond
    rw [← hfo bond hb, slashReserved_eq hle]
  have hk : status.releases = false := by simpa using (Bool.and_eq_true_iff.mp hsl).2
  refine P.settle hopn hb (ProposalStatusInfo.isFinal_of_slashes hsl) C ?_ (fun x => ?_) ?_
  · rw [hld]
    exact setReservedBalance_released hle rfl
  · rw [hld, hk]
    show (setReservedBalance _ _ _ _).free _ _ = _
    unfold GenericAsset.State.free
    rw [setReservedBalance_freeBalance]
    exact (BitVec.add_zero _).symm
  · rw [hld, hsl, dropNegative_issuanceOf]
    unfold GenericAsset.State.issuanceOf
    rw [setReservedBalance_totalIssuance]
    rfl

end

end Governance
