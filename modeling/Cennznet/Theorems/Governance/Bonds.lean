import Cennznet.Theorems.Governance.Settlement

/-! # The bonds of proposals

Every settlement reads the bond in force by then, and a cancelled proposal stays stored. -/

namespace Governance

open Result StorageMap Steps
open GenericAsset

section
variable {A : Type} {cfg : Config A} {s : State A} {id : ProposalId} {bytes : Bytes}
  {pr : Proposal A} {depth : Nat} {call : RootCall A}

def lastCall (cfg : Config A) (s : State A) : Nat → RootCall A → Option (RuntimeCall A)
  | depth + 1, .enactReferendum id =>
    match s.proposalCalls.get? id, s.proposals.get? id with
    | some bytes, some _ =>
      match cfg.decode bytes with
      | some (.governance call) => lastCall cfg s depth call
      | some (.other run) => some (.other run)
      | none => none
    | _, _ => none
  | _, call => some (.governance call)

def bondLeft (s : State A) : Option (RuntimeCall A) → Balance
  | some (.governance (.setProposalBond bond)) => bond
  | _ => s.proposalBond

def ledgerLeft (s : State A) : Option (RuntimeCall A) → GenericAsset.State A
  | some (.other run) => (run s.assets).1
  | _ => s.assets

def cancels (s : State A) : Option (RuntimeCall A) → List ProposalId
  | some (.governance (.cancelEnactment id)) => if s.proposals.contains id ∧ s.scheduled.contains id then [id] else []
  | _ => []

def settlements (cfg : Config A) (s : State A) (depth : Nat) (call : RootCall A) : List ProposalId :=
  enactions cfg s depth call ++ cancels s (lastCall cfg s depth call)

section
variable {run : GenericAsset.State A → GenericAsset.State A × Bool} (hc : s.proposalCalls.get? id = some bytes)
  (hpr : s.proposals.get? id = some pr)
include hc hpr

theorem lastCall_governance (hde : cfg.decode bytes = some (.governance call)) :
    lastCall cfg s (depth + 1) (.enactReferendum id) = lastCall cfg s depth call := by
  simp only [lastCall, hc, hpr, hde]

theorem settlements_governance (hde : cfg.decode bytes = some (.governance call)) :
    settlements cfg s (depth + 1) (.enactReferendum id) = id :: settlements cfg s depth call := by
  simp only [settlements, enactions, lastCall, hc, hpr, hde, List.cons_append]

theorem lastCall_other (hde : cfg.decode bytes = some (.other run)) :
    lastCall cfg s (depth + 1) (.enactReferendum id) = some (.other run) := by
  simp only [lastCall, hc, hpr, hde]

theorem settlements_other (hde : cfg.decode bytes = some (.other run)) :
    settlements cfg s (depth + 1) (.enactReferendum id) = [id] := by
  simp only [settlements, enactions, lastCall, hc, hpr, hde, cancels, List.append_nil]

end

theorem lastCall_missing (h : s.proposalCalls.get? id = none ∨ s.proposals.get? id = none) :
    lastCall cfg s (depth + 1) (.enactReferendum id) = none := by
  unfold lastCall
  rcases h with h | h
  · rw [h]
  · rw [h]
    split
    · rename_i hso
      cases hso
    · rfl

end

structure History (A : Type) where
  state : State A
  bonds : StorageMap ProposalId (Bond A)

def History.genesis {A : Type} (assets : GenericAsset.State A) : History A :=
  ⟨State.genesis assets, ∅⟩

section
variable {A : Type} [LinearOrder A]

def placed (cfg : Config A) (s : State A) (op : Op A) : Option (Bond A) :=
  match op.call with
  | .submitProposal o call justificationUri enactmentDelay =>
    (submitProposal cfg op.env s o call justificationUri enactmentDelay).toOption.map
      fun _ => ⟨o, s.proposalBond⟩
  | _ => none

def historyStep (cfg : Config A) (h : History A) (op : Op A) : History A where
  state := step cfg h.state op
  bonds := ((placed cfg h.state op).map (h.bonds.insert h.state.nextProposalId)).getD h.bonds

def ledgerOf (cfg : Config A) (s : State A) (op : Op A) : GenericAsset.State A :=
  match op.call with
  | .root call => ledgerLeft s (lastCall cfg s cfg.depth call)
  | .runScheduled id =>
    if isDue op.env s id then ledgerLeft s (lastCall cfg s cfg.depth (.enactReferendum id))
    else s.assets
  | .ledger assets => assets
  | _ => s.assets

end

section
variable {A : Type} [LinearOrder A] {cfg : Config A} {env : Env A}
  {base : A → Nat} {bonds : StorageMap ProposalId (Bond A)} {s t : State A}
  {ledger : GenericAsset.State A} {id : ProposalId} {bytes : Bytes} {pr : Proposal A} {depth : Nat}
  {call : RootCall A}

theorem enactReferendum_error {e : Error}
    {dispatch : State A → RootCall A → Except Error (State A)}
    (h : enactReferendum cfg dispatch s id = .error e) :
    (s.proposalCalls.get? id = none ∨ s.proposals.get? id = none) ∨ e = .trapped ∧ ∃ bytes pr call,
      s.proposalCalls.get? id = some bytes ∧ s.proposals.get? id = some pr ∧
        cfg.decode bytes = some (.governance call) ∧ dispatch s call = .error .trapped := by
  simp only [enactReferendum, bind_eq_error, okOr_eq_error, okOr_eq_ok] at h
  rcases h with ⟨hmi, -⟩ | ⟨bytes, hc, ⟨hmi, -⟩ | ⟨pr, hpr, h⟩⟩
  · exact Or.inl (Or.inl hmi)
  · exact Or.inl (Or.inr hmi)
  · refine Or.inr ?_
    split at h
    · rename_i inner hde
      rcases bind_eq_error.mp h with h | ⟨r, -, h⟩
      · cases inner with
        | other run => cases h
        | governance call =>
          simp only [dispatchCall] at h
          split at h
          · cases h
          · rename_i htr
            cases h
            exact ⟨rfl, bytes, pr, call, hc, hpr, hde, htr⟩
          · cases h
      · cases h
    · cases h

theorem dispatchRoot_error {e : Error} (h : dispatchRoot cfg env depth s call = .error e) :
    ledgerLeft s (lastCall cfg s depth call) = s.assets ∧
      (e ≠ .trapped → bondLeft s (lastCall cfg s depth call) = s.proposalBond) := by
  induction depth generalizing call e with
  | zero =>
    cases h
    exact ⟨rfl, fun hne => absurd rfl hne⟩
  | succ depth ih =>
    cases call with
    | enactReferendum id =>
      rcases enactReferendum_error h with hmi | ⟨rfl, bytes, pr, call, hc, hpr, hde, htr⟩
      · rw [lastCall_missing hmi]
        exact ⟨rfl, fun _ => rfl⟩
      · rw [lastCall_governance hc hpr hde]
        exact ⟨(ih htr).1, fun hne => absurd rfl hne⟩
    | setProposalBond bond => cases h
    | _ => exact ⟨rfl, fun _ => rfl⟩

def OthersKeepReserved (cfg : Config A) : Prop :=
  ∀ bytes run, cfg.decode bytes = some (.other run) →
    ∀ assets x, (run assets).1.reservedOf cfg.spendingAssetId x = assets.reservedOf cfg.spendingAssetId x

structure Dispatched (cfg : Config A) (base : A → Nat) (bonds : StorageMap ProposalId (Bond A))
    (s : State A) (depth : Nat) (call : RootCall A) (t : State A) : Prop where
  progress : Progress cfg base bonds s (ledgerLeft s (lastCall cfg s depth call)) t
  bond : t.proposalBond = bondLeft s (lastCall cfg s depth call)
  others : ∀ {id}, id ∉ settlements cfg s depth call → t.proposalStatus.get? id = s.proposalStatus.get? id

section
variable (hoth : OthersKeepReserved cfg) (B : Books cfg base bonds s)
include B

theorem Dispatched.quiet (hss : t.assets = s.assets) (hpr : t.proposals = s.proposals)
    (hca : t.proposalCalls = s.proposalCalls) (hst : t.proposalStatus = s.proposalStatus)
    (hsc : t.scheduled = s.scheduled) (hle : ledgerLeft s (lastCall cfg s depth call) = s.assets)
    (hb : t.proposalBond = bondLeft s (lastCall cfg s depth call)) : Dispatched cfg base bonds s depth call t where
  progress := by
    rw [hle]
    exact (Progress.refl B).idle ⟨hss, hpr, hca, Or.inl hst, fun hta => Or.inl (hsc ▸ hta)⟩
  bond := hb
  others _ := by rw [hst]

theorem Progress.finish (P : Progress cfg base bonds s ledger t)
    (hc : s.proposalCalls.get? id = some bytes) (hpr : s.proposals.get? id = some pr)
    (hs : t.proposalStatus.get? id = s.proposalStatus.get? id)
    (hfo : AtBond bonds id t.proposalBond) (ok : Bool) :
    Progress cfg base bonds s ledger (finishEnactment cfg t id pr.sponsor ok) := by
  have hopn : unfinished s id = true := B.stored (contains_iff.mpr ⟨_, hpr⟩) (Or.inl (contains_iff.mpr ⟨_, hc⟩))
  obtain ⟨pr', bond, hpr', hb, hsp⟩ := B.bonded hopn
  cases Option.some.inj (hpr.symm.trans hpr')
  rw [← hsp]
  exact P.enact ((unfinished_of_same hs).trans hopn) hb (hfo bond hb) ok

theorem cancelEnactment_dispatched
    (hfo : ∀ p ∈ settlements cfg s (depth + 1) (.cancelEnactment id), AtBond bonds p s.proposalBond)
    (h : cancelEnactment cfg s id = .ok t) : Dispatched cfg base bonds s (depth + 1) (.cancelEnactment id) t := by
  simp only [cancelEnactment, cancelNamed, bind_eq_ok, okOr_eq_ok, pure_eq_ok] at h
  obtain ⟨pr, hpr, unscheduled, hun, rfl⟩ := h
  split at hun
  · rename_i hta
    cases hun
    have hco := contains_iff.mpr ⟨pr, hpr⟩
    have hids : settlements cfg s (depth + 1) (.cancelEnactment id) = [id] := if_pos ⟨hco, hta⟩
    have hopn := B.stored hco (Or.inr hta)
    rw [hids] at hfo
    refine ⟨?_, rfl, fun hnot => ?_⟩
    · refine (Progress.refl B).slash .approvedEnactmentCancelled hopn hpr (hfo id List.mem_cons_self) rfl ?_ rfl
      exact ⟨rfl, fun _ => rfl, rfl, fun hta => (contains_remove.mp hta).2,
        fun _ => Bool.eq_false_iff.mpr fun hta => (contains_remove.mp hta).1 rfl⟩
    · rw [hids] at hnot
      exact get?_insert_ne (List.ne_of_not_mem_cons hnot)
  · cases hun

theorem Dispatched.enact (D : Dispatched cfg base bonds s depth call t)
    (hc : s.proposalCalls.get? id = some bytes) (hpr : s.proposals.get? id = some pr)
    (hde : cfg.decode bytes = some (.governance call)) (hnew : id ∉ settlements cfg s depth call)
    (hfo : AtBond bonds id (bondLeft s (lastCall cfg s depth call))) (ok : Bool) :
    Dispatched cfg base bonds s (depth + 1) (.enactReferendum id) (finishEnactment cfg t id pr.sponsor ok) := by
  have hl : lastCall cfg s (depth + 1) (.enactReferendum id) = lastCall cfg s depth call :=
    lastCall_governance hc hpr hde
  refine ⟨?_, ?_, fun {p} hnot => ?_⟩
  · rw [hl]
    refine D.progress.finish B hc hpr (D.others hnew) ?_ ok
    rw [D.bond]
    exact hfo
  · rw [hl]
    exact D.bond
  · rw [settlements_governance hc hpr hde] at hnot
    have hne : p ≠ id := List.ne_of_not_mem_cons hnot
    exact (get?_insert_ne hne).trans (D.others fun hp => hnot (List.mem_cons_of_mem _ hp))

include hoth

theorem Dispatched.enactOther {run : GenericAsset.State A → GenericAsset.State A × Bool}
    (hc : s.proposalCalls.get? id = some bytes) (hpr : s.proposals.get? id = some pr)
    (hde : cfg.decode bytes = some (.other run))
    (hfo : AtBond bonds id s.proposalBond) (ok : Bool) :
    Dispatched cfg base bonds s (depth + 1) (.enactReferendum id)
      (finishEnactment cfg { s with assets := (run s.assets).1 } id pr.sponsor ok) := by
  have hl : lastCall cfg s (depth + 1) (.enactReferendum id) = some (.other run) := lastCall_other hc hpr hde
  have hre := hoth bytes run hde s.assets
  refine ⟨?_, by rw [hl]; rfl, fun hnot => ?_⟩
  · rw [hl]
    have hst := Progress.start (s := s) (B.of_ledger hre) rfl hre
    exact hst.finish B hc hpr rfl hfo _
  · rw [settlements_other hc hpr hde] at hnot
    exact get?_insert_ne (List.ne_of_not_mem_cons hnot)

theorem enactReferendum_dispatched
    (hno : (settlements cfg s (depth + 1) (.enactReferendum id)).Nodup)
    (hfo : ∀ p ∈ settlements cfg s (depth + 1) (.enactReferendum id),
      AtBond bonds p (bondLeft s (lastCall cfg s (depth + 1) (.enactReferendum id))))
    (ih : ∀ {call t}, (settlements cfg s depth call).Nodup →
      (∀ p ∈ settlements cfg s depth call, AtBond bonds p (bondLeft s (lastCall cfg s depth call))) →
      dispatchRoot cfg env depth s call = .ok t → Dispatched cfg base bonds s depth call t)
    (h : enactReferendum cfg (dispatchRoot cfg env depth) s id = .ok t) :
    Dispatched cfg base bonds s (depth + 1) (.enactReferendum id) t := by
  simp only [enactReferendum, bind_eq_ok, okOr_eq_ok] at h
  obtain ⟨bytes, hc, pr, hpr, h⟩ := h
  split at h
  · rename_i inner hde
    obtain ⟨⟨u, ok⟩, hir, h⟩ := bind_eq_ok.mp h
    cases pure_eq_ok.mp h
    cases inner with
    | other run =>
      cases hir
      rw [settlements_other hc hpr hde, lastCall_other hc hpr hde] at hfo
      exact .enactOther hoth B hc hpr hde (hfo id List.mem_cons_self) _
    | governance call =>
      rw [settlements_governance hc hpr hde, List.nodup_cons] at hno
      rw [settlements_governance hc hpr hde, lastCall_governance hc hpr hde] at hfo
      -- the call itself, which fails or leaves the proposal as it was
      have hdi : Dispatched cfg base bonds s depth call u := by
        simp only [dispatchCall] at hir
        split at hir
        · rename_i hok
          cases hir
          exact ih hno.2 (fun p hp => hfo p (List.mem_cons_of_mem _ hp)) hok
        · cases hir
        · rename_i e hne herr
          cases hir
          obtain ⟨hle, hb⟩ := dispatchRoot_error herr
          exact .quiet B rfl rfl rfl rfl rfl hle (hb fun htr => hne (htr ▸ rfl)).symm
      exact hdi.enact B hc hpr hde hno.1 (hfo id List.mem_cons_self) ok
  · rename_i hde
    cases pure_eq_ok.mp h
    have hl : lastCall cfg s (depth + 1) (.enactReferendum id) = none := by
      simp only [lastCall, hc, hpr, hde]
    exact .quiet B rfl rfl rfl rfl rfl (by rw [hl]; rfl) (by rw [hl]; rfl)

theorem dispatchRoot_dispatched (hno : (settlements cfg s depth call).Nodup)
    (hfo : ∀ p ∈ settlements cfg s depth call, AtBond bonds p (bondLeft s (lastCall cfg s depth call)))
    (h : dispatchRoot cfg env depth s call = .ok t) : Dispatched cfg base bonds s depth call t := by
  induction depth generalizing call t with
  | zero => cases h
  | succ depth ih =>
    cases call with
    | addCouncilMember m =>
      rcases (addCouncilMember_inv h).2 with rfl | ⟨idx, -, rfl⟩ <;> exact .quiet B rfl rfl rfl rfl rfl rfl rfl
    | removeCouncilMember m =>
      rcases removeCouncilMember_inv h with rfl | ⟨idx, -, rfl⟩ <;> exact .quiet B rfl rfl rfl rfl rfl rfl rfl
    | cancelEnactment id => exact cancelEnactment_dispatched B hfo h
    | enactReferendum id => exact enactReferendum_dispatched hoth B hno hfo ih h
    | _ =>
      cases h
      exact .quiet B rfl rfl rfl rfl rfl rfl rfl

end

end

section
variable {A : Type} {cfg : Config A} {env : Env A} {s t : State A} {id : ProposalId}

theorem Verdict.running {p : ProposalId} (h : Verdict cfg env s id t)
    (hru : t.proposalStatus.get? p = some .referendumDeliberation) :
    s.proposalStatus.get? p = some .referendumDeliberation := by
  cases h with
  | missing hpr => exact hru
  | _ => exact (get?_of_insert hru (by simp)).2

theorem Verdict.bond (h : Verdict cfg env s id t) : t.proposalBond = s.proposalBond := by
  cases h <;> rfl

variable [LinearOrder A] {base : A → Nat} {bonds : StorageMap ProposalId (Bond A)}
  {ledger : GenericAsset.State A} {o : A} {pr : Proposal A}

theorem Progress.applyTally (P : Progress cfg base bonds s ledger t) (hopn : unfinished t id = true)
    (hpr : t.proposals.get? id = some pr) (hfo : AtBond bonds id t.proposalBond)
    (tally : CouncilVoteCount) : Progress cfg base bonds s ledger (applyTally cfg env t id pr.sponsor tally) := by
  unfold Governance.applyTally
  split
  · split_ifs with hc
    · exact P.idle ⟨rfl, rfl, rfl, Or.inr ⟨id, .referendumDeliberation, hopn, rfl, rfl⟩, Or.inl⟩
    · exact absurd (P.books.call hopn) hc
  · split
    · refine P.slash .disapproved hopn hpr hfo rfl ?_ rfl
      exact ⟨rfl, get?_remove_ne, rfl, fun hta => hta,
        fun hpr => absurd rfl (contains_remove.mp hpr).1⟩
    · exact P

theorem voteOnProposal_progress {vote : Bool} (B : Books cfg base bonds s) (hvo : s.proposals.contains id = true →
      unfinished s id = true ∧ AtBond bonds id s.proposalBond)
    (h : voteOnProposal cfg env s o id vote = .ok t) : Progress cfg base bonds s s.assets t := by
  simp only [voteOnProposal, bind_eq_ok, mapError_eq_ok, okOr_eq_ok, ensure_eq_ok, pure_eq_ok] at h
  obtain ⟨idx, -, pr, hpr, -, -, rfl⟩ := h
  obtain ⟨hopn, hfo⟩ := hvo (contains_iff.mpr ⟨pr, hpr⟩)
  have P : Progress cfg base bonds s s.assets { s with
      proposalVotes := s.proposalVotes.insert id (votesWith s id idx vote) } :=
    (Progress.refl B).idle ⟨rfl, rfl, rfl, Or.inl rfl, Or.inl⟩
  exact P.applyTally hopn hpr hfo _

theorem Progress.endReferendum (P : Progress cfg base bonds s ledger t) (hopn : unfinished t id = true)
    (hfo : AtBond bonds id t.proposalBond) :
    Progress cfg base bonds s ledger (endReferendum cfg env t id) := by
  unfold Governance.endReferendum
  split
  · exact P
  · rename_i pr hpr
    dsimp only
    split
    · refine P.slash .referendumVetoed hopn hpr hfo rfl ?_ rfl
      exact ⟨rfl, get?_remove_ne, rfl, fun hta => hta,
        fun hpr => absurd rfl (contains_remove.mp hpr).1⟩
    · unfold approveReferendum
      split_ifs with hc
      · obtain ⟨scheduled, heq, hsc⟩ := scheduleNamed_getD env
          { t with referendumVotes := t.referendumVotes.removePrefix id } id (env.blockNumber + pr.enactmentDelay)
        rw [heq]
        refine P.idle ⟨rfl, rfl, rfl, Or.inr ⟨id, .approvedWaitingEnactment, hopn, rfl, rfl⟩, fun {p} hta => ?_⟩
        rcases hsc with rfl | ⟨b, rfl⟩
        · exact Or.inl hta
        · rcases contains_insert.mp hta with rfl | hta
          · exact Or.inr hopn
          · exact Or.inl hta
      · exact absurd (P.books.call hopn) hc

theorem onInitialize_progress (B : Books cfg base bonds s) (hfo : env.blockNumber % referendumCheckInterval = 0 →
      ∀ entry ∈ s.referendumStartTime.iterBy cfg.startTimeOrder, isOver env s entry.1 entry.2 = true →
        AtBond bonds entry.1 s.proposalBond) :
    Progress cfg base bonds s s.assets (onInitialize cfg env s) := by
  unfold onInitialize
  split_ifs with hch
  · -- the bond in force stays, and a referendum that is found over was so before the loop
    refine (endReferenda_induction (I := fun t => Progress cfg base bonds s s.assets t ∧ t.proposalBond = s.proposalBond ∧
      ∀ p, t.proposalStatus.get? p = some .referendumDeliberation → s.proposalStatus.get? p = some .referendumDeliberation)
      cfg env _ (fun t id b hmem hov ⟨P, hb, hru⟩ => ?_) ⟨Progress.refl B, rfl, fun _ => id⟩).1
    have verdict := endReferendum_verdict cfg env t id
    have hst := isOver_status hov
    have hbe : isOver env s id b = true := by
      simp only [isOver, decide_eq_true_eq] at hov ⊢
      exact ⟨hov.1, hru id hst⟩
    refine ⟨P.endReferendum (unfinished_iff.mpr ⟨_, hst, rfl⟩) ?_, verdict.bond.trans hb,
      fun p hp => hru p (verdict.running hp)⟩
    rw [hb]
    exact hfo hch (id, b) hmem hbe
  · exact Progress.refl B

end

section
variable {A : Type} [LinearOrder A]

/-- No other module touches what is reserved, and there is room for what a new proposal reserves. -/
def Undisturbed (cfg : Config A) (h : History A) (op : Op A) : Prop :=
  match op.call with
  | .submitProposal o _ _ _ =>
    h.state.assets.reservedOf cfg.spendingAssetId o + h.state.proposalBond.toNat < 2 ^ 128
  | .ledger assets => ∀ x, assets.reservedOf cfg.spendingAssetId x = h.state.assets.reservedOf cfg.spendingAssetId x
  | _ => True

/-- A root call settles no proposal twice, and each at the bond in force once its call has been dispatched. -/
def RootSettlesAtBond (cfg : Config A) (h : History A) (call : RootCall A) : Prop :=
  (settlements cfg h.state cfg.depth call).Nodup ∧ ∀ id ∈ settlements cfg h.state cfg.depth call,
      AtBond h.bonds id (bondLeft h.state (lastCall cfg h.state cfg.depth call))

/-- The referenda that are over end at the bonds of their proposals. -/
def ReferendaEndAtBond (cfg : Config A) (env : Env A) (h : History A) : Prop :=
  ∀ entry ∈ h.state.referendumStartTime.iterBy cfg.startTimeOrder, isOver env h.state entry.1 entry.2 = true →
    AtBond h.bonds entry.1 h.state.proposalBond

/-- A proposal is submitted under a new id, the council votes on what is under way, and what is voted on, cancelled,
enacted or ended was submitted at the bond in force. -/
def SettledAtBond (cfg : Config A) (h : History A) (op : Op A) : Prop :=
  match op.call with
  | .submitProposal _ _ _ _ => h.state.proposalStatus.get? h.state.nextProposalId = none
  | .voteOnProposal _ id _ => h.state.proposals.contains id = true →
    unfinished h.state id = true ∧ AtBond h.bonds id h.state.proposalBond
  | .root call => RootSettlesAtBond cfg h call
  | .runScheduled id =>
    isDue op.env h.state id = true → RootSettlesAtBond cfg h (.enactReferendum id)
  | .onInitialize => op.env.blockNumber % referendumCheckInterval = 0 → ReferendaEndAtBond cfg op.env h
  | .voteAgainstReferendum _ _ | .ledger _ => True

/-- Every proposal that ends in the step does so for good, and exactly its bond leaves what is reserved: to the
sponsor's free balance, or off the issuance. -/
structure SettlesBonds (cfg : Config A) (h : History A) (op : Op A) : Prop where
  once : ∀ {id status}, h.state.proposalStatus.get? id = some status → status.isFinal = true →
    (step cfg h.state op).proposalStatus.get? id = some status
  reserved : ∀ x, (step cfg h.state op).assets.reservedOf cfg.spendingAssetId x +
      settled h.bonds h.state (step cfg h.state op) x =
    h.state.assets.reservedOf cfg.spendingAssetId x +
      (placed cfg h.state op).elim 0 fun bond => if bond.sponsor = x then bond.amount.toNat else 0
  released : placed cfg h.state op = none → ∀ x, (step cfg h.state op).assets.free cfg.spendingAssetId x =
    (ledgerOf cfg h.state op).free cfg.spendingAssetId x +
      BitVec.ofNat 128 (released h.bonds h.state (step cfg h.state op) x)
  slashed : placed cfg h.state op = none → ((step cfg h.state op).assets.issuanceOf cfg.spendingAssetId).toNat =
    ((ledgerOf cfg h.state op).issuanceOf cfg.spendingAssetId).toNat - slashed h.bonds h.state (step cfg h.state op)

variable {cfg : Config A} {env : Env A} {base : A → Nat}
  {bonds : StorageMap ProposalId (Bond A)} {s t : State A} {o : A} {id : ProposalId}
  {h : History A} {op : Op A}

theorem Books.place (pr : Proposal A) {call : Bytes} {n : Balance} (B : Books cfg base bonds s)
    (hfr : unfinished s id = false) (hst : t.proposalStatus = s.proposalStatus.insert id .deliberation)
    (hpr : t.proposals = s.proposals.insert id pr)
    (hca : t.proposalCalls = s.proposalCalls.insert id call) (hsc : t.scheduled = s.scheduled)
    (hre : Released t.assets s.assets cfg.spendingAssetId pr.sponsor n.toNat) :
    Books cfg base (bonds.insert id ⟨pr.sponsor, n⟩) t := by
  have hopn : unfinished t id = true := by
    rw [unfinished_insert hst, if_pos rfl]
    rfl
  have hoth : ∀ k, k ≠ id → unfinished s k = unfinished t k := by
    intro k hk
    rw [unfinished_insert hst, if_neg hk]
  refine ⟨fun x => ?_, fun {p} hp => ?_, fun {p} hp => ?_, fun {p} hpl hcs => ?_⟩
  · have hsum := total_insert bonds ⟨pr.sponsor, n⟩ (fun who => decide (who = x)) hoth hfr
    have hbe := B.reserved x
    have hmo := hre.of_asset x
    simp only [hopn, Bool.true_and, decide_eq_true_eq] at hsum
    unfold owed at hbe ⊢
    omega
  · by_cases hne : p = id
    · rw [hne, hpr, get?_insert_self, get?_insert_self]
      exact ⟨pr, _, rfl, rfl, rfl⟩
    · rw [hpr, get?_insert_ne hne, get?_insert_ne hne]
      exact B.bonded ((hoth p hne).trans hp)
  · rw [hca, contains_insert]
    by_cases hne : p = id
    · exact Or.inl hne
    · exact Or.inr (B.call ((hoth p hne).trans hp))
  · by_cases hne : p = id
    · rw [hne]
      exact hopn
    · rw [hpr, contains_insert] at hpl
      rw [hca, hsc, contains_insert] at hcs
      rw [← hoth p hne]
      exact B.stored (hpl.resolve_left hne) (hcs.imp_left fun hc => hc.resolve_left hne)

theorem placed_inv {bond : Bond A} (hpl : placed cfg s op = some bond) :
    ∃ call uri delay, op.call = .submitProposal bond.sponsor call uri delay ∧ bond.amount = s.proposalBond ∧
      submitProposal cfg op.env s bond.sponsor call uri delay = .ok (step cfg s op) := by
  obtain ⟨env, call⟩ := op
  cases call with
  | submitProposal o call uri delay =>
    obtain ⟨t, hsu, rfl⟩ := Option.map_eq_some_iff.mp hpl
    refine ⟨call, uri, delay, rfl, rfl, ?_⟩
    cases hre : submitProposal cfg env s o call uri delay with
    | error e =>
      rw [hre] at hsu
      cases hsu
    | ok t =>
      show _ = Except.ok (getD (submitProposal cfg env s o call uri delay) s)
      rw [hre]
      rfl
  | _ => cases hpl

theorem step_places {bond : Bond A} (B : Books cfg base h.bonds h.state) (hr : Undisturbed cfg h op)
    (hb : SettledAtBond cfg h op) (hpl : placed cfg h.state op = some bond) :
    Books cfg base (h.bonds.insert h.state.nextProposalId bond) (step cfg h.state op) ∧ SettlesBonds cfg h op := by
  obtain ⟨call, uri, delay, hc, hamo, hsu⟩ := placed_inv hpl
  simp only [Undisturbed, SettledAtBond, hc] at hr hb
  simp only [submitProposal, bind_eq_ok, mapError_eq_ok, pure_eq_ok] at hsu
  obtain ⟨-, -, idx, -, assets, hss, hs⟩ := hsu
  have hre := reserve_adds hr hss
  have hst : (step cfg h.state op).proposalStatus =
      h.state.proposalStatus.insert h.state.nextProposalId .deliberation := by
    rw [← hs]
  have hfr : unfinished h.state h.state.nextProposalId = false := by
    unfold unfinished
    rw [hb]
    rfl
  have hk : ∀ id, unfinished h.state id = true → unfinished (step cfg h.state op) id = true := by
    intro id hopn
    rw [unfinished_insert hst]
    split
    · rfl
    · exact hopn
  obtain ⟨sponsor, n⟩ := bond
  cases hamo
  refine ⟨?_, ?_, fun x => ?_, fun hn => ?_, fun hn => ?_⟩
  · rw [← hs]
    exact B.place ⟨sponsor, uri, _⟩ hfr rfl rfl rfl rfl hre
  · intro id st hget hfi
    have hne : id ≠ h.state.nextProposalId := by
      rintro rfl
      rw [hb] at hget
      cases hget
    rw [hst, get?_insert_ne hne]
    exact hget
  · rw [settled, total_reaches_eq_zero (fun h => h) hk, hpl, ← hs]
    exact (hre.of_asset x).symm
  · rw [hpl] at hn
    cases hn
  · rw [hpl] at hn
    cases hn

theorem runScheduled_progress (hoth : OthersKeepReserved cfg) (B : Books cfg base h.bonds h.state)
    (hb : isDue env h.state id = true → RootSettlesAtBond cfg h (.enactReferendum id)) :
    Progress cfg base h.bonds h.state (ledgerOf cfg h.state ⟨env, .runScheduled id⟩)
      (getD (runScheduled cfg env h.state id) h.state) := by
  unfold runScheduled ledgerOf
  dsimp only
  split_ifs with hdue
  · obtain ⟨hno, hfr⟩ := hb hdue
    simp only [dispatchCall]
    cases hro : dispatchRoot cfg env cfg.depth h.state (.enactReferendum id) with
    | ok t =>
      have hdi := dispatchRoot_dispatched hoth B hno hfr hro
      exact hdi.progress.idle ⟨rfl, rfl, rfl, Or.inl rfl, fun hta => Or.inl (contains_remove.mp hta).2⟩
    | error e =>
      rw [(dispatchRoot_error hro).1]
      have hfo : Progress cfg base h.bonds h.state h.state.assets
          { h.state with scheduled := h.state.scheduled.remove id } :=
        (Progress.refl B).idle ⟨rfl, rfl, rfl, Or.inl rfl, fun hta => Or.inl (contains_remove.mp hta).2⟩
      cases e with
      | trapped => exact Progress.refl B
      | _ => exact hfo
  · exact Progress.refl B

theorem step_progress (hoth : OthersKeepReserved cfg) (B : Books cfg base h.bonds h.state)
    (hr : Undisturbed cfg h op) (hb : SettledAtBond cfg h op) (hpl : placed cfg h.state op = none) :
    Progress cfg base h.bonds h.state (ledgerOf cfg h.state op) (step cfg h.state op) := by
  obtain ⟨env, call⟩ := op
  cases call with
  | submitProposal o call uri delay =>
    have hfa : step cfg h.state ⟨env, .submitProposal o call uri delay⟩ = h.state := by
      cases hsu : submitProposal cfg env h.state o call uri delay with
      | ok t => simp [placed, hsu, Except.toOption] at hpl
      | error e =>
        show getD (submitProposal cfg env h.state o call uri delay) h.state = h.state
        rw [hsu]
        rfl
    rw [hfa]
    exact Progress.refl B
  | voteOnProposal o id vote =>
    exact getD_cases (fun t hvo => voteOnProposal_progress B hb hvo) (Progress.refl B)
  | voteAgainstReferendum o id =>
    refine getD_cases (fun t hvo => ?_) (Progress.refl B)
    obtain ⟨-, -, -, rfl⟩ := voteAgainstReferendum_inv hvo
    exact (Progress.refl B).idle ⟨rfl, rfl, rfl, Or.inl rfl, Or.inl⟩
  | root call =>
    show Progress cfg base h.bonds h.state _ (getD (dispatchRoot cfg env cfg.depth h.state call) h.state)
    cases hro : dispatchRoot cfg env cfg.depth h.state call with
    | ok t => exact (dispatchRoot_dispatched hoth B hb.1 hb.2 hro).progress
    | error e =>
      have hle : ledgerOf cfg h.state ⟨env, .root call⟩ = h.state.assets := (dispatchRoot_error hro).1
      rw [hle]
      exact Progress.refl B
  | onInitialize => exact onInitialize_progress B hb
  | runScheduled id => exact runScheduled_progress hoth B hb
  | ledger assets => exact Progress.start (B.of_ledger hr) rfl hr

theorem historyStep_settles (hoth : OthersKeepReserved cfg) (B : Books cfg base h.bonds h.state)
    (hr : Undisturbed cfg h op) (hb : SettledAtBond cfg h op) :
    Books cfg base (historyStep cfg h op).bonds (historyStep cfg h op).state ∧ SettlesBonds cfg h op := by
  unfold historyStep
  cases hpl : placed cfg h.state op with
  | some bond => exact step_places B hr hb hpl
  | none =>
    have P := step_progress hoth B hr hb hpl
    refine ⟨P.books, P.final, fun x => ?_, fun _ => P.free, fun _ => P.issuance⟩
    rw [hpl]
    exact P.reserved x

end

section
variable {A : Type} [LinearOrder A]

/-- Beside what was reserved to begin with, a sponsor has reserved the bonds of their proposals under way. -/
def BondsHeld (cfg : Config A) (assets : GenericAsset.State A) (h : History A) : Prop :=
  ∀ x, h.state.assets.reservedOf cfg.spendingAssetId x = assets.reservedOf cfg.spendingAssetId x + owed h.bonds h.state x

theorem genesis_books (cfg : Config A) (assets : GenericAsset.State A) :
    Books cfg (assets.reservedOf cfg.spendingAssetId) (History.genesis assets).bonds (History.genesis assets).state where
  reserved _ := rfl
  bonded hopn := by cases hopn
  call hopn := by cases hopn
  stored hpr := by cases hpr

/-- If every proposal is settled at the bond it was submitted at, and none that is over is voted on or settled again, a
bond stays reserved until its proposal ends, and is then settled in full and for good. -/
theorem bonds_settled_once (cfg : Config A) (assets : GenericAsset.State A) (ops : List (Op A))
    (hothers : OthersKeepReserved cfg)
    (hrun : Each (historyStep cfg) (Undisturbed cfg) (History.genesis assets) ops)
    (hbond : Each (historyStep cfg) (SettledAtBond cfg) (History.genesis assets) ops) :
    (∀ done, done <+: ops → BondsHeld cfg assets (execute (historyStep cfg) (History.genesis assets) done)) ∧
      Each (historyStep cfg) (SettlesBonds cfg) (History.genesis assets) ops := by
  have hbo := each_and.mpr ⟨hrun, hbond⟩
  have keep : ∀ h op, Undisturbed cfg h op ∧ SettledAtBond cfg h op →
      Books cfg (assets.reservedOf cfg.spendingAssetId) h.bonds h.state →
      Books cfg (assets.reservedOf cfg.spendingAssetId) (historyStep cfg h op).bonds (historyStep cfg h op).state :=
    fun h op hop B => (historyStep_settles hothers B hop.1 hop.2).1
  refine ⟨fun done hdo => ?_, ?_⟩
  · exact (hbo.throughout keep (genesis_books cfg assets) hdo).reserved
  · exact hbo.imp keep (fun h op B hop => (historyStep_settles hothers B hop.1 hop.2).2) (genesis_books cfg assets)

instance (cfg : Config A) (h : History A) (call : RootCall A) : Decidable (RootSettlesAtBond cfg h call) :=
  have := List.decidableBAll (AtBond h.bonds · (bondLeft h.state (lastCall cfg h.state cfg.depth call)))
    (settlements cfg h.state cfg.depth call)
  inferInstanceAs (Decidable (_ ∧ _))

instance (cfg : Config A) (env : Env A) (h : History A) : Decidable (ReferendaEndAtBond cfg env h) :=
  have : DecidablePred fun entry : ProposalId × BlockNumber =>
      isOver env h.state entry.1 entry.2 = true → AtBond h.bonds entry.1 h.state.proposalBond := fun _ => inferInstance
  List.decidableBAll _ _

instance (cfg : Config A) (h : History A) : ∀ op : Op A, Decidable (SettledAtBond cfg h op)
  | ⟨_, .submitProposal _ _ _ _⟩ => inferInstanceAs (Decidable (_ = _))
  | ⟨_, .voteOnProposal _ _ _⟩ => inferInstanceAs (Decidable (_ → _ ∧ _))
  | ⟨_, .root call⟩ => inferInstanceAs (Decidable (RootSettlesAtBond cfg h call))
  | ⟨_, .runScheduled _⟩ => inferInstanceAs (Decidable (_ → RootSettlesAtBond cfg h _))
  | ⟨env, .onInitialize⟩ => inferInstanceAs (Decidable (_ → ReferendaEndAtBond cfg env h))
  | ⟨_, .voteAgainstReferendum _ _⟩ | ⟨_, .ledger _⟩ => inferInstanceAs (Decidable True)

end

def sampleLedger : GenericAsset.State Nat := setFreeBalance (GenericAsset.State.genesis 17000) 1 1 1000

def submittedTwice : List (BlockNumber × Call Nat) :=
  [(1, .root (.addCouncilMember 1)), (1, .root (.addCouncilMember 2)), (1, .root (.addCouncilMember 3)),
    (1, .root (.setProposalBond 100)), (2, .submitProposal 1 [] [] 10), (3, .submitProposal 1 [] [] 10)]

def settledTwice : List (Op Nat) := sampleOps (submittedTwice ++
  [(4, .voteOnProposal 2 0 false), (4, .voteOnProposal 3 0 false), (5, .voteOnProposal 2 1 true), (22000, .onInitialize),
    (22010, .runScheduled 1)])

theorem others_keep_reserved_sample : OthersKeepReserved sampleConfig := by
  intro bytes run hde assets x
  cases hde
  rfl

theorem bonds_of_two_proposals_settled :
    Each (historyStep sampleConfig) (SettlesBonds sampleConfig) (History.genesis sampleLedger) settledTwice ∧
      (execute (historyStep sampleConfig) (History.genesis sampleLedger) settledTwice).state.assets.free 1 1 = 900 := by
  refine ⟨?_, by decide +kernel⟩
  refine (bonds_settled_once sampleConfig sampleLedger settledTwice others_keep_reserved_sample ?_ (by decide +kernel)).2
  have hr : ∀ n : Nat, decide (n < 2 ^ 128) = true → n < 2 ^ 128 := fun _ => of_decide_eq_true
  exact ⟨trivial, trivial, trivial, trivial, hr _ (by decide +kernel), hr _ (by decide +kernel), trivial, trivial,
    trivial, trivial, trivial, trivial⟩

def loweredBond : List (Op Nat) := sampleOps (submittedTwice.take 5 ++
  [(3, .root (.setProposalBond 30)), (4, .voteOnProposal 2 0 false), (4, .voteOnProposal 3 0 false)])

theorem loweredBond_leaves_rest :
    let h := execute (historyStep sampleConfig) (History.genesis sampleLedger) loweredBond
    Each (historyStep sampleConfig) (Undisturbed sampleConfig) (History.genesis sampleLedger) loweredBond ∧
      h.state.proposalStatus.get? 0 = some .disapproved ∧ h.state.assets.reservedOf 1 1 = 70 ∧ owed h.bonds h.state 1 = 0 ∧
      ¬BondsHeld sampleConfig sampleLedger h := by
  intro h
  have hr : ∀ n : Nat, decide (n < 2 ^ 128) = true → n < 2 ^ 128 := fun _ => of_decide_eq_true
  have hre : h.state.assets.reservedOf 1 1 = 70 := by decide +kernel
  have howe : owed h.bonds h.state 1 = 0 := by decide +kernel
  refine ⟨?_, by decide +kernel, hre, howe, fun hhe => ?_⟩
  · exact ⟨trivial, trivial, trivial, trivial, hr _ (by decide +kernel), trivial, trivial, trivial, trivial⟩
  have hone : h.state.assets.reservedOf 1 1 = sampleLedger.reservedOf 1 1 + owed h.bonds h.state 1 := hhe 1
  rw [hre, howe] at hone
  revert hone
  decide +kernel

end Governance
