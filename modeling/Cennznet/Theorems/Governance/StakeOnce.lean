import Cennznet.Staking.Ledger
import Cennznet.Theorems.Governance.Effects

/-! # Stake in a referendum

A stash may move its bond to another controller after a veto. -/

namespace Governance

open Result Staking StorageMap Steps

variable {A : Type}

structure Electorate (A : Type) where
  governance : State A
  bonds : Bonds A

/-- What happens during a referendum. The active balances are those of the bonds, and the rest of `env` is any. -/
inductive ElectorateOp (A : Type) where
  | voteAgainstReferendum (env : Env A) (org : A) (proposalId : ProposalId)
  | setController (stash ctl : A)

def Electorate.totalActive (s : Electorate A) : Nat := s.bonds.ledger.sumBy fun _ l => l.active.toNat

variable [LinearOrder A]

namespace Electorate

def step (s : Electorate A) : ElectorateOp A → Electorate A
  | .voteAgainstReferendum env org proposalId =>
    let env := { env with activeBalance := s.bonds.activeBalance }
    { s with governance := getD (voteAgainstReferendum env s.governance org proposalId) s.governance }
  | .setController stash ctl => { s with bonds := getD (s.bonds.setController stash ctl) s.bonds }

def countedStake (votes : StorageMap (ProposalId × A) VotingPower) (id : ProposalId) (who : A)
    (l : StakingLedger A) : Nat := if votes.contains (id, who) then l.active.toNat else 0

def vetoedStake (s : Electorate A) (id : ProposalId) : Nat :=
  s.bonds.ledger.sumBy (countedStake s.governance.referendumVotes id)

def Covered (id : ProposalId) (s : Electorate A) : Prop :=
  (s.governance.referendumVetoSum.getD id 0).toNat ≤ s.vetoedStake id

/-- No stash replaces a controller who has vetoed. -/
def KeepsVoters (id : ProposalId) (s : Electorate A) : ElectorateOp A → Prop
  | .setController stash _ => ∀ old ∈ s.bonds.bonded.get? stash, s.governance.referendumVotes.contains (id, old) = false
  | .voteAgainstReferendum _ _ _ => True

variable {s : Electorate A} {id p : ProposalId} {org stash ctl : A}

theorem vetoedStake_le (s : Electorate A) (id : ProposalId) : s.vetoedStake id ≤ s.totalActive := by
  refine sumBy_le fun who l _ => ?_
  unfold countedStake
  split
  · exact Nat.le_refl _
  · exact Nat.zero_le _

section
variable {votes : StorageMap (ProposalId × A) VotingPower} {power : VotingPower} {who : A}

theorem countedStake_insert_ne (h : (id, who) ≠ (p, org)) :
    countedStake (votes.insert (p, org) power) id who = countedStake votes id who := by
  have hco : (votes.insert (p, org) power).contains (id, who) = votes.contains (id, who) := by
    unfold StorageMap.contains
    rw [get?_insert, if_neg h]
  funext l
  unfold countedStake
  rw [hco]

theorem share_counted_before (hn : votes.get? (id, org) = none) :
    s.bonds.ledger.share (countedStake votes id) org = 0 := by
  have hco := not_contains_iff.mpr hn
  unfold StorageMap.share countedStake
  rw [hco]
  cases s.bonds.ledger.get? org <;> rfl

theorem share_counted_after : s.bonds.ledger.share (countedStake (votes.insert (id, org) power) id) org =
    (s.bonds.activeBalance org).toNat := by
  have hco : (votes.insert (id, org) power).contains (id, org) = true := contains_insert.mpr (Or.inl rfl)
  unfold StorageMap.share countedStake Bonds.activeBalance
  rw [hco]
  cases s.bonds.ledger.get? org <;> rfl

theorem covered_vote {env : Env A} {g : State A} (hco : Covered id s)
    (hac : env.activeBalance = s.bonds.activeBalance) (h : voteAgainstReferendum env s.governance org p = .ok g) :
    Covered id { s with governance := g } := by
  obtain ⟨-, hn, -, rfl⟩ := voteAgainstReferendum_inv h
  rw [hac]
  show ((s.governance.referendumVetoSum.insert p _).getD id 0).toNat ≤
    s.bonds.ledger.sumBy (countedStake (s.governance.referendumVotes.insert (p, org) (s.bonds.activeBalance org)) id)
  unfold Covered vetoedStake at hco
  rw [getD_insert]
  split_ifs with hp
  · subst hp
    have hch := sumBy_change (m := s.bonds.ledger) (k := org) (f := countedStake s.governance.referendumVotes id)
      (g := countedStake (s.governance.referendumVotes.insert (id, org) (s.bonds.activeBalance org)) id)
      (fun who l hwho => by rw [countedStake_insert_ne (by simp [hwho])])
    rw [share_counted_before hn, share_counted_after] at hch
    have hsum := Nat.mod_le ((s.governance.referendumVetoSum.getD id 0).toNat + (s.bonds.activeBalance org).toNat) (2 ^ 128)
    rw [BitVec.toNat_add]
    omega
  · have hs : countedStake (s.governance.referendumVotes.insert (p, org) (s.bonds.activeBalance org)) id =
        countedStake s.governance.referendumVotes id := by
      funext who
      exact countedStake_insert_ne (by simp [hp])
    rw [hs]
    exact hco

end

theorem covered_setController {b : Bonds A} (hco : Covered id s)
    (hke : KeepsVoters id s (.setController stash ctl)) (h : s.bonds.setController stash ctl = .ok b) :
    Covered id { s with bonds := b } := by
  simp only [Bonds.setController, bind_eq_ok, okOr_eq_ok, ensure_eq_ok] at h
  obtain ⟨old, hold, -, hf, h⟩ := h
  have hvo := not_contains_iff.mp (hke old hold)
  split_ifs at h with hne
  · split at h <;> rw [pure_eq_ok] at h <;> subst h
    · rename_i l hle
      refine hco.trans ?_
      have hre := sumBy_remove (m := s.bonds.ledger) (k := old) (f := countedStake s.governance.referendumVotes id)
      rw [share_counted_before hvo] at hre
      have hnew : (s.bonds.ledger.remove old).share (countedStake s.governance.referendumVotes id) ctl = 0 := by
        unfold StorageMap.share
        rw [get?_remove, if_neg hne, not_contains_iff.mp hf]
        rfl
      have hins := sumBy_insert (m := s.bonds.ledger.remove old) (k := ctl) (v := l)
        (f := countedStake s.governance.referendumVotes id)
      rw [hnew] at hins
      show s.bonds.ledger.sumBy _ ≤ ((s.bonds.ledger.remove old).insert ctl l).sumBy
        (countedStake s.governance.referendumVotes id)
      omega
    · exact hco
  · rw [pure_eq_ok] at h
    subst h
    exact hco

theorem step_covered {op : ElectorateOp A} (hke : KeepsVoters id s op) (hco : Covered id s) :
    Covered id (step s op) := by
  cases op with
  | voteAgainstReferendum env org p =>
    simp only [step]
    exact getD_cases (P := fun g => Covered id { s with governance := g }) (fun g h => covered_vote hco rfl h) hco
  | setController stash ctl =>
    exact getD_cases (P := fun b => Covered id { s with bonds := b }) (fun b h => covered_setController hco hke h) hco

end Electorate

/-- In a run of vetoes and changes of controllers from the start of a referendum, in which no stash replaces a
controller who has vetoed, the tally is at most all the bonds. -/
theorem stake_counted_once (id : ProposalId) (s : Electorate A) (ops : List (ElectorateOp A))
    (hstart : s.governance.referendumVetoSum.getD id 0 = 0)
    (hkeeps : Each Electorate.step (Electorate.KeepsVoters id) s ops)
    {done : List (ElectorateOp A)} (hdone : done <+: ops) :
    ((execute Electorate.step s done).governance.referendumVetoSum.getD id 0).toNat ≤
      (execute Electorate.step s done).totalActive := by
  have hini : Electorate.Covered id s := by
    unfold Electorate.Covered
    rw [hstart]
    exact Nat.zero_le _
  have hco : Electorate.Covered id (execute Electorate.step s done) :=
    hkeeps.throughout (I := Electorate.Covered id) (fun _ _ hop h => Electorate.step_covered hop h) hini hdone
  exact hco.trans (Electorate.vetoedStake_le _ id)

instance (id : ProposalId) (s : Electorate A) : ∀ op : ElectorateOp A, Decidable (Electorate.KeepsVoters id s op)
  | .setController stash _ =>
    Option.decidableForallMem (p := fun old => s.governance.referendumVotes.contains (id, old) = false)
      (o := s.bonds.bonded.get? stash)
  | .voteAgainstReferendum _ _ _ => inferInstanceAs (Decidable True)

def sampleElectorate : Electorate Nat where
  governance := execute (step sampleConfig) sampleGenesis (sampleOps approvedByCouncil)
  bonds :=
    { bonded := (∅ : StorageMap Nat Nat).insert 1 2
      ledger := (∅ : StorageMap Nat (StakingLedger Nat)).insert 2 ⟨1, 20000000, 20000000, []⟩ }

def vetoBy (who : Nat) : ElectorateOp Nat := .voteAgainstReferendum (sampleEnv 5) who 0

theorem movedThenVetoed_counted_once :
    let s := execute Electorate.step sampleElectorate [.setController 1 3, vetoBy 2, vetoBy 3]
    s.governance.referendumVetoSum.getD 0 0 = 20000000 ∧
      (s.governance.referendumVetoSum.getD 0 0).toNat ≤ s.totalActive := by
  refine ⟨by decide +kernel, ?_⟩
  exact stake_counted_once 0 sampleElectorate [.setController 1 3, vetoBy 2, vetoBy 3] (by decide +kernel)
    (by decide +kernel) (List.prefix_refl _)

theorem vetoedThenMoved_counted_twice :
    let s := execute Electorate.step sampleElectorate [vetoBy 2, .setController 1 3, vetoBy 3]
    s.governance.referendumVetoSum.getD 0 0 = 40000000 ∧ s.totalActive = 20000000 ∧
      ¬(s.governance.referendumVetoSum.getD 0 0).toNat ≤ s.totalActive := by
  refine ⟨by decide +kernel, by decide +kernel, by decide +kernel⟩

end Governance
