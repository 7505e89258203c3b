import Cennznet.Governance.Types

/-! # Rows of votes -/

namespace Governance

namespace ProposalVoteInfo

def voteAt (v : ProposalVoteInfo) (i : Nat) : Option Bool :=
  if v.activeBits.1.getLsbD i then some (v.voteBits.1.getLsbD i) else none

section
variable {v : ProposalVoteInfo} {i j : Nat}

theorem toNat_index (hi : i < 128) : (BitVec.ofNat 8 i).toNat = i := by
  rw [BitVec.toNat_ofNat]
  omega

theorem getVote_eq_voteAt (hi : i < 128) : v.getVote (BitVec.ofNat 8 i) = v.voteAt i := by
  have hle : i ≤ 127 := by omega
  simp only [getVote, voteAt, toNat_index hi, if_pos hle, Bits.and_one_pos hi, Bool.decide_eq_true]

theorem recordVote_eq (hi : i < 128) (vote : Bool) : v.recordVote (BitVec.ofNat 8 i) vote =
    { activeBits := (v.activeBits.1 ||| (1#128 <<< i), v.activeBits.2)
      voteBits := if vote then (v.voteBits.1 ||| (1#128 <<< i), v.voteBits.2) else v.voteBits } := by
  have hle : i ≤ 127 := by omega
  simp only [recordVote, toNat_index hi, if_pos hle]

theorem insertVoter_eq (hi : i < 128) : v.insertVoter (BitVec.ofNat 8 i) =
    { activeBits := (Bits.insertBit v.activeBits.1 i, v.activeBits.2)
      voteBits := (Bits.insertBit v.voteBits.1 i, v.voteBits.2) } := by
  have hle : i ≤ 127 := by omega
  simp only [insertVoter, toNat_index hi, if_pos hle]

theorem removeVoter_eq (hi : i < 128) : v.removeVoter (BitVec.ofNat 8 i) =
    { activeBits := (Bits.removeBit v.activeBits.1 i, v.activeBits.2)
      voteBits := (Bits.removeBit v.voteBits.1 i, v.voteBits.2) } := by
  have hle : i ≤ 127 := by omega
  simp only [removeVoter, toNat_index hi, if_pos hle]

end

structure Proper (v : ProposalVoteInfo) : Prop where
  activeRest : v.activeBits.2 = 0
  voteRest : v.voteBits.2 = 0
  active : ∀ {i}, v.voteBits.1.getLsbD i = true → v.activeBits.1.getLsbD i = true

section
variable {v : ProposalVoteInfo} {i j : Nat}

theorem proper_default : (default : ProposalVoteInfo).Proper where
  activeRest := rfl
  voteRest := rfl
  active h := by
    have hz : (0#128).getLsbD _ = true := h
    rw [BitVec.getLsbD_zero] at hz
    cases hz

theorem voteAt_default : (default : ProposalVoteInfo).voteAt i = none := by
  have hz : (default : ProposalVoteInfo).activeBits.1.getLsbD i = false := BitVec.getLsbD_zero
  simp only [voteAt, hz, Bool.false_eq_true, if_false]

theorem Proper.bits_of_none (P : v.Proper) (h : v.voteAt i = none) :
    v.activeBits.1.getLsbD i = false ∧ v.voteBits.1.getLsbD i = false := by
  have hac : v.activeBits.1.getLsbD i = false := by
    simpa only [voteAt, ite_eq_right_iff, reduceCtorEq, imp_false, Bool.not_eq_true] using h
  refine ⟨hac, Bool.eq_false_iff.mpr fun hvo => ?_⟩
  rw [P.active hvo] at hac
  cases hac

theorem Proper.recordVote (P : v.Proper) (hi : i < 128) (vote : Bool) : (v.recordVote (BitVec.ofNat 8 i) vote).Proper := by
  rw [recordVote_eq hi]
  refine ⟨P.activeRest, ?_, fun {j} h => ?_⟩
  · cases vote <;> exact P.voteRest
  · rw [Bits.getLsbD_or_one hi]
    cases vote with
    | false => rw [P.active h, Bool.true_or]
    | true =>
      have hvo : (v.voteBits.1 ||| (1#128 <<< i)).getLsbD j = true := h
      rw [Bits.getLsbD_or_one hi] at hvo
      rcases Bool.or_eq_true_iff.mp hvo with h | h
      · rw [P.active h, Bool.true_or]
      · rw [h, Bool.or_true]

theorem Proper.voteAt_recordVote (P : v.Proper) (hi : i < 128) (hn : v.voteAt i = none) (vote : Bool) :
    (v.recordVote (BitVec.ofNat 8 i) vote).voteAt j = if j = i then some vote else v.voteAt j := by
  obtain ⟨-, hvo⟩ := P.bits_of_none hn
  rw [recordVote_eq hi]
  simp only [voteAt, Bits.getLsbD_or_one hi]
  by_cases hj : j = i
  · subst hj
    cases vote <;> simp [hvo, Bits.getLsbD_or_one hi]
  · cases vote <;> simp [hj, Bits.getLsbD_or_one hi]

theorem Proper.insertVoter (P : v.Proper) (hi : i < 128) : (v.insertVoter (BitVec.ofNat 8 i)).Proper := by
  rw [insertVoter_eq hi]
  refine ⟨P.activeRest, P.voteRest, fun {j} h => ?_⟩
  rw [Bits.getLsbD_insertBit hi] at h ⊢
  split
  · rename_i hlt
    rw [if_pos hlt] at h
    exact P.active h
  · rename_i hlt
    rw [if_neg hlt] at h
    split
    · rename_i heq
      rw [if_pos heq] at h
      exact h
    · rename_i hne
      rw [if_neg hne, Bool.and_eq_true] at h
      rw [h.1, P.active h.2]
      rfl

theorem voteAt_insertVoter (hi : i < 128) : (v.insertVoter (BitVec.ofNat 8 i)).voteAt j =
    if j < i then v.voteAt j else if j = i then none else if j < 128 then v.voteAt (j - 1) else none := by
  rw [insertVoter_eq hi]
  simp only [voteAt, Bits.getLsbD_insertBit hi]
  by_cases hlt : j < i
  · simp only [if_pos hlt]
  · by_cases heq : j = i
    · simp [heq]
    · by_cases hw : j < 128 <;> simp [hlt, heq, hw]

theorem Proper.removeVoter (P : v.Proper) (hi : i < 128) : (v.removeVoter (BitVec.ofNat 8 i)).Proper := by
  rw [removeVoter_eq hi]
  refine ⟨P.activeRest, P.voteRest, fun {j} h => ?_⟩
  rw [Bits.getLsbD_removeBit hi] at h ⊢
  split_ifs with hlt
  · rw [if_pos hlt] at h
    exact P.active h
  · rw [if_neg hlt] at h
    exact P.active h

theorem voteAt_removeVoter (hi : i < 128) : (v.removeVoter (BitVec.ofNat 8 i)).voteAt j =
    if j < i then v.voteAt j else v.voteAt (j + 1) := by
  rw [removeVoter_eq hi]
  simp only [voteAt, Bits.getLsbD_removeBit hi]
  by_cases hlt : j < i
  · simp only [if_pos hlt]
  · simp only [if_neg hlt]

theorem Proper.getVote_of_le (P : v.Proper) {ix : BitVec 8} (hix : 128 ≤ ix.toNat) : v.getVote ix = none := by
  have hsm : ¬ix.toNat ≤ 127 := by omega
  have hlow : (ix - 128).toNat < 128 := by bv_omega
  simp only [getVote, if_neg hsm, P.activeRest, Bits.and_one_pos hlow]
  rw [if_neg]
  intro h
  rw [show (0 : BitVec 128) = 0#128 from rfl, BitVec.getLsbD_zero] at h
  cases h

end

end ProposalVoteInfo

end Governance
