import Cennznet.Lib.Run
import Cennznet.Theorems.EthyGadget.Votes

/-! # Signatures in their slots

A signature is recorded under the index of its authority when the witness is noted. -/

namespace EthyGadget

open Steps List

namespace WitnessRecord

variable {Au Sig : Type}

section
variable {r : WitnessRecord Au Sig} {e e' : EventId} {d d' : Hash}

theorem recorded_clear : (r.clear e).recorded e' d = if e' = e then none else r.recorded e' d := by
  simp only [recorded, clear, StorageMap.get?_remove]
  split <;> rfl

theorem noteEventMetadata_eq (r : WitnessRecord Au Sig) (e : EventId) (bl : Hash) (tag : Option Bytes) :
    ∃ eventMeta, r.noteEventMetadata e bl tag = { r with eventMeta := eventMeta } := by
  simp only [noteEventMetadata]
  split
  · exact ⟨_, rfl⟩
  · exact ⟨_, rfl⟩

theorem hasConsensus_iff {t : Nat} (ht : 1 ≤ t) :
    r.hasConsensus e d t = true ↔ ∃ sigs, r.recorded e d = some sigs ∧ t ≤ sigs.length := by
  cases h : r.recorded e d with
  | none => simp [hasConsensus, h]; omega
  | some sigs => simp [hasConsensus, h]

end

section
variable [LinearOrder Au] {r : WitnessRecord Au Sig} {w : Witness Au Sig}
  {e : EventId} {d : Hash} {i : Nat}

theorem getElem?_of_authorityToIndex {a : Au} (h : r.authorityToIndex a = some i) : r.validators[i]? = some a := by
  obtain ⟨hlt, ha, -⟩ := findIdx?_eq_some_iff_getElem.mp h
  rw [getElem?_eq_getElem hlt]
  exact congrArg some (of_decide_eq_true ha)

theorem insertSignature_of_validator (hix : r.authorityToIndex w.authorityId = some i) :
    r.insertSignature w = r.record.insert w.eventId
      (((r.record.get? w.eventId).getD ∅).insert w.digest
        ((r.recorded w.eventId w.digest).getD [] ++ [(i, w.signature)])) := by
  cases hdi : r.record.get? w.eventId with
  | none => simp [insertSignature, recorded, hdi, hix]
  | some digests =>
    cases hsig : digests.get? w.digest with
    | none => simp [insertSignature, recorded, hdi, hix, hsig]
    | some sigs => simp [insertSignature, recorded, hdi, hix, hsig]

theorem insertSignature_of_stranger (hix : r.authorityToIndex w.authorityId = none) :
    r.insertSignature w = r.record ∨ (r.record.get? w.eventId = none ∧ r.insertSignature w = r.record.insert w.eventId ∅) := by
  cases hdi : r.record.get? w.eventId with
  | none => exact Or.inr ⟨rfl, by simp [insertSignature, hdi, hix]⟩
  | some digests => exact Or.inl (by simp [insertSignature, hdi, hix])

theorem recorded_insertSignature :
    ({ r with record := r.insertSignature w } : WitnessRecord Au Sig).recorded e d =
      if e = w.eventId ∧ d = w.digest then
        match r.authorityToIndex w.authorityId with
        | some i => some ((r.recorded e d).getD [] ++ [(i, w.signature)])
        | none => r.recorded e d
      else r.recorded e d := by
  cases hix : r.authorityToIndex w.authorityId with
  | none =>
    simp only [ite_self]
    rcases insertSignature_of_stranger hix with h | ⟨hn, h⟩
    · simp only [recorded, h]
    · by_cases he : e = w.eventId
      · simp [recorded, h, he, hn]
      · simp [recorded, h, he]
  | some i =>
    rw [insertSignature_of_validator hix]
    by_cases he : e = w.eventId
    · subst he
      by_cases hd : d = w.digest
      · simp [recorded, hd]
      · cases hdi : r.record.get? w.eventId <;> simp [recorded, hd, hdi]
    · simp [recorded, he]

theorem recorded_insertSignature_cases {signatures : Signatures Sig}
    (h : ({ r with record := r.insertSignature w } : WitnessRecord Au Sig).recorded e d = some signatures) :
    r.recorded e d = some signatures ∨
      (e = w.eventId ∧ d = w.digest ∧ ∃ i, r.authorityToIndex w.authorityId = some i ∧
        signatures = (r.recorded e d).getD [] ++ [(i, w.signature)]) := by
  rw [recorded_insertSignature] at h
  split_ifs at h with hkey
  · split at h
    · rename_i i hix
      exact Or.inr ⟨hkey.1, hkey.2, i, hix, (Option.some.inj h).symm⟩
    · exact Or.inl h
  · exact Or.inl h

theorem note_of_mem (hso : r.hasVoted.Sorted) (h : w.authorityId ∈ r.hasVoted.on w.eventId) : r.note w = (r, false) :=
  if_pos ((Votes.has_iff hso).mpr h)

theorem note_of_notMem (hso : r.hasVoted.Sorted) (h : w.authorityId ∉ r.hasVoted.on w.eventId) :
    r.note w = ({ r with
      record := r.insertSignature w
      hasVoted := r.hasVoted.mark w.eventId w.authorityId }, true) :=
  if_neg fun hhas => h ((Votes.has_iff hso).mp hhas)

end

end WitnessRecord

/-! ### Runs on a record -/

structure History (Au Sig : Type) where
  record : WitnessRecord Au Sig
  noted : List (Witness Au Sig)

inductive Op (Au Sig : Type) where
  | setValidators (validators : List Au)
  | note (witness : Witness Au Sig)
  | noteEventMetadata (eventId : EventId) (bl : Hash) (tag : Option Bytes)
  | clear (eventId : EventId)

namespace History

variable {Au Sig : Type}

def start : History Au Sig := ⟨default, []⟩

section
variable [LinearOrder Au]

def step (h : History Au Sig) : Op Au Sig → History Au Sig
  | .setValidators validators => { h with record := h.record.setValidators validators }
  | .note witness =>
    match h.record.note witness with
    | (record, true) => ⟨record, h.noted ++ [witness]⟩
    | (record, false) => ⟨record, h.noted⟩
  | .noteEventMetadata eventId bl tag => { h with record := h.record.noteEventMetadata eventId bl tag }
  | .clear eventId => { h with record := h.record.clear eventId }

variable [Inhabited Sig]

/-- New validators leave the authorities at the recorded indices in place, and no witness has the empty signature. -/
def Steady (h : History Au Sig) : Op Au Sig → Prop
  | .setValidators validators =>
    ∀ e d signatures, h.record.recorded e d = some signatures →
      ∀ entry ∈ signatures, validators[entry.1]? = h.record.validators[entry.1]?
  | .note witness => witness.signature ≠ default
  | _ => True

/-- Where there is consensus each validator has one slot, with nothing or the signature noted from it, and the
signatures reach the threshold. -/
def ProofsRight [DecidableEq Sig] (h : History Au Sig) : Prop :=
  ∀ e d t, 1 ≤ t → h.record.hasConsensus e d t = true →
    ∃ signatures, h.record.signaturesFor e d = some signatures ∧
      signatures.length = h.record.validators.length ∧
      t ≤ signatures.countP (· ≠ default) ∧
      ∀ (i : Nat) signature, signatures[i]? = some signature → signature = default ∨
        ∃ w ∈ h.noted, w.eventId = e ∧ w.digest = d ∧ w.signature = signature ∧ h.record.validators[i]? = some w.authorityId

structure Placed (h : History Au Sig) : Prop where
  sorted : h.record.hasVoted.Sorted
  entries : ∀ {e d signatures i signature}, h.record.recorded e d = some signatures → (i, signature) ∈ signatures →
    signature ≠ default ∧ ∃ w ∈ h.noted, w.eventId = e ∧ w.digest = d ∧ w.signature = signature ∧
      h.record.validators[i]? = some w.authorityId ∧ w.authorityId ∈ h.record.hasVoted.on e
  distinct : ∀ {e d signatures}, h.record.recorded e d = some signatures → (signatures.map Prod.fst).Nodup

variable {h : History Au Sig}

theorem start_placed : (start : History Au Sig).Placed where
  sorted := Votes.sorted_empty
  entries hrec := nomatch hrec
  distinct hrec := nomatch hrec

theorem Placed.of_fewer (hp : h.Placed) {r : WitnessRecord Au Sig} (hvo : r.hasVoted = h.record.hasVoted)
    (hre : ∀ {e d sigs}, r.recorded e d = some sigs → h.record.recorded e d = some sigs)
    (hva : ∀ {e d sigs}, r.recorded e d = some sigs →
      ∀ entry ∈ sigs, r.validators[entry.1]? = h.record.validators[entry.1]?) :
    Placed ⟨r, h.noted⟩ where
  sorted := hvo ▸ hp.sorted
  entries {e d sigs i sig} hrec hmem := by
    obtain ⟨hne, w, hw, he, hd, hs, hi, hvt⟩ := hp.entries (hre hrec) hmem
    exact ⟨hne, w, hw, he, hd, hs, (hva hrec _ hmem).trans hi, hvo ▸ hvt⟩
  distinct hrec := hp.distinct (hre hrec)

theorem Placed.index_free (hp : h.Placed) {e : EventId} {d : Hash} {sigs : Signatures Sig} {a : Au}
    {i : Nat} (hnew : a ∉ h.record.hasVoted.on e) (hix : h.record.authorityToIndex a = some i)
    (hrec : h.record.recorded e d = some sigs) : i ∉ sigs.map Prod.fst := by
  intro hmem
  obtain ⟨⟨j, sig⟩, hey, rfl⟩ := mem_map.mp hmem
  obtain ⟨-, w, -, -, -, -, hw, hvo⟩ := hp.entries hrec hey
  rw [WitnessRecord.getElem?_of_authorityToIndex hix] at hw
  cases hw
  exact hnew hvo

theorem Placed.note (hp : h.Placed) {w : Witness Au Sig} (hsig : w.signature ≠ default)
    (hnew : w.authorityId ∉ h.record.hasVoted.on w.eventId) :
    Placed ⟨{ h.record with
      record := h.record.insertSignature w
      hasVoted := h.record.hasVoted.mark w.eventId w.authorityId }, h.noted ++ [w]⟩ := by
  have hma {b : Au} {e : EventId} : b ∈ (h.record.hasVoted.mark w.eventId w.authorityId).on e ↔
      b ∈ h.record.hasVoted.on e ∨ (e = w.eventId ∧ b = w.authorityId) := Votes.mem_on_mark hp.sorted hnew
  have hold {e : EventId} {d : Hash} {sigs : Signatures Sig} {i : Nat} {sig : Sig}
      (hrec : h.record.recorded e d = some sigs) (hmem : (i, sig) ∈ sigs) :
      sig ≠ default ∧ ∃ w' ∈ h.noted ++ [w], w'.eventId = e ∧ w'.digest = d ∧ w'.signature = sig ∧
        h.record.validators[i]? = some w'.authorityId ∧
        w'.authorityId ∈ (h.record.hasVoted.mark w.eventId w.authorityId).on e := by
    obtain ⟨hne, w', hw', he, hd, hs, hi, hvo⟩ := hp.entries hrec hmem
    exact ⟨hne, w', mem_append_left _ hw', he, hd, hs, hi, hma.mpr (Or.inl hvo)⟩
  refine ⟨Votes.sorted_mark hp.sorted hnew, fun {e d sigs i sig} hrec hmem => ?_, fun {e d sigs} hrec => ?_⟩
  · rcases WitnessRecord.recorded_insertSignature_cases hrec with hrec | ⟨rfl, rfl, j, hix, rfl⟩
    · exact hold hrec hmem
    · rcases mem_append.mp hmem with hmem | hmem
      · obtain ⟨old, hrec, hmem⟩ : ∃ old, h.record.recorded w.eventId w.digest = some old ∧ (i, sig) ∈ old := by
          cases hrec : h.record.recorded w.eventId w.digest with
          | none => rw [hrec] at hmem; cases hmem
          | some old => rw [hrec] at hmem; exact ⟨old, rfl, hmem⟩
        exact hold hrec hmem
      · cases mem_singleton.mp hmem
        exact ⟨hsig, w, mem_append_right _ (mem_singleton_self w), rfl, rfl, rfl,
          WitnessRecord.getElem?_of_authorityToIndex hix, hma.mpr (Or.inr ⟨rfl, rfl⟩)⟩
  · rcases WitnessRecord.recorded_insertSignature_cases hrec with hrec | ⟨rfl, rfl, j, hix, rfl⟩
    · exact hp.distinct hrec
    · cases hrec : h.record.recorded w.eventId w.digest with
      | none => exact nodup_singleton j
      | some old =>
        have hf := hp.index_free hnew hix hrec
        simp only [Option.getD_some, map_append, map_cons, map_nil]
        rw [nodup_append]
        exact ⟨hp.distinct hrec, nodup_singleton j, fun x hx y hy => by
          rintro rfl
          cases mem_singleton.mp hy
          exact hf hx⟩

theorem Placed.step (hp : h.Placed) {op : Op Au Sig} (hop : h.Steady op) : (h.step op).Placed := by
  cases op with
  | setValidators vs =>
    exact hp.of_fewer rfl (fun hrec => hrec) fun {e d sigs} hrec entry hmem => hop e d sigs hrec entry hmem
  | noteEventMetadata eventId bl tag =>
    obtain ⟨eventMeta, heq⟩ := WitnessRecord.noteEventMetadata_eq h.record eventId bl tag
    show Placed ⟨h.record.noteEventMetadata eventId bl tag, h.noted⟩
    rw [heq]
    exact hp.of_fewer rfl (fun hrec => hrec) fun _ _ _ => rfl
  | clear eventId =>
    refine hp.of_fewer rfl (fun {e d sigs} hrec => ?_) fun _ _ _ => rfl
    rw [WitnessRecord.recorded_clear] at hrec
    split at hrec
    · cases hrec
    · exact hrec
  | note w =>
    by_cases hvo : w.authorityId ∈ h.record.hasVoted.on w.eventId
    · simp only [History.step, WitnessRecord.note_of_mem hp.sorted hvo]
      exact hp
    · simp only [History.step, WitnessRecord.note_of_notMem hp.sorted hvo]
      exact hp.note hop hvo

theorem Placed.proofsRight [DecidableEq Sig] (hp : h.Placed) : h.ProofsRight := by
  intro e d t ht hco
  obtain ⟨entries, hrec, hle⟩ := (WitnessRecord.hasConsensus_iff ht).mp hco
  have hno := hp.distinct hrec
  have hra : ∀ entry ∈ entries, entry.1 < (List.replicate h.record.validators.length (default : Sig)).length := by
    rintro ⟨i, sig⟩ hmem
    obtain ⟨-, w, -, -, -, -, hi, -⟩ := hp.entries hrec hmem
    rw [length_replicate]
    exact (List.getElem?_eq_some_iff.mp hi).1
  have hsl : h.record.signaturesFor e d =
      some (Slots.write (List.replicate h.record.validators.length default) entries) := by
    rw [WitnessRecord.signaturesFor, hrec]
    exact Slots.foldlM_put hra
  have hbl : ∀ entry ∈ entries, (List.replicate h.record.validators.length default)[entry.1]? =
      some (default : Sig) := by
    intro entry hmem
    have hlt := hra entry hmem
    rw [length_replicate] at hlt
    rw [getElem?_replicate, if_pos hlt]
  have hcn := Slots.countP_write (p := fun x => decide (x ≠ default)) hno hbl (by simp)
    fun entry hmem => by simpa using (hp.entries hrec hmem).1
  refine ⟨_, hsl, by simp, by rw [hcn]; omega, fun i sig hi => ?_⟩
  rcases Slots.getElem?_write hno hi with hbl | hmem
  · left
    rw [getElem?_replicate] at hbl
    split at hbl
    · exact (Option.some.inj hbl).symm
    · cases hbl
  · right
    obtain ⟨-, w, hw, he, hd, hs, hv, -⟩ := hp.entries hrec hmem
    exact ⟨w, hw, he, hd, hs, hv⟩

/-- In a run in which new validators leave the recorded indices in place and no witness has the empty signature,
signatures are always put together rightly. -/
theorem run_proofsRight [DecidableEq Sig] {ops done : List (Op Au Sig)} (hrun : Each step Steady start ops)
    (hdone : done <+: ops) :
    (execute step start done : History Au Sig).ProofsRight :=
  (hrun.throughout (I := Placed) (fun _ _ hop hp => hp.step hop) start_placed hdone).proofsRight

theorem run_proofsRight_of_one_witness :
    (execute step start [.setValidators [1, 2], .note ⟨9, 7, 0, 2, 55⟩] : History Nat Nat).ProofsRight := by
  have hrun : Each (step : History Nat Nat → _) Steady start [.setValidators [1, 2], .note ⟨9, 7, 0, 2, 55⟩] :=
    ⟨(fun _ _ _ hrec => nomatch hrec), (by decide : (55 : Nat) ≠ default), trivial⟩
  exact run_proofsRight hrun (prefix_refl _)

/-- A signature of validator 1 stands in the slot of validator 2 after the two have changed places; and one of validator
2 has no slot after the list has become shorter. -/
theorem replaced_validators :
    (let h : History Nat Nat :=
      execute step start [.setValidators [1, 2], .note ⟨9, 7, 0, 1, 55⟩, .setValidators [2, 1]]
    h.record.hasConsensus 7 9 1 = true ∧ h.record.signaturesFor 7 9 = some [55, 0] ∧
      h.record.validators[0]? = some 2 ∧ h.noted = [⟨9, 7, 0, 1, 55⟩] ∧ ¬h.ProofsRight) ∧
    (let h : History Nat Nat :=
      execute step start [.setValidators [1, 2], .note ⟨9, 7, 0, 2, 55⟩, .setValidators [1]]
    h.record.hasConsensus 7 9 1 = true ∧ h.record.signaturesFor 7 9 = none ∧ ¬h.ProofsRight) := by
  refine ⟨⟨by decide +kernel, by decide +kernel, by decide +kernel, by decide +kernel, fun hright => ?_⟩,
    by decide +kernel, by decide +kernel, fun hright => ?_⟩
  · -- slot 0, now of authority 2, holds the signature of authority 1
    obtain ⟨signatures, hsig, -, -, hslots⟩ := hright 7 9 1 (Nat.le_refl 1) (by decide +kernel)
    cases hsig
    rcases hslots 0 55 rfl with h | ⟨w, hw, -, -, -, hi⟩
    · exact absurd h (by decide)
    · cases List.mem_singleton.mp hw
      exact absurd hi (by decide +kernel)
  · obtain ⟨signatures, hsig, -⟩ := hright 7 9 1 (Nat.le_refl 1) (by decide +kernel)
    cases hsig

end

end History

end EthyGadget
