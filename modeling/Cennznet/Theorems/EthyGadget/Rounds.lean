import Cennznet.Theorems.EthyGadget.Record

/-! # The proofs of an event

A proof clears the record of its event but not the list of who has voted. -/

namespace EthyGadget.Worker

open List

variable {Au Sig : Type}

def quorum (validators : Nat) : Nat := max (threshold validators) 1

theorem quorum_pos (n : Nat) : 0 < quorum n := Nat.lt_of_lt_of_le Nat.zero_lt_one (Nat.le_max_right _ _)

theorem lt_two_mul_quorum_iff {n : Nat} : n < 2 * quorum n ↔ n ∉ [2, 3, 4, 6, 8] := by
  simp only [quorum, threshold, mem_cons, not_mem_nil, or_false, not_or]
  omega

structure Round (validators : List Au) (e : EventId) (d : Hash) (ws : List (Witness Au Sig)) :
    Prop where
  event : ∀ w ∈ ws, w.eventId = e
  digest : ∀ w ∈ ws, w.digest = d
  distinct : (ws.map Witness.authorityId).Nodup
  validator : ∀ w ∈ ws, w.authorityId ∈ validators

theorem Round.of_append {validators : List Au} {e : EventId} {d : Hash} {before after : List (Witness Au Sig)}
    (h : Round validators e d (before ++ after)) : Round validators e d before where
  event w hw := h.event w (mem_append_left after hw)
  digest w hw := h.digest w (mem_append_left after hw)
  distinct := h.distinct.sublist ((sublist_append_left before after).map _)
  validator w hw := h.validator w (mem_append_left after hw)

/-- The proof holds the signatures of a quorum of the witnesses, each in the slot of its validator. -/
def Supported (validators : List Au) (ws : List (Witness Au Sig)) (p : EventProof Sig) : Prop :=
  ∃ signers : List (Witness Au Sig), signers.Sublist ws ∧ quorum validators.length ≤ signers.length ∧
    ∀ w ∈ signers, ∃ i : Nat, validators[i]? = some w.authorityId ∧ p.signatures[i]? = some w.signature

theorem Supported.append {validators : List Au} {ws : List (Witness Au Sig)} {p : EventProof Sig}
    (h : Supported validators ws p) (more : List (Witness Au Sig)) :
    Supported validators (ws ++ more) p := by
  obtain ⟨signers, hsub, hqu, hsl⟩ := h
  exact ⟨signers, hsub.trans (sublist_append_left ws more), hqu, hsl⟩

section
variable [LinearOrder Au]

structure Fresh (s : Worker Au Sig) (e : EventId) : Prop where
  validators : s.witnessRecord.validators = s.validatorSet.validators
  sorted : s.witnessRecord.hasVoted.Sorted
  unrecorded : s.witnessRecord.record.get? e = none
  unvoted : s.witnessRecord.hasVoted.on e = []

def slotOf (validators : List Au) (a : Au) : Nat := (validators.findIdx? (· = a)).getD 0

def entryOf (validators : List Au) (w : Witness Au Sig) : Nat × Sig :=
  (slotOf validators w.authorityId, w.signature)

variable {validators : List Au} {a : Au}

theorem findIdx?_of_mem (h : a ∈ validators) : validators.findIdx? (· = a) = some (slotOf validators a) := by
  have hso : (validators.findIdx? (· = a)).isSome := by
    rw [findIdx?_isSome, any_eq_true]
    exact ⟨a, h, decide_eq_true rfl⟩
  obtain ⟨i, hi⟩ := Option.isSome_iff_exists.mp hso
  rw [slotOf, hi]
  rfl

theorem getElem?_slotOf (h : a ∈ validators) : validators[slotOf validators a]? = some a := by
  obtain ⟨hlt, ha, -⟩ := findIdx?_eq_some_iff_getElem.mp (findIdx?_of_mem h)
  rw [getElem?_eq_getElem hlt]
  exact congrArg some (of_decide_eq_true ha)

theorem nodup_slots {ws : List (Witness Au Sig)} (hdi : (ws.map Witness.authorityId).Nodup)
    (hva : ∀ w ∈ ws, w.authorityId ∈ validators) : ((ws.map (entryOf validators)).map Prod.fst).Nodup := by
  rw [map_map]
  refine List.Nodup.of_map (fun i => validators[i]?) ?_
  have hsl : (ws.map (Prod.fst ∘ entryOf validators)).map (fun i => validators[i]?) =
      (ws.map Witness.authorityId).map some := by
    rw [map_map, map_map]
    exact map_congr_left fun w hw => getElem?_slotOf (hva w hw)
  rw [hsl]
  exact hdi.map (Option.some_injective Au)

section
variable {s₀ s : Worker Au Sig} {e : EventId} {d : Hash}
  {done ws pnd : List (Witness Au Sig)} {proofs : List (EventProof Sig)}
  {w : Witness Au Sig}

/-- After the witnesses `done` the worker has made `proofs`, and the witnesses `pnd` wait for the next one. -/
structure Progress (s₀ s : Worker Au Sig) (e : EventId) (d : Hash) (done pnd : List (Witness Au Sig))
    (proofs : List (EventProof Sig)) : Prop where
  set : s.validatorSet = s₀.validatorSet
  validators : s.witnessRecord.validators = s₀.validatorSet.validators
  sorted : s.witnessRecord.hasVoted.Sorted
  voted : ∀ a ∈ s.witnessRecord.hasVoted.on e, a ∈ done.map Witness.authorityId
  recorded : (s.witnessRecord.recorded e d).getD [] = pnd.map (entryOf s₀.validatorSet.validators)
  suffix : pnd <:+ done
  below : pnd.length < quorum s₀.validatorSet.validators.length
  count : done.length = quorum s₀.validatorSet.validators.length * proofs.length + pnd.length
  notified : s.notified = s₀.notified ++ proofs
  stored : s.backend.get? e = proofs.getLast?.or (s₀.backend.get? e)
  supported : ∀ p ∈ proofs, p.eventId = e ∧ p.digest = d ∧ Supported s₀.validatorSet.validators done p

theorem Fresh.progress (h : Fresh s e) : Progress s s e d [] [] [] where
  set := rfl
  validators := h.validators
  sorted := h.sorted
  voted a ha := by
    rw [h.unvoted] at ha
    cases ha
  recorded := by
    rw [WitnessRecord.recorded, h.unrecorded]
    rfl
  suffix := suffix_refl []
  below := quorum_pos _
  count := rfl
  notified := (append_nil _).symm
  stored := rfl
  supported p hp := nomatch hp

def noting (s : Worker Au Sig) (w : Witness Au Sig) : WitnessRecord Au Sig :=
  { s.witnessRecord with
    record := s.witnessRecord.insertSignature w
    hasVoted := s.witnessRecord.hasVoted.mark w.eventId w.authorityId }

def waiting (s : Worker Au Sig) (w : Witness Au Sig) : Worker Au Sig :=
  { s with witnessRecord := noting s w, gossiped := s.gossiped ++ [w] }

def proofOf (s : Worker Au Sig) (w : Witness Au Sig) (signatures : List Sig) :
    EventProof Sig where
  digest := w.digest
  eventId := w.eventId
  validatorSetId := s.validatorSet.id
  signatures := signatures
  block := ((s.witnessRecord.eventMetadata w.eventId).getD (0, none)).1
  tag := ((s.witnessRecord.eventMetadata w.eventId).getD (0, none)).2

def concluded (s : Worker Au Sig) (w : Witness Au Sig) (signatures : List Sig) :
    Worker Au Sig :=
  { waiting s w with
    backend := s.backend.insert w.eventId (proofOf s w signatures)
    notified := s.notified ++ [proofOf s w signatures]
    witnessRecord := (noting s w).clear w.eventId
    gossipValidator := s.gossipValidator.markComplete w.eventId }

theorem handleWitness_of_notMem [Inhabited Sig] (hso : s.witnessRecord.hasVoted.Sorted)
    (hnew : w.authorityId ∉ s.witnessRecord.hasVoted.on w.eventId) :
    handleWitness s w =
      if (noting s w).hasConsensus w.eventId w.digest (threshold s.validatorSet.validators.length) then
        ((noting s w).signaturesFor w.eventId w.digest).map (concluded s w)
      else some (waiting s w) := by
  simp only [handleWitness, WitnessRecord.note_of_notMem hso hnew]
  refine (if_neg Bool.noConfusion).trans (if_congr Iff.rfl ?_ rfl)
  show ((noting s w).signaturesFor w.eventId w.digest).bind _ = _
  cases (noting s w).signaturesFor w.eventId w.digest with
  | none => rfl
  | some sigs => rfl

theorem supported_write [Inhabited Sig] {signers : List (Witness Au Sig)} {p : EventProof Sig}
    (hro : Round validators e d ws) (hsub : signers.Sublist ws) (hqu : quorum validators.length ≤ signers.length)
    (hp : p.signatures = Slots.write (List.replicate validators.length default) (signers.map (entryOf validators))) :
    Supported validators ws p := by
  have hva : ∀ w ∈ signers, w.authorityId ∈ validators := fun w hw => hro.validator w (hsub.subset hw)
  have hdi : (signers.map Witness.authorityId).Nodup := hro.distinct.sublist (hsub.map _)
  refine ⟨signers, hsub, hqu, fun w hw => ⟨slotOf validators w.authorityId, getElem?_slotOf (hva w hw), ?_⟩⟩
  have hlt := (List.getElem?_eq_some_iff.mp (getElem?_slotOf (hva w hw))).1
  have hey : entryOf validators w ∈ signers.map (entryOf validators) := mem_map_of_mem hw
  have hra : (entryOf validators w).1 < (List.replicate validators.length (default : Sig)).length := by
    rwa [length_replicate]
  rw [hp]
  exact Slots.getElem?_write_of_mem (nodup_slots hdi hva) hey hra

section
variable (h : Progress s₀ s e d done pnd proofs)
include h

theorem Progress.consensus_iff {n : Nat} (hn : n = pnd.length + 1) : threshold s₀.validatorSet.validators.length ≤ n ↔
      pnd.length + 1 = quorum s₀.validatorSet.validators.length := by
  have hbe := h.below
  unfold quorum at hbe ⊢
  omega

theorem Progress.suffix_append : pnd ++ [w] <:+ done ++ [w] := by
  obtain ⟨before, hbe⟩ := h.suffix
  exact ⟨before, by rw [← append_assoc, hbe]⟩

theorem Progress.supported_append :
    ∀ p ∈ proofs, p.eventId = e ∧ p.digest = d ∧ Supported s₀.validatorSet.validators (done ++ [w]) p := by
  intro p hp
  obtain ⟨hev, hdi, hsu⟩ := h.supported p hp
  exact ⟨hev, hdi, hsu.append [w]⟩

variable (hro : Round s₀.validatorSet.validators e d (done ++ [w]))
include hro

theorem Progress.new : w.authorityId ∉ s.witnessRecord.hasVoted.on w.eventId := by
  have hev : w.eventId = e := hro.event w (mem_append_right _ (mem_singleton_self w))
  have hdi := hro.distinct
  rw [map_append, nodup_append] at hdi
  intro hvo
  rw [hev] at hvo
  exact hdi.2.2 _ (h.voted _ hvo) _ (mem_singleton_self _) rfl

theorem Progress.recorded_noting :
    (noting s w).recorded w.eventId w.digest = some ((pnd ++ [w]).map (entryOf s₀.validatorSet.validators)) := by
  have hmem : w ∈ done ++ [w] := mem_append_right _ (mem_singleton_self w)
  have hix : s.witnessRecord.authorityToIndex w.authorityId = some (slotOf s₀.validatorSet.validators w.authorityId) := by
    rw [WitnessRecord.authorityToIndex, h.validators]
    exact findIdx?_of_mem (hro.validator w hmem)
  have hrec := WitnessRecord.recorded_insertSignature (r := s.witnessRecord) (w := w) (e := w.eventId) (d := w.digest)
  rw [if_pos ⟨rfl, rfl⟩, hix, hro.event w hmem, hro.digest w hmem] at hrec
  rw [hro.event w hmem, hro.digest w hmem, map_append, ← h.recorded]
  exact hrec

end

section
variable (h : Progress s₀ s w.eventId w.digest done pnd proofs)
  (hro : Round s₀.validatorSet.validators w.eventId w.digest (done ++ [w]))
include h hro

theorem Progress.voted_noting :
    ∀ a ∈ (noting s w).hasVoted.on w.eventId, a ∈ (done ++ [w]).map Witness.authorityId := by
  intro a ha
  rw [map_append, mem_append]
  rcases (Votes.mem_on_mark h.sorted (h.new hro)).mp ha with ha | ⟨-, rfl⟩
  · exact Or.inl (h.voted a ha)
  · exact Or.inr (mem_singleton_self _)

theorem Progress.wait (hqu : pnd.length + 1 ≠ quorum s₀.validatorSet.validators.length) :
    Progress s₀ (waiting s w) w.eventId w.digest (done ++ [w]) (pnd ++ [w]) proofs where
  set := h.set
  validators := h.validators
  sorted := Votes.sorted_mark h.sorted (h.new hro)
  voted := h.voted_noting hro
  recorded := by
    rw [show (waiting s w).witnessRecord.recorded w.eventId w.digest = some _ from h.recorded_noting hro]
    rfl
  suffix := h.suffix_append
  below := by
    have hbe := h.below
    rw [length_append, length_singleton]
    omega
  count := by
    rw [length_append, length_append, h.count, Nat.add_assoc]
  notified := h.notified
  stored := h.stored
  supported := h.supported_append

theorem Progress.conclude (hqu : pnd.length + 1 = quorum s₀.validatorSet.validators.length) {sigs : List Sig}
    (hpr : Supported s₀.validatorSet.validators (done ++ [w]) (proofOf s w sigs)) :
    Progress s₀ (concluded s w sigs) w.eventId w.digest (done ++ [w]) [] (proofs ++ [proofOf s w sigs]) where
  set := h.set
  validators := h.validators
  sorted := Votes.sorted_mark h.sorted (h.new hro)
  voted := h.voted_noting hro
  recorded := by
    rw [show (concluded s w sigs).witnessRecord = (noting s w).clear w.eventId from rfl,
      WitnessRecord.recorded_clear, if_pos rfl]
    rfl
  suffix := nil_suffix
  below := quorum_pos _
  count := by
    rw [length_append, length_append, h.count, length_singleton, length_singleton, Nat.mul_add, length_nil]
    omega
  notified := (congrArg (· ++ _) h.notified).trans (append_assoc _ _ _)
  stored := by
    rw [getLast?_concat]
    exact StorageMap.get?_insert_self
  supported p hp := by
    rcases mem_append.mp hp with hp | hp
    · exact h.supported_append p hp
    · cases mem_singleton.mp hp
      exact ⟨rfl, rfl, hpr⟩

theorem Progress.signaturesFor_noting [Inhabited Sig] :
    (noting s w).signaturesFor w.eventId w.digest =
      some (Slots.write (List.replicate s₀.validatorSet.validators.length default)
        ((pnd ++ [w]).map (entryOf s₀.validatorSet.validators))) := by
  rw [WitnessRecord.signaturesFor, h.recorded_noting hro,
    show (noting s w).validators = s₀.validatorSet.validators from h.validators]
  refine Slots.foldlM_put fun entry hey => ?_
  obtain ⟨w', hw', rfl⟩ := mem_map.mp hey
  rw [length_replicate]
  exact (List.getElem?_eq_some_iff.mp (getElem?_slotOf (hro.validator w' (h.suffix_append.subset hw')))).1

end

theorem Progress.step [Inhabited Sig] (h : Progress s₀ s e d done pnd proofs)
    (hro : Round s₀.validatorSet.validators e d (done ++ [w])) :
    ∃ s' pnd' proofs', handleWitness s w = some s' ∧ Progress s₀ s' e d (done ++ [w]) pnd' proofs' := by
  have hmem : w ∈ done ++ [w] := mem_append_right _ (mem_singleton_self w)
  obtain rfl : w.eventId = e := hro.event w hmem
  obtain rfl : w.digest = d := hro.digest w hmem
  have hco : (noting s w).hasConsensus w.eventId w.digest (threshold s.validatorSet.validators.length) = true ↔
      pnd.length + 1 = quorum s₀.validatorSet.validators.length := by
    rw [← h.consensus_iff rfl]
    simp [WitnessRecord.hasConsensus, h.recorded_noting hro, h.set]
  have hha := handleWitness_of_notMem h.sorted (h.new hro)
  by_cases hqu : pnd.length + 1 = quorum s₀.validatorSet.validators.length
  · rw [if_pos (hco.mpr hqu), h.signaturesFor_noting hro, Option.map_some] at hha
    have hsi : quorum s₀.validatorSet.validators.length ≤ (pnd ++ [w]).length := by
      rw [length_append, ← hqu]
      exact Nat.le_refl _
    exact ⟨_, [], _, hha, h.conclude hro hqu (supported_write hro h.suffix_append.sublist hsi rfl)⟩
  · rw [if_neg (mt hco.mp hqu)] at hha
    exact ⟨_, pnd ++ [w], proofs, hha, h.wait hro hqu⟩

theorem Progress.run [Inhabited Sig] (h : Progress s₀ s e d done pnd proofs)
    (hro : Round s₀.validatorSet.validators e d (done ++ ws)) :
    ∃ s' pnd' proofs', ws.foldlM handleWitness s = some s' ∧ Progress s₀ s' e d (done ++ ws) pnd' proofs' := by
  induction ws generalizing s done pnd proofs with
  | nil => exact ⟨s, pnd, proofs, rfl, by rwa [append_nil]⟩
  | cons w ws ih =>
    rw [append_cons] at hro ⊢
    obtain ⟨s₁, pnd₁, proofs₁, hs, h₁⟩ := h.step hro.of_append
    obtain ⟨s', pnd', proofs', hrun, h'⟩ := ih h₁ hro
    refine ⟨s', pnd', proofs', ?_, h'⟩
    rw [foldlM_cons, hs]
    exact hrun

theorem round_div [Inhabited Sig] (hfr : Fresh s e) (hro : Round s.validatorSet.validators e d ws) :
    ∃ s' proofs, ws.foldlM handleWitness s = some s' ∧ s'.notified = s.notified ++ proofs ∧
      s'.backend.get? e = proofs.getLast?.or (s.backend.get? e) ∧
      (∀ p ∈ proofs, p.eventId = e ∧ p.digest = d ∧ Supported s.validatorSet.validators ws p) ∧
      proofs.length = ws.length / quorum s.validatorSet.validators.length := by
  obtain ⟨s', pnd, proofs, hrun, h⟩ := hfr.progress.run (d := d) hro
  refine ⟨s', proofs, hrun, h.notified, h.stored, h.supported, ?_⟩
  have hco := h.count
  rw [nil_append] at hco
  rw [hco, Nat.mul_add_div (Nat.zero_lt_of_lt h.below), Nat.div_eq_of_lt h.below, Nat.add_zero]

/-- At most one proof is made of a round exactly if its witnesses are fewer than two quorums. -/
theorem round_one_proof_iff [Inhabited Sig] (hfresh : Fresh s e) (hround : Round s.validatorSet.validators e d ws) :
    ∃ s' proofs, ws.foldlM handleWitness s = some s' ∧ s'.notified = s.notified ++ proofs ∧
      s'.backend.get? e = proofs.getLast?.or (s.backend.get? e) ∧
      (∀ p ∈ proofs, p.eventId = e ∧ p.digest = d ∧ Supported s.validatorSet.validators ws p) ∧
      (proofs.length ≤ 1 ↔ ws.length < 2 * quorum s.validatorSet.validators.length) := by
  obtain ⟨s', proofs, hrun, hno, hst, hsu, hlen⟩ := round_div hfresh hround
  refine ⟨s', proofs, hrun, hno, hst, hsu, ?_⟩
  rw [hlen, ← Nat.lt_succ_iff]
  exact Nat.div_lt_iff_lt_mul (quorum_pos _)

/-- With any number of validators but two, three, four, six and eight there is at most one proof. -/
theorem round_one_proof_of_size [Inhabited Sig] (hfr : Fresh s e) (hro : Round s.validatorSet.validators e d ws)
    (hsi : s.validatorSet.validators.length ∉ [2, 3, 4, 6, 8]) :
    ∃ s' proofs, ws.foldlM handleWitness s = some s' ∧ s'.notified = s.notified ++ proofs ∧ proofs.length ≤ 1 := by
  have hsub : ws.map Witness.authorityId ⊆ s.validatorSet.validators := by
    intro a ha
    obtain ⟨w, hw, rfl⟩ := mem_map.mp ha
    exact hro.validator w hw
  have hle := (subperm_of_subset hro.distinct hsub).length_le
  rw [length_map] at hle
  obtain ⟨s', proofs, hrun, hno, -, -, hlen⟩ := round_div hfr hro
  refine ⟨s', proofs, hrun, hno, ?_⟩
  rw [hlen, ← Nat.lt_succ_iff, Nat.div_lt_iff_lt_mul (quorum_pos _)]
  exact Nat.lt_of_le_of_lt hle (lt_two_mul_quorum_iff.mpr hsi)

/-! ### Every worker -/

structure Coherent (s : Worker Au Sig) : Prop where
  record : s.witnessRecord.validators = s.validatorSet.validators
  gossip : s.gossipValidator.activeValidators = s.validatorSet.validators
  sorted : s.witnessRecord.hasVoted.Sorted

/-- That a block is final, or the witness of another worker. -/
inductive Input (Au Sig : Type) where
  | finality (header : Header Au)
  | witness (w : Witness Au Sig)

def receive [Inhabited Sig] (cfg : Config Au Sig) (s : Worker Au Sig) (input : Input Au Sig) :
    Worker Au Sig :=
  match input with
  | .finality header => (handleFinalityNotification cfg s header).getD s
  | .witness w => (handleWitness s w).getD s

variable {cfg : Config Au Sig} {s' : Worker Au Sig}

theorem handleWitness_coherent [Inhabited Sig] (h : s.Coherent) (hs : handleWitness s w = some s') : s'.Coherent := by
  by_cases hvo : w.authorityId ∈ s.witnessRecord.hasVoted.on w.eventId
  · simp only [handleWitness, WitnessRecord.note_of_mem h.sorted hvo] at hs
    cases hs
    exact h
  have hso : (noting s w).hasVoted.Sorted := Votes.sorted_mark h.sorted hvo
  rw [handleWitness_of_notMem h.sorted hvo] at hs
  split at hs
  · obtain ⟨sigs, -, rfl⟩ := Option.map_eq_some_iff.mp hs
    exact ⟨h.record, h.gossip, hso⟩
  · cases hs
    exact ⟨h.record, h.gossip, hso⟩

theorem updateValidatorSet_coherent (cfg : Config Au Sig) (h : s.Coherent) (header : Header Au) :
    (updateValidatorSet cfg s header).Coherent := by
  unfold updateValidatorSet
  split
  · split
    · exact ⟨rfl, rfl, h.sorted⟩
    · exact h
  · exact h

theorem noteEventMetadata_coherent (h : s.Coherent) (e : EventId) (block : Hash) (tag : Option Bytes) :
    Coherent { s with witnessRecord := s.witnessRecord.noteEventMetadata e block tag } := by
  obtain ⟨eventMeta, heq⟩ := WitnessRecord.noteEventMetadata_eq s.witnessRecord e block tag
  rw [heq]
  exact ⟨h.record, h.gossip, h.sorted⟩

theorem noteRequest_coherent (h : s.Coherent) (rq : ProofRequest) : (noteRequest s rq).Coherent := by
  unfold noteRequest
  split
  · exact ⟨h.record, h.gossip, h.sorted⟩
  · exact noteEventMetadata_coherent h _ _ _

theorem witnessRequests_coherent [Inhabited Sig] {a : Au} {requests : List ProofRequest} {signed : Bool} (h : s.Coherent)
    (hs : witnessRequests cfg a s requests = some (s', signed)) : s'.Coherent := by
  induction requests generalizing s with
  | nil =>
    cases hs
    exact h
  | cons rq requests ih =>
    simp only [witnessRequests] at hs
    split at hs
    · cases hs
      exact h
    · obtain ⟨t, ht, hs⟩ := Option.bind_eq_some_iff.mp hs
      have hco := handleWitness_coherent (noteEventMetadata_coherent h _ _ _) ht
      refine ih (s := { t with gossiped := _ }) ?_ hs
      exact ⟨hco.record, hco.gossip, hco.sorted⟩

theorem handleFinalityNotification_coherent [Inhabited Sig] {header : Header Au} (h : s.Coherent)
    (hs : handleFinalityNotification cfg s header = some s') : s'.Coherent := by
  have hup := updateValidatorSet_coherent cfg h header
  simp only [handleFinalityNotification] at hs
  split at hs
  · cases hs
    exact List.foldlRecOn _ _ hup fun t ht rq _ => noteRequest_coherent ht rq
  · obtain ⟨⟨t, signed⟩, ht, hs⟩ := Option.bind_eq_some_iff.mp hs
    have hco := witnessRequests_coherent hup ht
    cases signed with
    | true => cases hs; exact ⟨hco.record, hco.gossip, hco.sorted⟩
    | false => cases hs; exact hco

/-- Record, gossip and votes agree on the validators in every run of a worker. -/
theorem run_coherent [Inhabited Sig] (block : BitVec 32) (inputs : List (Input Au Sig)) :
    (Steps.execute (receive cfg) (new block) inputs).Coherent := by
  refine Steps.execute_invariant (I := Coherent) (fun input _ s h => ?_) ⟨rfl, rfl, Votes.sorted_empty⟩
  cases input with
  | finality header =>
    cases hs : handleFinalityNotification cfg s header with
    | none => simpa only [receive, hs, Option.getD_none] using h
    | some s' => simpa only [receive, hs, Option.getD_some] using handleFinalityNotification_coherent h hs
  | witness w =>
    cases hs : handleWitness s w with
    | none => simpa only [receive, hs, Option.getD_none] using h
    | some s' => simpa only [receive, hs, Option.getD_some] using handleWitness_coherent h hs

/-! ### Small sets of validators -/

def sampleWorker (validators : List Nat) : Worker Nat Nat :=
  { new 0 with witnessRecord := (default : WitnessRecord Nat Nat).setValidators validators, validatorSet := ⟨validators, 1⟩ }

theorem sampleWorker_fresh (validators : List Nat) (e : EventId) : Fresh (sampleWorker validators) e where
  validators := rfl
  sorted := Votes.sorted_empty
  unrecorded := rfl
  unvoted := rfl

theorem round_one_proof_of_three :
    ∃ s' proofs, [(⟨9, 7, 1, 1, 55⟩ : Witness Nat Nat), ⟨9, 7, 1, 4, 66⟩, ⟨9, 7, 1, 3, 77⟩].foldlM handleWitness
      (sampleWorker [1, 2, 3, 4, 5]) = some s' ∧ s'.notified = [] ++ proofs ∧ proofs.length ≤ 1 := by
  have hro : Round [1, 2, 3, 4, 5] 7 9 [(⟨9, 7, 1, 1, 55⟩ : Witness Nat Nat), ⟨9, 7, 1, 4, 66⟩, ⟨9, 7, 1, 3, 77⟩] :=
    ⟨by decide, by decide, by decide, by decide⟩
  obtain ⟨s', proofs, hrun, hno, -, -, hone⟩ := round_one_proof_iff (sampleWorker_fresh [1, 2, 3, 4, 5] 7) hro
  exact ⟨s', proofs, hrun, hno, hone.mpr (by decide)⟩

theorem one_proof_of_five_validators :
    ∃ s' proofs, [(⟨9, 7, 1, 1, 55⟩ : Witness Nat Nat), ⟨9, 7, 1, 4, 66⟩].foldlM handleWitness
      (sampleWorker [1, 2, 3, 4, 5]) = some s' ∧ s'.notified = [] ++ proofs ∧ proofs.length ≤ 1 :=
  round_one_proof_of_size (d := 9) (sampleWorker_fresh _ 7) ⟨by decide, by decide, by decide, by decide⟩ (by decide)

theorem two_validators_two_proofs : Round [1, 2] 7 9 [(⟨9, 7, 1, 1, 55⟩ : Witness Nat Nat), ⟨9, 7, 1, 2, 66⟩] ∧
    ([(⟨9, 7, 1, 1, 55⟩ : Witness Nat Nat), ⟨9, 7, 1, 2, 66⟩].foldlM handleWitness (sampleWorker [1, 2])).map
      (fun s => s.notified.map fun p => (p.eventId, p.signatures)) = some [(7, [55, 0]), (7, [0, 66])] :=
  ⟨⟨by decide, by decide, by decide, by decide⟩, by decide +kernel⟩

end

end

end EthyGadget.Worker
