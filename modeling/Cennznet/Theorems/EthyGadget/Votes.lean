import Cennznet.EthyGadget

/-! # The lists of voters -/

namespace EthyGadget.Votes

open List

variable {Au : Type}

def on (votes : Votes Au) (eventId : EventId) : List Au := votes.getD eventId []

variable {votes : Votes Au} {e e' : EventId} {a b : Au}

theorem on_of_get? {v : List Au} (h : votes.get? e = some v) : votes.on e = v := StorageMap.getD_of_get? h

theorem on_insert {v : List Au} : on (votes.insert e v) e' = if e' = e then v else votes.on e' :=
  StorageMap.getD_insert

theorem on_remove : on (votes.remove e) e' = if e' = e then [] else votes.on e' := StorageMap.getD_remove

section
variable [LinearOrder Au]

def Sorted (votes : Votes Au) : Prop := ∀ e, (votes.on e).Pairwise (· < ·)

theorem sorted_empty : Sorted (∅ : Votes Au) := fun _ => List.Pairwise.nil

theorem has_iff (hso : votes.Sorted) : votes.has e a = true ↔ a ∈ votes.on e := by
  have he := hso e
  cases hv : votes.get? e with
  | none => simp [has, on, StorageMap.getD, hv]
  | some v =>
    rw [on_of_get? hv] at he ⊢
    cases hse : Search.binarySearch v a with
    | ok i =>
      have hi := Search.getElem?_of_search he hse
      simp [has, hv, hse, Except.isOk, Except.toBool, mem_of_getElem? hi]
    | error i =>
      have hnot := (Search.window_of_search he hse).not_mem
      simp [has, hv, hse, Except.isOk, Except.toBool, hnot]

theorem on_mark (hso : votes.Sorted) (hnew : a ∉ votes.on e) : ∃ i, Search.Window (votes.on e) a i i ∧
      ∀ e', (votes.mark e a).on e' = if e' = e then (votes.on e).insertIdx i a else votes.on e' := by
  have he := hso e
  cases hv : votes.get? e with
  | none =>
    have hnil : votes.on e = [] := by rw [on, StorageMap.getD, hv]; rfl
    rw [hnil]
    refine ⟨0, ⟨Nat.le_refl _, Nat.le_refl _, (fun h => nomatch h), (fun h => nomatch h)⟩, fun e' => ?_⟩
    simp only [mark, hv]
    exact on_insert
  | some v =>
    rw [on_of_get? hv] at he hnew ⊢
    cases hse : Search.binarySearch v a with
    | ok i => exact absurd (mem_of_getElem? (Search.getElem?_of_search he hse)) hnew
    | error i =>
      refine ⟨i, Search.window_of_search he hse, fun e' => ?_⟩
      simp only [mark, hv, hse]
      exact on_insert

theorem sorted_mark (hso : votes.Sorted) (hnew : a ∉ votes.on e) : (votes.mark e a).Sorted := by
  obtain ⟨i, hwi, hon⟩ := on_mark hso hnew
  intro e'
  rw [hon]
  split
  · exact hwi.sorted_insertIdx (hso e)
  · exact hso e'

theorem mem_on_mark (hso : votes.Sorted) (hnew : a ∉ votes.on e) :
    b ∈ (votes.mark e a).on e' ↔ b ∈ votes.on e' ∨ (e' = e ∧ b = a) := by
  obtain ⟨i, hwi, hon⟩ := on_mark hso hnew
  rw [hon]
  split_ifs with heq
  · rw [mem_insertIdx hwi.fits, heq]
    simp [or_comm]
  · simp [heq]

end

end EthyGadget.Votes
