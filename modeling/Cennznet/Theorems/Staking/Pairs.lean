import Cennznet.Lib.Inverse
import Cennznet.Staking.Ledger

/-! # Pairs of a stash and a controller -/

namespace Staking

open StorageMap

variable {A : Type} [DecidableEq A]

def Bonds.Paired (b : Bonds A) : Prop :=
  ∀ stash ctl, b.bonded.get? stash = some ctl ↔ ∃ l, b.ledger.get? ctl = some l ∧ l.stash = stash

namespace Bonds

def stashOf (b : Bonds A) (ctl : A) : Option A := (b.ledger.get? ctl).map (·.stash)

theorem paired_iff_inverse {b : Bonds A} : b.Paired ↔ Lookup.Inverse b.bonded.get? b.stashOf := by
  unfold Paired Lookup.Inverse stashOf
  simp only [Option.map_eq_some_iff]

namespace Paired
variable {b : Bonds A} {stash ctl ctl' : A} {l l' : StakingLedger A}

theorem bonded (P : b.Paired) (hl : b.ledger.get? ctl = some l) : b.bonded.get? l.stash = some ctl :=
  (P _ _).mpr ⟨l, hl, rfl⟩

theorem stash_inj (P : b.Paired) (hl : b.ledger.get? ctl = some l) (hl' : b.ledger.get? ctl' = some l')
    (hst : l.stash = l'.stash) : ctl = ctl' := by
  have hbo := P.bonded hl
  rw [hst, P.bonded hl'] at hbo
  exact (Option.some.inj hbo).symm

theorem pair {bonded : StorageMap A A} {ledger : StorageMap A (StakingLedger A)}
    (P : Paired ⟨bonded, ledger⟩) (hst : bonded.get? l.stash = none) (hco : ledger.get? ctl = none) :
    Paired ⟨bonded.insert l.stash ctl, ledger.insert ctl l⟩ := by
  refine paired_iff_inverse.mpr ((paired_iff_inverse.mp P).insert hst (Option.map_eq_none_iff.mpr hco) ?_ ?_)
  · exact fun stash' => get?_insert
  · intro ctl'
    unfold stashOf
    rw [get?_insert, apply_ite (Option.map _), Option.map_some]

theorem update (P : b.Paired) (hl : b.ledger.get? ctl = some l) (hst : l'.stash = l.stash) :
    Paired ⟨b.bonded, b.ledger.insert ctl l'⟩ := by
  have hs : stashOf ⟨b.bonded, b.ledger.insert ctl l'⟩ = b.stashOf := by
    funext ctl'
    unfold stashOf
    rw [get?_insert]
    split_ifs with hc
    · rw [hc, hl, Option.map_some, Option.map_some, hst]
    · rfl
  rw [paired_iff_inverse, hs]
  exact paired_iff_inverse.mp P

theorem unpair (P : b.Paired) (hl : b.ledger.get? ctl = some l) :
    Paired ⟨b.bonded.remove l.stash, b.ledger.remove ctl⟩ := by
  refine paired_iff_inverse.mpr ((paired_iff_inverse.mp P).remove (P.bonded hl) ?_ ?_)
  · exact fun stash' => get?_remove
  · intro ctl'
    unfold stashOf
    rw [get?_remove, apply_ite (Option.map _), Option.map_none]

theorem move (P : b.Paired) (hl : b.ledger.get? ctl = some l) (hf : b.ledger.get? ctl' = none) :
    Paired ⟨b.bonded.insert l.stash ctl', (b.ledger.remove ctl).insert ctl' l⟩ := by
  have hst : (b.bonded.remove l.stash).get? l.stash = none := by rw [get?_remove, if_pos rfl]
  have hco : (b.ledger.remove ctl).get? ctl' = none := by
    rw [get?_remove, hf, ite_self]
  have hpa := (P.unpair hl).pair hst hco
  intro stash' owner
  rw [← hpa stash' owner]
  simp only [get?_insert, get?_remove]
  split <;> rfl

end Paired

end Bonds

end Staking
