import Mathlib.Data.Nat.Init
import Mathlib.Tactic.Ring

/-! # Constant-product exchanges

A payment covers a purchase (`Pays`) when the product of the reserves `sell` and `buy` does not fall. A quote for an
exact purchase is rounded up (`amountIn`), the yield of an exact payment down (`amountOut`). -/

namespace ConstantProduct

variable {sell buy paid paid' bought scale fee amount : Nat}

def Pays (sell buy paid bought : Nat) : Prop := sell * bought ≤ paid * (buy - bought)

instance : Decidable (Pays sell buy paid bought) := inferInstanceAs (Decidable (_ ≤ _))

def price (sell buy bought : Nat) : Nat := sell * bought / (buy - bought)

/-- The quote for an exact purchase. -/
def amountIn (sell buy bought : Nat) : Nat := price sell buy bought + 1

/-- The yield of an exact payment. -/
def amountOut (sell buy paid : Nat) : Nat := buy * paid / (sell + paid)

def addFee (scale fee amount : Nat) : Nat := (scale + fee) * amount / scale

def dropFee (scale fee amount : Nat) : Nat := amount * scale / (scale + fee)

/-! ### Payments -/

theorem pays_iff_product (h : bought ≤ buy) :
    Pays sell buy paid bought ↔ sell * buy ≤ (sell + paid) * (buy - bought) := by
  obtain ⟨rest, rfl⟩ := Nat.exists_eq_add_of_le h
  unfold Pays
  rw [Nat.add_sub_cancel_left, Nat.mul_add, Nat.add_mul]
  omega

theorem Pays.mono (h : Pays sell buy paid bought) (hle : paid ≤ paid') : Pays sell buy paid' bought :=
  Nat.le_trans h (Nat.mul_le_mul_right _ hle)

theorem pays_amountIn (h : bought < buy) : Pays sell buy (amountIn sell buy bought) bought := by
  have hlt : ¬amountIn sell buy bought ≤ price sell buy bought := Nat.not_succ_le_self _
  rw [price, Nat.le_div_iff_mul_le (Nat.sub_pos_of_lt h)] at hlt
  exact Nat.le_of_not_le hlt

theorem le_amountOut_iff (hs : 0 < sell) (h : bought ≤ buy) :
    bought ≤ amountOut sell buy paid ↔ Pays sell buy paid bought := by
  obtain ⟨rest, rfl⟩ := Nat.exists_eq_add_of_le h
  unfold amountOut Pays
  rw [Nat.le_div_iff_mul_le (Nat.add_pos_left hs _), Nat.add_sub_cancel_left, Nat.mul_add, Nat.add_mul,
    Nat.mul_comm bought sell, Nat.mul_comm rest paid]
  omega

theorem amountOut_lt (hs : 0 < sell) (hbuy : 0 < buy) : amountOut sell buy paid < buy := by
  unfold amountOut
  rw [Nat.div_lt_iff_lt_mul (Nat.add_pos_left hs _)]
  exact Nat.mul_lt_mul_of_pos_left (Nat.lt_add_of_pos_left hs) hbuy

theorem pays_amountOut (hs : 0 < sell) (hbuy : 0 < buy) : Pays sell buy paid (amountOut sell buy paid) :=
  (le_amountOut_iff hs (Nat.le_of_lt (amountOut_lt hs hbuy))).mp (Nat.le_refl _)

/-! ### Fees -/

theorem le_addFee (hsc : 0 < scale) : amount ≤ addFee scale fee amount := by
  unfold addFee
  rw [Nat.le_div_iff_mul_le hsc, Nat.mul_comm]
  exact Nat.mul_le_mul_right _ (Nat.le_add_right _ _)

theorem dropFee_le (hsc : 0 < scale) : dropFee scale fee amount ≤ amount := by
  unfold dropFee
  rw [Nat.div_le_iff_le_mul_add_pred (Nat.add_pos_left hsc _), Nat.mul_comm]
  exact Nat.le_trans (Nat.mul_le_mul_right _ (Nat.le_add_right _ _)) (Nat.le_add_right _ _)

theorem dropFee_addFee_of_dvd (hsc : 0 < scale) (h : scale ∣ fee * amount) :
    dropFee scale fee (addFee scale fee amount) = amount := by
  have hdvd : scale ∣ (scale + fee) * amount := by
    rw [Nat.add_mul]
    exact Nat.dvd_add (Nat.dvd_mul_right _ _) h
  unfold dropFee addFee
  rw [Nat.div_mul_cancel hdvd]
  exact Nat.mul_div_cancel_left _ (Nat.add_pos_left hsc _)

theorem dropFee_addFee_of_not_dvd (hsc : 0 < scale) (h : ¬scale ∣ fee * amount) :
    dropFee scale fee (addFee scale fee amount) + 1 = amount := by
  have hdvd : ¬scale ∣ (scale + fee) * amount := by
    rw [Nat.add_mul]
    exact fun hd => h ((Nat.dvd_add_right (Nat.dvd_mul_right _ _)).mp hd)
  obtain ⟨rest, rfl⟩ : ∃ rest, amount = rest + 1 := by
    cases amount with
    | zero => exact absurd (Nat.dvd_zero _) h
    | succ rest => exact ⟨rest, rfl⟩
  have hdiv := Nat.div_add_mod ((scale + fee) * (rest + 1)) scale
  have hpos : 0 < (scale + fee) * (rest + 1) % scale := Nat.pos_of_ne_zero fun h0 => hdvd (Nat.dvd_of_mod_eq_zero h0)
  have hlt := Nat.mod_lt ((scale + fee) * (rest + 1)) hsc
  unfold dropFee addFee
  rw [Nat.succ_inj]
  apply Nat.div_eq_of_lt_le
  · rw [Nat.mul_comm _ scale, Nat.mul_comm rest]
    rw [Nat.mul_succ] at hdiv hpos hlt ⊢
    omega
  · rw [Nat.mul_comm _ scale, Nat.mul_comm (rest + 1)]
    omega

/-! ### Two hops

A purchase of `bought` from a pool with reserves `sellB` and `buyB` is paid with an asset that a second pool, with
reserves `sellA` and `buyA`, exchanges for the asset the first pool takes. -/

section
variable {sellA buyA sellB buyB : Nat}

/-- The quote of the first pool, with the fee. -/
def routedAmount (scale fee sellB buyB bought : Nat) : Nat := addFee scale fee (amountIn sellB buyB bought)

/-- The fee on the second pool's quote is whole, or a payment within the exact price of the routed amount still yields
enough for the first pool. -/
def RoutedPays (scale fee sellA buyA sellB buyB bought : Nat) : Prop :=
  scale ∣ fee * amountIn sellA buyA (routedAmount scale fee sellB buyB bought) ∨
    ∃ paid yielded, paid ≤ price sellA buyA (routedAmount scale fee sellB buyB bought) ∧
      Pays sellA buyA paid yielded ∧ yielded ≤ buyA ∧ Pays sellB buyB yielded bought

/-- What the second pool yields for its own quote, fee added and taken off, covers the purchase exactly when
`RoutedPays`. -/
theorem routed_yield_pays_iff (hsc : 0 < scale) (hs : 0 < sellA) (hbo : bought < buyB)
    (hro : routedAmount scale fee sellB buyB bought < buyA) :
    Pays sellB buyB (amountOut sellA buyA (dropFee scale fee (addFee scale fee
          (amountIn sellA buyA (routedAmount scale fee sellB buyB bought))))) bought ↔
      RoutedPays scale fee sellA buyA sellB buyB bought := by
  by_cases hwh : scale ∣ fee * amountIn sellA buyA (routedAmount scale fee sellB buyB bought)
  · refine ⟨fun _ => Or.inl hwh, fun _ => ?_⟩
    rw [dropFee_addFee_of_dvd hsc hwh]
    have hle := (le_amountOut_iff hs (Nat.le_of_lt hro)).mpr (pays_amountIn hro)
    exact (pays_amountIn hbo).mono (Nat.le_trans (le_addFee hsc) hle)
  · -- the fee came back one unit short, so the second pool is paid its exact price rounded down
    have hp : dropFee scale fee (addFee scale fee (amountIn sellA buyA (routedAmount scale fee sellB buyB bought))) =
        price sellA buyA (routedAmount scale fee sellB buyB bought) :=
      Nat.succ_inj.mp (dropFee_addFee_of_not_dvd hsc hwh)
    rw [hp]
    constructor
    · intro hpa
      exact Or.inr ⟨_, _, Nat.le_refl _, pays_amountOut hs (Nat.zero_lt_of_lt hro),
        Nat.le_of_lt (amountOut_lt hs (Nat.zero_lt_of_lt hro)), hpa⟩
    · rintro (h | ⟨paid, yielded, hle, hyi, hfit, hpa⟩)
      · exact absurd h hwh
      · exact hpa.mono ((le_amountOut_iff hs hfit).mpr (hyi.mono hle))

end

end ConstantProduct
