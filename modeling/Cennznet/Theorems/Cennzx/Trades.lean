import Cennznet.Theorems.Cennzx.TwoHop

/-! # What a trade moves

A trade that fails, at whichever transfer, moves nothing. -/

namespace Cennzx

open GenericAsset (AssetId Balance Transferred moved moved_source moved_dest)
open Result

variable {A : Type} {s s' : State A}

def outcome (s : State A) : Except Error (State A) → State A × Except Error Unit
  | .ok s' => (s', .ok ())
  | .error e => (s, .error e)

def returned (s : State A) : Except Error (State A × Balance) → State A × Except Error Balance
  | .ok (s', v) => (s', .ok v)
  | .error e => (s, .error e)

theorem returned_eq_ok {x : Except Error (State A × Balance)} {v : Balance} :
    returned s x = (s', .ok v) ↔ x = .ok (s', v) := by
  cases x with
  | error e => simp [returned]
  | ok r => simp [returned, Prod.ext_iff]

theorem returned_eq_error {x : Except Error (State A × Balance)} {e : Error}
    (h : returned s x = (s', .error e)) : s' = s := by
  cases x with
  | error e' => exact (congrArg Prod.fst h).symm
  | ok r => cases congrArg Prod.snd h

variable [DecidableEq A] {cfg : Config A}
  {trader recipient : A} {a b : AssetId} {sold bought : Balance}

/-! ### Eager transfers -/

theorem tryTransfer_ok {transactor dest : A} {ccy : AssetId} {v : Balance}
    (h : s.transfer cfg transactor dest ccy v = .ok s') :
    s.tryTransfer cfg transactor dest ccy v = (s', .ok ()) := by
  rw [State.tryTransfer, h]

theorem tryTransfer_error {transactor dest : A} {ccy : AssetId} {v : Balance} {e : Error}
    (h : s.transfer cfg transactor dest ccy v = .error e) :
    s.tryTransfer cfg transactor dest ccy v = (s, .error e) := by
  rw [State.tryTransfer, h]

theorem transactional_tradeTransfers : transactional s (tradeTransfers cfg s trader recipient a b sold bought) =
      outcome s (executeTrade cfg s trader recipient a b sold bought) := by
  by_cases hc : a = s.coreAssetId ∨ b = s.coreAssetId
  · simp only [tradeTransfers, executeTrade, if_pos hc]
    generalize s.exchangeAddress cfg (if b = s.coreAssetId then a else b) = pool
    cases h₁ : s.transfer cfg trader pool a sold with
    | error e =>
      rw [tryTransfer_error h₁]
      rfl
    | ok s₁ =>
      rw [tryTransfer_ok h₁, ok_bind]
      cases h₂ : s₁.transfer cfg pool recipient b bought with
      | error e =>
        simp only [tryTransfer_error h₂]
        rfl
      | ok s₂ =>
        simp only [tryTransfer_ok h₂]
        rfl
  · simp only [tradeTransfers, executeTrade, if_neg hc]
    generalize s.exchangeAddress cfg a = poolA
    generalize s.exchangeAddress cfg b = poolB
    cases hpr : getAssetToCoreSellPrice cfg s a sold with
    | error e => rfl
    | ok core =>
      rw [ok_bind]
      cases h₁ : s.transfer cfg trader poolA a sold with
      | error e =>
        simp only [tryTransfer_error h₁]
        rfl
      | ok s₁ =>
        obtain ⟨assets, -, rfl⟩ := transfer_inv h₁
        rw [ok_bind]
        simp only [tryTransfer_ok h₁]
        cases h₂ : State.transfer cfg { s with assets := assets } poolA poolB s.coreAssetId core with
        | error e =>
          simp only [tryTransfer_error h₂]
          rfl
        | ok s₂ =>
          rw [ok_bind]
          simp only [tryTransfer_ok h₂]
          cases h₃ : s₂.transfer cfg poolB recipient b bought with
          | error e =>
            simp only [tryTransfer_error h₃]
            rfl
          | ok s₃ =>
            simp only [tryTransfer_ok h₃]
            rfl

theorem returned_trade {v : Balance} :
    (match transactional s (tradeTransfers cfg s trader recipient a b sold bought) with
    | (s, .ok ()) => (s, .ok v)
    | (s, .error e) => (s, .error e)) =
      returned s (executeTrade cfg s trader recipient a b sold bought >>= fun s => pure (s, v)) := by
  rw [transactional_tradeTransfers]
  cases executeTrade cfg s trader recipient a b sold bought with
  | error e => rfl
  | ok s' => rfl

theorem runBuy_eq {amountToBuy maximumSell : Balance} : runBuy cfg s trader recipient a b amountToBuy maximumSell =
      returned s (executeBuy cfg s trader recipient a b amountToBuy maximumSell) := by
  simp only [runBuy, executeBuy]
  cases getBuyPrice cfg s b amountToBuy a with
  | error e => rfl
  | ok p =>
    rw [ok_bind]
    by_cases hmax : p.toNat ≤ maximumSell.toNat
    · by_cases hfu : p.toNat ≤ (s.assets.free a trader).toNat
      · simp only [ensure, if_pos hmax, if_pos hfu, if_neg (Nat.not_lt.mpr hmax), if_neg (Nat.not_lt.mpr hfu)]
        exact returned_trade
      · simp only [ensure, if_pos hmax, if_neg hfu, if_neg (Nat.not_lt.mpr hmax), if_pos (Nat.lt_of_not_le hfu)]
        rfl
    · simp only [ensure, if_neg hmax, if_pos (Nat.lt_of_not_le hmax)]
      rfl

theorem runSell_eq {amountToSell minimumBuy : Balance} : runSell cfg s trader recipient a b amountToSell minimumBuy =
      returned s (executeSell cfg s trader recipient a b amountToSell minimumBuy) := by
  simp only [runSell, executeSell]
  by_cases hfu : amountToSell.toNat ≤ (s.assets.free a trader).toNat
  · simp only [ensure, if_pos hfu, if_neg (Nat.not_lt.mpr hfu), ok_bind]
    cases getSellPrice cfg s a amountToSell b with
    | error e => rfl
    | ok y =>
      rw [ok_bind]
      by_cases hmin : minimumBuy.toNat ≤ y.toNat
      · simp only [if_pos hmin, if_neg (Nat.not_lt.mpr hmin)]
        exact returned_trade
      · simp only [if_neg hmin, if_pos (Nat.lt_of_not_le hmin)]
        rfl
  · simp only [ensure, if_neg hfu, if_pos (Nat.lt_of_not_le hfu)]
    rfl

/-! ### The amounts of a trade -/

def sellPool (cfg : Config A) (s : State A) (a b : AssetId) : A :=
  s.exchangeAddress cfg (if a = s.coreAssetId then b else a)

def buyPool (cfg : Config A) (s : State A) (a b : AssetId) : A :=
  s.exchangeAddress cfg (if b = s.coreAssetId then a else b)

/-- `sold` of `a` has gone from the trader to a pool and `bought` of `b` from a pool to the recipient; between two pools
the core that the payment is worth has passed. Nothing else has moved. -/
structure Exchanged (cfg : Config A) (s s' : State A) (trader recipient : A) (a b : AssetId)
    (sold bought : Balance) : Prop where
  paid : s'.assets.freeOf a trader + sold.toNat = s.assets.freeOf a trader
  received : s'.assets.freeOf b recipient = s.assets.freeOf b recipient + bought.toNat
  poolPaid : s'.assets.freeOf a (sellPool cfg s a b) = s.assets.freeOf a (sellPool cfg s a b) + sold.toNat
  poolPays : s'.assets.freeOf b (buyPool cfg s a b) + bought.toNat = s.assets.freeOf b (buyPool cfg s a b)
  payment : ∀ x, x ≠ trader → x ≠ sellPool cfg s a b → s'.assets.freeOf a x = s.assets.freeOf a x
  delivery : ∀ x, x ≠ recipient → x ≠ buyPool cfg s a b → s'.assets.freeOf b x = s.assets.freeOf b x
  core : a ≠ s.coreAssetId → b ≠ s.coreAssetId → ∃ core, getAssetToCoreSellPrice cfg s a sold = .ok core ∧
    core.toNat ≤ s.assets.freeOf s.coreAssetId (s.exchangeAddress cfg a) ∧
    s'.assets.freeOf s.coreAssetId =
      moved (s.assets.freeOf s.coreAssetId) (s.exchangeAddress cfg a) (s.exchangeAddress cfg b) core.toNat
  others : ∀ c, c ≠ a → c ≠ b → (c = s.coreAssetId → a = s.coreAssetId ∨ b = s.coreAssetId) →
    s'.assets.freeOf c = s.assets.freeOf c

theorem Exchanged.of_moved (htr : trader ≠ sellPool cfg s a b) (hre : buyPool cfg s a b ≠ recipient)
    (hso : sold.toNat ≤ s.assets.freeOf a trader) (hbo : bought.toNat ≤ s.assets.freeOf b (buyPool cfg s a b))
    (hpa : s'.assets.freeOf a = moved (s.assets.freeOf a) trader (sellPool cfg s a b) sold.toNat)
    (hde : s'.assets.freeOf b = moved (s.assets.freeOf b) (buyPool cfg s a b) recipient bought.toNat)
    (hc : a ≠ s.coreAssetId → b ≠ s.coreAssetId → ∃ core, getAssetToCoreSellPrice cfg s a sold = .ok core ∧
      core.toNat ≤ s.assets.freeOf s.coreAssetId (s.exchangeAddress cfg a) ∧
      s'.assets.freeOf s.coreAssetId =
        moved (s.assets.freeOf s.coreAssetId) (s.exchangeAddress cfg a) (s.exchangeAddress cfg b) core.toNat)
    (hoth : ∀ c, c ≠ a → c ≠ b → (c = s.coreAssetId → a = s.coreAssetId ∨ b = s.coreAssetId) →
      s'.assets.freeOf c = s.assets.freeOf c) : Exchanged cfg s s' trader recipient a b sold bought where
  paid := by
    rw [hpa, moved_source htr]
    exact Nat.sub_add_cancel hso
  received := by rw [hde, moved_dest hre]
  poolPaid := by rw [hpa, moved_dest htr]
  poolPays := by
    rw [hde, moved_source hre]
    exact Nat.sub_add_cancel hbo
  payment x hx hpo := by rw [hpa, GenericAsset.moved_other hx hpo]
  delivery x hx hpo := by rw [hde, GenericAsset.moved_other hpo hx]
  core := hc
  others := hoth

theorem executeTrade_exchanged (hde : ∀ c, s.assets.existentialDeposit c = 1)
    (htr : ∀ c, trader ≠ s.exchangeAddress cfg c) (hre : ∀ c, recipient ≠ s.exchangeAddress cfg c) (hne : a ≠ b)
    (h : executeTrade cfg s trader recipient a b sold bought = .ok s') :
    Exchanged cfg s s' trader recipient a b sold bought := by
  by_cases hc : a = s.coreAssetId ∨ b = s.coreAssetId
  · -- one pool, of the asset that is not core
    have hpo : s.exchangeAddress cfg (if b = s.coreAssetId then a else b) = sellPool cfg s a b := by
      rw [sellPool]
      rcases hc with rfl | rfl
      · rw [if_neg hne.symm, if_pos rfl]
      · rw [if_pos rfl, if_neg hne]
    simp only [executeTrade, if_pos hc, bind_eq_ok] at h
    obtain ⟨s₁, h₁, h₂⟩ := h
    obtain ⟨assets₁, paid, rfl⟩ := transfer_inv h₁
    obtain ⟨assets₂, delivered, rfl⟩ := transfer_inv h₂
    have hB : assets₁.freeOf b = s.assets.freeOf b := paid.others b hne.symm
    refine Exchanged.of_moved (htr _) (Ne.symm (hre _)) paid.funded (hB ▸ delivered.funded) ?_ ?_ ?_ ?_
    · show assets₂.freeOf a = _
      rw [delivered.others a hne, transferred_moved paid hde, hpo]
    · show assets₂.freeOf b = _
      rw [transferred_moved delivered (transferred_deposits paid hde), hB]
      rfl
    · intro ha hb
      exact absurd hc (not_or.mpr ⟨ha, hb⟩)
    · intro c ha hb _
      show assets₂.freeOf c = _
      rw [delivered.others c hb, paid.others c ha]
  · obtain ⟨ha, hb⟩ := not_or.mp hc
    obtain ⟨core, assets, hpr, rfl, hro⟩ := executeTrade_routed hde hne ha hb h
    have hs : sellPool cfg s a b = s.exchangeAddress cfg a := by rw [sellPool, if_neg ha]
    have hbuy : buyPool cfg s a b = s.exchangeAddress cfg b := by rw [buyPool, if_neg hb]
    refine Exchanged.of_moved (htr _) (Ne.symm (hre _)) hro.paid ?_ ?_ ?_ ?_ ?_
    · rw [hbuy]
      exact hro.delivered
    · rw [hs]
      exact hro.payment
    · rw [hbuy]
      exact hro.delivery
    · intro _ _
      exact ⟨core, hpr, hro.passed, hro.route⟩
    · intro c hca hcb hcc
      exact hro.others c hca hcb fun heq => hc (hcc heq)

/-- Trades keep to their limits and move exactly their amounts, or leave everything as it was. -/
theorem trades_exact (hdeposits : ∀ c, s.assets.existentialDeposit c = 1)
    (htrader : ∀ c, trader ≠ s.exchangeAddress cfg c) (hrecipient : ∀ c, recipient ≠ s.exchangeAddress cfg c) (a b : AssetId)
    (amount limit : Balance) :
    (∀ s' p, runBuy cfg s trader recipient a b amount limit = (s', .ok p) →
      p.toNat ≤ limit.toNat ∧ Exchanged cfg s s' trader recipient a b p amount) ∧
    (∀ s' e, runBuy cfg s trader recipient a b amount limit = (s', .error e) → s' = s) ∧
    (∀ s' y, runSell cfg s trader recipient a b amount limit = (s', .ok y) →
      limit.toNat ≤ y.toNat ∧ Exchanged cfg s s' trader recipient a b amount y) ∧
    (∀ s' e, runSell cfg s trader recipient a b amount limit = (s', .error e) → s' = s) := by
  rw [runBuy_eq, runSell_eq]
  refine ⟨fun s' p h => ?_, fun s' e => returned_eq_error, fun s' y h => ?_, fun s' e => returned_eq_error⟩
  · have hbuy := returned_eq_ok.mp h
    simp only [executeBuy, bind_eq_ok, ensure_eq_ok, pure_eq_ok, Prod.mk.injEq] at hbuy
    obtain ⟨p', hpr, -, hli, -, -, s₁, htr, rfl, rfl⟩ := hbuy
    simp only [getBuyPrice, bind_eq_ok, ensure_eq_ok] at hpr
    obtain ⟨-, hne, -⟩ := hpr
    exact ⟨hli, executeTrade_exchanged hdeposits htrader hrecipient hne.symm htr⟩
  · have hs := returned_eq_ok.mp h
    simp only [executeSell, bind_eq_ok, ensure_eq_ok, pure_eq_ok, Prod.mk.injEq] at hs
    obtain ⟨-, -, y', hpr, -, hli, s₁, htr, rfl, rfl⟩ := hs
    simp only [getSellPrice, bind_eq_ok, ensure_eq_ok] at hpr
    obtain ⟨-, hne, -⟩ := hpr
    exact ⟨hli, executeTrade_exchanged hdeposits htrader hrecipient hne htr⟩

theorem trades_exact_deep_pools :
    ∃ s' p, runBuy plainConfig (twoPools 10000 10000 10000 10000) 7 8 1 2 510 1000 = (s', .ok p) ∧
      Exchanged plainConfig (twoPools 10000 10000 10000 10000) s' 7 8 1 2 p 510 := by
  have hpo (x : Nat) (hx : x < 1000) (c : AssetId) :
      x ≠ (twoPools 10000 10000 10000 10000).exchangeAddress plainConfig c := by
    show x ≠ 1000 + c.toNat
    omega
  obtain ⟨hbuy, -⟩ := trades_exact (s := twoPools 10000 10000 10000 10000) (fun _ => rfl) (hpo 7 (by decide))
    (hpo 8 (by decide)) 1 2 510 1000
  obtain ⟨s', p, hrun⟩ : ∃ s' p, runBuy plainConfig (twoPools 10000 10000 10000 10000) 7 8 1 2 510 1000 = (s', .ok p) :=
    ⟨_, _, rfl⟩
  exact ⟨s', p, hrun, (hbuy s' p hrun).2⟩

end Cennzx
