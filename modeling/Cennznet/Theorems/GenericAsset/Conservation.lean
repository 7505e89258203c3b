import Cennznet.Theorems.GenericAsset.Issuance

/-! # The ledger stays balanced

`create_asset` for the next id does not look whether the id is in use. -/

namespace GenericAsset

open Word Steps List

variable {A : Type}

section

theorem chooseAssetId_none {s : State A} {newId nextId : AssetId} :
    chooseAssetId s none = .ok (newId, nextId) ↔ newId = s.nextAssetId ∧ s.nextAssetId.toNat + 1 = nextId.toNat := by
  have hadd : checkedAdd s.nextAssetId 1 = some nextId ↔ s.nextAssetId.toNat + 1 = nextId.toNat := checkedAdd_eq_some
  rw [← hadd]
  unfold chooseAssetId
  dsimp only
  constructor
  · intro h
    split at h
    · cases h
    rename_i next hx
    cases h
    exact ⟨rfl, hx⟩
  · rintro ⟨rfl, hx⟩
    rw [hx]

variable [DecidableEq A] {s s' : State A} {who : A} {aid : AssetId}
  {fromAccount : Option A} {options : AssetOptions A} {info : AssetInfo}

def created (s : State A) (aid nextId : AssetId) (who : A) (options : AssetOptions A)
    (info : AssetInfo) (total : Balance) : State A :=
  { setIssuance (setFreeBalance s aid who total) aid total with
    nextAssetId := nextId
    permissions := s.permissions.insert aid options.permissions
    assetMeta := s.assetMeta.insert aid info }

theorem created_balanced_iff {newId nextId : AssetId} {total : Balance} (hs : s.Balanced) :
    (created s newId nextId who options info total).Balanced ↔ (s.issuanceOf newId).toNat = s.freeOf newId who := by
  refine ((setFreeBalance_wrote s newId who total).balanced_setIssuance_iff hs).trans ?_
  omega

variable [Inhabited A] {id : Option AssetId}

theorem createAsset_eq_ok : createAsset s id fromAccount options info = .ok s' ↔
      info.existentialDeposit ≠ 0 ∧ 10 ^ info.decimalPlaces.toNat < 2 ^ 128 ∧
        ∃ (total : Balance) (newId nextId : AssetId),
          10 ^ info.decimalPlaces.toNat * options.initialIssuance.toNat = total.toNat ∧
          chooseAssetId s id = .ok (newId, nextId) ∧
          s' = created s newId nextId (fromAccount.getD default) options info total := by
  have hfa (h : 10 ^ info.decimalPlaces.toNat < 2 ^ 128) :
      (BitVec.ofNat 128 (10 ^ info.decimalPlaces.toNat)).toNat = 10 ^ info.decimalPlaces.toNat := by
    rw [BitVec.toNat_ofNat, Nat.mod_eq_of_lt h]
  constructor
  · intro h
    unfold createAsset at h
    split at h
    · cases h
    rename_i hed
    split at h
    · cases h
    rename_i hdec
    rw [not_not] at hdec
    split at h
    · cases h
    rename_i total htot
    rw [checkedMul_eq_some, hfa hdec] at htot
    split at h
    · cases h
    rename_i newId nextId hch
    cases h
    exact ⟨hed, hdec, total, newId, nextId, htot, hch, rfl⟩
  · rintro ⟨hed, hdec, total, newId, nextId, htot, hch, rfl⟩
    have hmul := checkedMul_eq_some.mpr ((hfa hdec).symm ▸ htot)
    unfold createAsset
    rw [if_neg hed, if_neg (not_not.mpr hdec), hmul]
    dsimp only
    rw [hch]
    rfl

theorem createAsset_some_balanced (h : createAsset s (some aid) fromAccount options info = .ok s')
    (hs : s.Balanced) : s'.Balanced := by
  obtain ⟨-, -, total, newId, nextId, -, hch, rfl⟩ := createAsset_eq_ok.mp h
  rw [created_balanced_iff hs]
  unfold chooseAssetId at hch
  dsimp only at hch
  split at hch
  · cases hch
  split at hch
  · cases hch
  rename_i hun
  split at hch <;> cases hch
  have hiss : (s.issuanceOf aid).toNat = 0 := by
    unfold State.issuanceOf StorageMap.getD
    rw [StorageMap.not_contains_iff.mp (Bool.eq_false_of_not_eq_true hun)]
    rfl
  have hle := freeOf_le_holdings s aid (fromAccount.getD default)
  have hbal := hs aid
  omega

def Creates (s : State A) (options : AssetOptions A) (info : AssetInfo) : Prop :=
  info.existentialDeposit ≠ 0 ∧ 10 ^ info.decimalPlaces.toNat < 2 ^ 128 ∧
    10 ^ info.decimalPlaces.toNat * options.initialIssuance.toNat < 2 ^ 128 ∧ s.nextAssetId.toNat + 1 < 2 ^ 32

/-- Creating the next asset keeps the ledger balanced exactly if all that is issued under its id is in the balance that
it overwrites. -/
theorem createAsset_none_balanced_iff (hs : s.Balanced) :
    (Result.getD (createAsset s none fromAccount options info) s).Balanced ↔ (Creates s options info →
        (s.issuanceOf s.nextAssetId).toNat = s.freeOf s.nextAssetId (fromAccount.getD default)) := by
  cases hc : createAsset s none fromAccount options info with
  | ok s' =>
    obtain ⟨hed, hdec, total, newId, nextId, htot, hch, rfl⟩ := createAsset_eq_ok.mp hc
    obtain ⟨rfl, hx⟩ := chooseAssetId_none.mp hch
    have hcr : Creates s options info := ⟨hed, hdec, htot ▸ total.isLt, hx ▸ nextId.isLt⟩
    exact (created_balanced_iff hs).trans ⟨fun h _ => h, fun h => h hcr⟩
  | error e =>
    refine iff_of_true hs fun hcr => ?_
    obtain ⟨hed, hdec, htot, hx⟩ := hcr
    obtain ⟨total, htot⟩ := exists_toNat_eq htot
    obtain ⟨nextId, hx⟩ := exists_toNat_eq hx
    have hok : createAsset s none fromAccount options info = .ok _ := createAsset_eq_ok.mpr
      ⟨hed, hdec, total, s.nextAssetId, nextId, htot.symm, chooseAssetId_none.mpr ⟨rfl, hx.symm⟩, rfl⟩
    rw [hok] at hc
    cases hc

end

theorem assetCurrency_slash_eq [DecidableEq A] (s : State A) (aid : AssetId) (who : A) (v : Balance) :
    AssetCurrency.slash s aid who v =
      let (s', missing) := slash s aid who v
      (s', ⟨v - missing.getD 0, aid⟩, missing.getD 0) := by
  unfold AssetCurrency.slash
  rcases slash s aid who v with ⟨s', _ | r⟩
  · simp
  · rfl

section
variable [DecidableEq A]

def endow (s : State A) (aid : AssetId) (accs : List A) (v : Balance) : State A :=
  accs.foldl (fun s who => setFreeBalance s aid who v) s

variable {s : State A} {aid a : AssetId} {accs : List A} {v : Balance}

theorem endow_others (s : State A) (accs : List A) (v : Balance) (h : a ≠ aid) :
    (endow s aid accs v).holdings a = s.holdings a ∧ (endow s aid accs v).freeOf a = s.freeOf a := by
  induction accs generalizing s with
  | nil => exact ⟨rfl, rfl⟩
  | cons x accs ih =>
    obtain ⟨hho, hf⟩ := ih (setFreeBalance s aid x v)
    exact ⟨hho.trans (setFreeBalance_holdings_ne h), hf.trans (setFreeBalance_freeOf_ne h)⟩

theorem endow_totalIssuance : (endow s aid accs v).totalIssuance = s.totalIssuance := by
  induction accs generalizing s with
  | nil => rfl
  | cons x accs ih => exact ih (s := setFreeBalance s aid x v)

theorem endow_freeOf (x : A) : (endow s aid accs v).freeOf aid x = if x ∈ accs then v.toNat else s.freeOf aid x := by
  induction accs generalizing s with
  | nil => rfl
  | cons y accs ih =>
    refine (ih (s := setFreeBalance s aid y v)).trans ?_
    rw [setFreeBalance_freeOf]
    by_cases hx : x ∈ accs
    · simp [hx]
    · by_cases hy : x = y <;> simp [hx, hy]

theorem endow_holdings (s : State A) (aid : AssetId) (v : Balance) (hno : accs.Nodup) :
    (endow s aid accs v).holdings aid + (accs.map (s.freeOf aid)).sum = s.holdings aid + accs.length * v.toNat := by
  induction accs generalizing s with
  | nil => simp [endow]
  | cons x accs ih =>
    obtain ⟨hx, hno⟩ := nodup_cons.mp hno
    have hr := ih (setFreeBalance s aid x v) hno
    have hset := setFreeBalance_holdings s aid x v
    -- the accounts after `x` are other accounts, whose balance the first write leaves alone
    have hs : accs.map ((setFreeBalance s aid x v).freeOf aid) = accs.map (s.freeOf aid) := by
      refine map_congr_left fun y hy => ?_
      rw [setFreeBalance_freeOf, Function.update_of_ne]
      rintro rfl
      exact hx hy
    rw [hs] at hr
    have hco : endow s aid (x :: accs) v = endow (setFreeBalance s aid x v) aid accs v := rfl
    rw [hco, map_cons, sum_cons, length_cons, Nat.succ_mul]
    omega

def Endowed (s : State A) (accs : List A) (v : Balance) (aid : AssetId) : Prop :=
  s.holdings aid = accs.length * v.toNat ∧ ∀ x ∈ accs, s.freeOf aid x = v.toNat

theorem endow_endowed (v : Balance) (hno : accs.Nodup) (h : Endowed s accs v aid ∨ s.holdings aid = 0) :
    Endowed (endow s aid accs v) accs v aid := by
  refine ⟨?_, fun x hx => (endow_freeOf x).trans (if_pos hx)⟩
  have hsum := endow_holdings s aid v hno
  rcases h with ⟨hhe, hf⟩ | hn
  · rw [map_congr_left hf, map_const', sum_replicate_nat] at hsum
    omega
  · have hz : accs.map (s.freeOf aid) = accs.map fun _ => 0 :=
      map_congr_left fun x _ => Nat.le_zero.mp (hn ▸ freeOf_le_holdings s aid x)
    rw [hz, map_const', sum_replicate_nat, Nat.mul_zero, hn] at hsum
    omega

theorem endow_assets_holdings (s : State A) (v : Balance) (hno : accs.Nodup) (assets : List AssetId)
    (h : ∀ a, Endowed s accs v a ∨ s.holdings a = 0) (a : AssetId) :
    (assets.foldl (fun s aid => endow s aid accs v) s).holdings a =
      if a ∈ assets then accs.length * v.toNat else s.holdings a := by
  induction assets generalizing s with
  | nil => rfl
  | cons b assets ih =>
    have hb := endow_endowed v hno (h b)
    have hx (a : AssetId) : Endowed (endow s b accs v) accs v a ∨ (endow s b accs v).holdings a = 0 := by
      by_cases ha : a = b
      · subst ha
        exact Or.inl hb
      · obtain ⟨hho, hf⟩ := endow_others s accs v ha
        unfold Endowed
        rw [hho, hf]
        exact h a
    refine (ih _ hx).trans ?_
    by_cases hmem : a ∈ assets
    · rw [if_pos hmem, if_pos (mem_cons_of_mem b hmem)]
    · by_cases ha : a = b
      · subst ha
        rw [if_neg hmem, if_pos mem_cons_self, hb.1]
      · rw [if_neg hmem, if_neg (not_mem_cons_of_ne_of_not_mem ha hmem), (endow_others s accs v ha).1]

theorem build_totalIssuance (config : GenesisConfig A) :
    (State.build config).totalIssuance = (State.configured config).totalIssuance :=
  execute_invariant (I := fun s : State A => s.totalIssuance = (State.configured config).totalIssuance)
    (fun _ _ _ h => endow_totalIssuance.trans h) rfl

theorem build_holdings {config : GenesisConfig A} (hno : config.endowedAccounts.Nodup) (a : AssetId) :
    (State.build config).holdings a =
      if a ∈ config.assets then config.endowedAccounts.length * config.initialBalance.toNat else 0 :=
  endow_assets_holdings (State.configured config) config.initialBalance hno config.assets (fun _ => Or.inr rfl) a

theorem build_balanced {config : GenesisConfig A} (hno : config.endowedAccounts.Nodup)
    (hle : config.endowedAccounts.length < 2 ^ 32)
    (hfit : config.endowedAccounts.length * config.initialBalance.toNat < 2 ^ 128) : (State.build config).Balanced := by
  intro a
  refine Eq.trans ?_ (build_holdings hno a).symm
  have hpr : (config.initialBalance * BitVec.ofNat 128 (config.endowedAccounts.length % 2 ^ 32)).toNat =
      config.endowedAccounts.length * config.initialBalance.toNat := by
    rw [Nat.mod_eq_of_lt hle, BitVec.toNat_mul, BitVec.toNat_ofNat,
      Nat.mod_eq_of_lt (a := config.endowedAccounts.length) (by omega), Nat.mul_comm, Nat.mod_eq_of_lt hfit]
  rw [State.issuanceOf, build_totalIssuance, StorageMap.getD, State.configured, StorageMap.get?_insertAll]
  split
  · exact hpr
  · rfl

end

/-! ### Runs of the ledger -/

/-- The operations that other pallets and calls are made of. An imbalance that is returned is dropped. -/
inductive LedgerOp (A : Type) where
  | createAsset (aid : Option AssetId) (fromAccount : Option A) (options : AssetOptions A)
    (info : AssetInfo)
  | mintFree (aid : AssetId) (who dest : A) (amt : Balance)
  | burnFree (aid : AssetId) (who dest : A) (amt : Balance)
  | makeTransfer (aid : AssetId) (source dest : A) (amt : Balance)
  | unreserve (aid : AssetId) (who : A) (amt : Balance)
  | repatriateReserved (aid : AssetId) (payee beneficiary : A) (amt : Balance)
  | depositCreating (who : A) (currency : AssetId) (v : Balance)
  | makeFreeBalanceBe (who : A) (currency : AssetId) (balance : Balance)
  | transfer (transactor dest : A) (currency : AssetId) (v : Balance)
  | withdraw (who : A) (currency : AssetId) (v : Balance) (reasons : WithdrawReasons)
  | slash (aid : AssetId) (who : A) (v : Balance)
  | slashReserved (aid : AssetId) (who : A) (v : Balance)

section
variable [DecidableEq A] [Inhabited A]

def ledgerStep (cfg : Config A) (s : State A) : LedgerOp A → State A
  | .createAsset aid fromAccount options info => Result.getD (createAsset s aid fromAccount options info) s
  | .mintFree aid who dest amt => Result.getD (mintFree s aid who dest amt) s
  | .burnFree aid who dest amt => Result.getD (burnFree s aid who dest amt) s
  | .makeTransfer aid source dest amt => Result.getD (makeTransfer cfg s aid source dest amt) s
  | .unreserve aid who amt => (unreserve s aid who amt).1
  | .repatriateReserved aid payee beneficiary amt => (repatriateReserved s aid payee beneficiary amt).1
  | .depositCreating who currency v =>
    let (s, p) := MultiCurrency.depositCreating s who currency v
    dropPositive s p
  | .makeFreeBalanceBe who currency balance =>
    let (s, imbalance) := MultiCurrency.makeFreeBalanceBe s who currency balance
    dropSigned s imbalance
  | .transfer transactor dest currency v => Result.getD (MultiCurrency.transfer cfg s transactor dest currency v) s
  | .withdraw who currency v reasons =>
    match MultiCurrency.withdraw s who currency v reasons with
    | .ok (s, n) => dropNegative s n
    | .error _ => s
  | .slash aid who v =>
    let (s, n, _) := AssetCurrency.slash s aid who v
    dropNegative s n
  | .slashReserved aid who v =>
    let (s, n, _) := AssetCurrency.slashReserved s aid who v
    dropNegative s n

/-- The two operations that create money unchecked leave the issuance below the greatest balance. -/
def SumsFit (s : State A) : LedgerOp A → Prop
  | .depositCreating _ currency v => (s.issuanceOf currency).toNat + v.toNat < 2 ^ 128
  | .makeFreeBalanceBe who currency balance =>
    s.holdings currency - s.freeOf currency who + balance.toNat < 2 ^ 128
  | _ => True

/-- An asset created under the next id finds nothing issued under it, save what the creation overwrites. -/
def FindsIdUnused (s : State A) : LedgerOp A → Prop
  | .createAsset none fromAccount options info =>
    Creates s options info → (s.issuanceOf s.nextAssetId).toNat = s.freeOf s.nextAssetId (fromAccount.getD default)
  | _ => True

theorem ledgerStep_balanced_iff (cfg : Config A) (s : State A) (op : LedgerOp A)
    (hfit : SumsFit s op) (hs : s.Balanced) : (ledgerStep cfg s op).Balanced ↔ FindsIdUnused s op := by
  have hlt := hs.holdings_lt
  cases op with
  | createAsset aid fromAccount options info =>
    cases aid with
    | none => exact createAsset_none_balanced_iff hs
    | some aid =>
      exact iff_of_true (Result.getD_cases (fun _ h => createAsset_some_balanced h hs) hs) trivial
  | mintFree aid who dest n =>
    exact iff_of_true (Result.getD_cases (fun _ h => mintFree_balanced h hs) hs) trivial
  | burnFree aid who dest n =>
    exact iff_of_true (Result.getD_cases (fun _ h => burnFree_balanced h hs) hs) trivial
  | makeTransfer aid src dest n =>
    exact iff_of_true (Result.getD_cases (fun _ h => (makeTransfer_wrote h (hlt aid)).balanced hs) hs) trivial
  | unreserve aid who n => exact iff_of_true ((unreserve_wrote (hlt aid)).balanced hs) trivial
  | repatriateReserved aid payee ben n =>
    exact iff_of_true ((repatriateReserved_wrote (hlt aid)).balanced hs) trivial
  | depositCreating who ccy v => exact iff_of_true (depositCreating_balanced hs hfit) trivial
  | makeFreeBalanceBe who ccy balance => exact iff_of_true (makeFreeBalanceBe_balanced ccy who balance hs hfit) trivial
  | transfer transactor dest ccy v =>
    exact iff_of_true (Result.getD_cases (fun _ h => (transfer_wrote h (hlt ccy)).balanced hs) hs) trivial
  | withdraw who ccy v rs =>
    refine iff_of_true ?_ trivial
    cases hw : MultiCurrency.withdraw s who ccy v rs with
    | ok r =>
      simp only [ledgerStep, hw]
      exact withdraw_balanced hw hs
    | error e =>
      simp only [ledgerStep, hw]
      exact hs
  | slash aid who v =>
    refine iff_of_true ?_ trivial
    simp only [ledgerStep, assetCurrency_slash_eq]
    exact slash_slashed.balanced hs
  | slashReserved aid who v =>
    exact iff_of_true ((slashReserved_slashed s aid who v).balanced hs) trivial

/-- The ledger is balanced throughout a run exactly if each asset created under the next id finds the id unused. -/
theorem run_balanced_iff (cfg : Config A) (s : State A) (ops : List (LedgerOp A)) (hs : s.Balanced)
    (hfit : Each (ledgerStep cfg) SumsFit s ops) :
    (∀ done, done <+: ops → (execute (ledgerStep cfg) s done).Balanced) ↔ Each (ledgerStep cfg) FindsIdUnused s ops :=
  invariant_iff_each (ledgerStep_balanced_iff cfg) hfit hs

end

def pairEndowed : GenesisConfig Nat where
  assets := [16000]
  initialBalance := 100
  endowedAccounts := [1, 2]
  nextAssetId := 17000
  permissions := []
  assetMeta := []

theorem pairEndowed_run_balanced :
    let ops : List (LedgerOp Nat) :=
      [.createAsset none (some 2) { initialIssuance := 7, permissions := {} } {}, .depositCreating 1 17000 5,
        .transfer 1 2 16000 100, .slash 16000 2 30]
    ∀ done, done <+: ops → (execute (ledgerStep ⟨99⟩) (State.build pairEndowed) done).Balanced := by
  intro ops
  have hfit : Each (ledgerStep ⟨99⟩) SumsFit (State.build pairEndowed) ops :=
    ⟨trivial, by unfold SumsFit; decide, trivial, trivial, trivial⟩
  have hst : (State.build pairEndowed).Balanced := build_balanced (by decide) (by decide) (by decide)
  exact (run_balanced_iff ⟨99⟩ _ ops hst hfit).mpr ⟨fun _ => by decide, trivial, trivial, trivial, trivial⟩

/-- Deposited before it is created, an asset has its issuance set to nothing, and the five stay with the depositor. -/
theorem create_over_deposit_unbalanced :
    let ops : List (LedgerOp Nat) :=
      [.depositCreating 1 17000 5, .createAsset none (some 2) { initialIssuance := 0, permissions := {} } {}]
    (State.build pairEndowed).Balanced ∧ Each (ledgerStep ⟨99⟩) SumsFit (State.build pairEndowed) ops ∧
      (execute (ledgerStep ⟨99⟩) (State.build pairEndowed) ops).issuanceOf 17000 = 0 ∧
      (execute (ledgerStep ⟨99⟩) (State.build pairEndowed) ops).holdings 17000 = 5 :=
  ⟨build_balanced (by decide) (by decide) (by decide), ⟨by unfold SumsFit; decide, trivial, trivial⟩,
    by decide, by decide⟩

end GenericAsset
