import Cennznet.Theorems.Nft.Counts

/-! # The supply of a series

A recount counts what is burnt for the default account. -/

namespace Nft

open Result StorageMap Steps List

variable {A : Type}

def Call.movesTokens : Call A → Bool
  | .createCollection .. | .mintSeries .. | .mintAdditional .. => true
  | .transfer .. | .transferBatch .. | .burn .. | .burnBatch .. => true
  | _ => false

def mintedRange (key : SeriesKey) (first : SerialNumber) (qty : TokenCount) : List (SeriesKey × SerialNumber) :=
  (serialRange first (first + qty)).map fun n => (key, n)

def Call.minted (s : State A) : Call A → List (SeriesKey × SerialNumber)
  | .mintSeries col qty .. => mintedRange (col, s.nextSeriesId.getD col 0) 0 qty
  | .mintAdditional col seriesId qty _ =>
    mintedRange (col, seriesId) (s.nextSerialNumber.getD (col, seriesId) 0) qty
  | _ => []

def mintStep [DecidableEq A] [Inhabited A] (cfg : Config A)
    (x : State A × List (SeriesKey × SerialNumber)) (op : A × Call A) :
    State A × List (SeriesKey × SerialNumber) :=
  match dispatch cfg x.1 op.1 op.2 with
  | .ok s => (s, x.2 ++ op.2.minted x.1)
  | .error _ => x

def State.existing (s : State A) (key : SeriesKey) : Nat := (s.tokenOwner.iterPrefix key).length

theorem existing_eq (s : State A) (key : SeriesKey) :
    s.existing key = (s.tokenOwner.iterPrefix key).countP fun e => (fun _ => true) e.2 :=
  congrFun countP_true.symm _

variable [Inhabited A]

def State.logged (s : State A) (log : List (SeriesKey × SerialNumber)) : Records A :=
  { s.records with owner := (∅ : StorageMap _ A).insertAll log default }

structure Supplied (s : State A) (log : List (SeriesKey × SerialNumber)) : Prop where
  once : log.Nodup
  counted : Counted (s.logged log)
  minted : ∀ k owner, s.tokenOwner.get? k = some owner → k ∈ log
  issuance : ∀ key, (s.seriesIssuance.getD key 0).toNat = s.existing key

section
variable {s s' : State A} {log : List (SeriesKey × SerialNumber)} {org owner : A} {key : SeriesKey}
  {first : SerialNumber} {qty : TokenCount} {ns : List SerialNumber}

theorem mint_eq (r : Records A) (log : List (SeriesKey × SerialNumber)) (owner : A) (key : SeriesKey)
    (first : SerialNumber) (qty : TokenCount) :
    (r.mint owner key first qty).owner = r.owner.insertAll (mintedRange key first qty) owner ∧
    ({ r with owner := (∅ : StorageMap _ A).insertAll log default } : Records A).mint default key first qty =
      { r.mint owner key first qty with
        owner := (∅ : StorageMap _ A).insertAll (log ++ mintedRange key first qty) default } := by
  have had : (∅ : StorageMap _ A).insertAll (log ++ mintedRange key first qty) default =
      ((∅ : StorageMap _ A).insertAll log default).insertAll (mintedRange key first qty) default :=
    foldl_append
  unfold Records.mint
  split_ifs with hz
  · exact ⟨rfl, by rw [had]; rfl⟩
  · have hn : mintedRange key first qty = [] := by
      obtain rfl : qty = 0 := BitVec.eq_of_toNat_eq (by simpa using hz)
      simp [mintedRange, serialRange]
    rw [hn, append_nil]
    exact ⟨rfl, rfl⟩

theorem mem_of_logged {k : SeriesKey × SerialNumber} : (s.logged log).owner.get? k = some default ↔ k ∈ log := by
  rw [State.logged, get?_insertAll, get?_empty]
  split <;> simp [*]

theorem Supplied.below (h : Supplied s log) {n : SerialNumber} (hin : (key, n) ∈ log) :
    key.2.toNat < (s.nextSeriesId.getD key.1 0).toNat ∧ n.toNat < (s.nextSerialNumber.getD key 0).toNat :=
  h.counted.minted key n default (mem_of_logged.mpr hin)

theorem Supplied.existing_lt (hmi : ∀ k owner, s.tokenOwner.get? k = some owner → k ∈ log)
    (hco : Counted (s.logged log)) (key : SeriesKey) : s.existing key < 2 ^ 32 := by
  have hinj : Function.Injective (BitVec.toNat : SerialNumber → Nat) := fun _ _ => BitVec.eq_of_toNat_eq
  rw [existing_eq]
  refine Nat.lt_of_le_of_lt (countP_iterPrefix_le (fun _ => true) hinj fun n o hget => ?_)
    (s.nextSerialNumber.getD key 0).isLt
  exact (hco.minted key n default (mem_of_logged.mpr (hmi _ o hget))).2

theorem Supplied.mint (h : Supplied s log) (hfit : first.toNat + qty.toNat < 2 ^ 32)
    (hfr : ∀ n, first.toNat ≤ n.toNat → (key, n) ∉ log)
    (hwn : s'.tokenOwner = s.tokenOwner.insertAll (mintedRange key first qty) owner)
    (hco : Counted (s'.logged (log ++ mintedRange key first qty)))
    (hiss : s'.seriesIssuance = s.seriesIssuance.insert key (Word.saturatingAdd (s.seriesIssuance.getD key 0) qty)) :
    Supplied s' (log ++ mintedRange key first qty) := by
  have hmi : ∀ k o, s'.tokenOwner.get? k = some o → k ∈ log ++ mintedRange key first qty := by
    intro k o hget
    rw [hwn, get?_insertAll] at hget
    split_ifs at hget with hin
    · exact mem_append_right _ hin
    · exact mem_append_left _ (h.minted k o hget)
  have hle : ∀ k, s'.existing k = s.existing k + if key = k then qty.toNat else 0 := by
    intro k
    have hno : ∀ n ∈ serialRange first (first + qty), s.tokenOwner.get? (key, n) = none := by
      intro n hn
      cases hget : s.tokenOwner.get? (key, n) with
      | none => rfl
      | some o => exact absurd (h.minted _ o hget) (hfr n (mem_serialRange.mp hn).1)
    have hcn := countP_iterPrefix_insertAll (v := owner) (fun _ => true) k (nodup_serialRange _ _) hno
    rw [existing_eq, existing_eq, hwn]
    simpa [mintedRange, length_serialRange hfit] using hcn
  refine ⟨?_, hco, hmi, fun k => ?_⟩
  · refine nodup_append.mpr ⟨h.once, (nodup_serialRange _ _).map fun _ _ heq => (Prod.mk.inj heq).2, ?_⟩
    rintro k hold _ hnew rfl
    obtain ⟨n, hn, rfl⟩ := mem_map.mp hnew
    exact hfr n (mem_serialRange.mp hn).1 hold
  · have hlt := Supplied.existing_lt hmi hco k
    rw [hiss, getD_insert, hle]
    rw [hle] at hlt
    by_cases heq : k = key
    · subst heq
      rw [if_pos rfl, Word.toNat_saturatingAdd, h.issuance]
      simp only [if_true] at hlt ⊢
      omega
    · rw [if_neg heq, if_neg (Ne.symm heq), Nat.add_zero]
      exact h.issuance k

theorem Supplied.of_kept (h : Supplied s log) (hse : s'.nextSeriesId = s.nextSeriesId)
    (hsr : s'.nextSerialNumber = s.nextSerialNumber)
    (hhe : ∀ k owner, s'.tokenOwner.get? k = some owner → ∃ owner', s.tokenOwner.get? k = some owner')
    (hiss : ∀ key, (s'.seriesIssuance.getD key 0).toNat = s'.existing key) : Supplied s' log := by
  refine ⟨h.once, h.counted.of_owner hse hsr fun _ o hget => ⟨o, hget⟩, fun k o hget => ?_, hiss⟩
  obtain ⟨o', hge'⟩ := hhe k o hget
  exact h.minted k o' hge'

theorem Supplied.give (h : Supplied s log) {newOwner : A} (hhe : ∀ n ∈ ns, s.tokenOwner.get? (key, n) = some org)
    (hre : s'.records = s.records.give (ns.map fun n => (key, n)) newOwner)
    (hiss : s'.seriesIssuance = s.seriesIssuance) : Supplied s' log := by
  have hwn : s'.tokenOwner = s.tokenOwner.insertAll (ns.map fun n => (key, n)) newOwner :=
    congrArg Records.owner hre
  have hco : ∀ k ∈ ns.map (fun n => (key, n)), s.tokenOwner.contains k = true := by
    intro k hk
    obtain ⟨n, hn, rfl⟩ := mem_map.mp hk
    exact contains_iff.mpr ⟨org, hhe n hn⟩
  refine h.of_kept (congrArg Records.nextSeries hre) (congrArg Records.nextSerial hre) (fun k o hget => ?_)
    fun k => ?_
  · rw [hwn, get?_insertAll] at hget
    split_ifs at hget with hin
    · exact contains_iff.mp (hco k hin)
    · exact ⟨o, hget⟩
  · have hsum := sumBy_insertAll_of_contains (v := newOwner) (g := fun k' => if k'.1 = k then 1 else 0) hco
    have hex : ∀ t : State A, t.existing k = t.tokenOwner.sumBy fun k' _ => if k'.1 = k then 1 else 0 :=
      fun t => (existing_eq t k).trans (countP_iterPrefix_eq_sumBy _ k fun _ => true)
    rw [hiss, h.issuance k, hex, hex, hwn, hsum]

theorem Supplied.burn (h : Supplied s log) (hdi : ns.Nodup) (hhe : ∀ n ∈ ns, s.tokenOwner.get? (key, n) = some org)
    (hre : s'.records = s.records.burn (ns.map fun n => (key, n)))
    (hiss : ∀ k, s'.seriesIssuance.getD k 0 =
      if k = key then Word.saturatingSub (s.seriesIssuance.getD key 0) (BitVec.ofNat 32 ns.length)
      else s.seriesIssuance.getD k 0) : Supplied s' log := by
  have hwn : s'.tokenOwner = s.tokenOwner.removeAll (ns.map fun n => (key, n)) :=
    congrArg Records.owner hre
  refine h.of_kept (congrArg Records.nextSeries hre) (congrArg Records.nextSerial hre) (fun k o hget => ?_)
    fun k => ?_
  · rw [hwn] at hget
    exact ⟨o, (get?_removeAll_eq_some.mp hget).2⟩
  · have hco := countP_iterPrefix_removeAll (fun _ => true) k hdi hhe
    rw [← hwn, ← existing_eq, ← existing_eq] at hco
    have hlt := (s.seriesIssuance.getD k 0).isLt
    rw [h.issuance k] at hlt
    rw [hiss]
    by_cases heq : k = key
    · subst heq
      simp only [Option.any_some, and_self, if_true] at hco
      rw [if_pos rfl, Word.toNat_saturatingSub, h.issuance, BitVec.toNat_ofNat, Nat.mod_eq_of_lt (by omega)]
      omega
    · rw [if_neg heq, h.issuance]
      simpa [Ne.symm heq] using hco.symm

variable [DecidableEq A] {cfg : Config A}

omit [Inhabited A] in
theorem doTransferUnchecked_issuance {dst : A} :
    (doTransferUnchecked s key ns org dst).seriesIssuance = s.seriesIssuance := by
  unfold doTransferUnchecked moveBalance decreaseBalance
  dsimp only
  cases (s.tokenBalance.getD org ∅).get? key <;> rfl

theorem transferBatch_supplied (key : SeriesKey) {dst : A} (hde : org ≠ default) (h : Supplied s log)
    (hc : transferBatch s org key.1 key.2 ns dst = .ok s') : Supplied s' log := by
  obtain ⟨hmo, hre⟩ := transferBatch_inv hc
  have hhe : ∀ n ∈ ns, s.tokenOwner.get? (key, n) = some org :=
    fun n hn => owner_of_ownerOf (hmo n hn).2 hde
  refine h.give hhe hre ?_
  simp only [transferBatch, bind_eq_ok, pure_eq_ok] at hc
  obtain ⟨-, -, -, -, rfl⟩ := hc
  exact doTransferUnchecked_issuance

theorem burnBatch_supplied (key : SeriesKey) (hde : org ≠ default) (h : Supplied s log)
    (hc : burnBatch s org key.1 key.2 ns = .ok s') : Supplied s' log := by
  have hre := (burnBatch_inv hc).2
  simp only [burnBatch, bind_eq_ok, okOr_eq_ok] at hc
  obtain ⟨-, -, s₁, hbu, s₂, hco, hend⟩ := hc
  obtain ⟨hdi, hhe, -, hiss⟩ := burnTokens_held hde hbu
  have hk : s₂.seriesIssuance = s.seriesIssuance := by
    simp only [decreaseBalance, bind, Option.bind_eq_some_iff] at hco
    obtain ⟨_, -, hco⟩ := hco
    cases hco
    exact hiss
  refine h.burn hdi hhe hre fun k => ?_
  rw [hk] at hend
  split_ifs at hend with hz
  · cases hend
    rw [getD_remove, hz]
  · cases hend
    rw [getD_insert]

omit [Inhabited A] in
theorem doMint_issuance : (doMint s owner key first qty).seriesIssuance =
    s.seriesIssuance.insert key (Word.saturatingAdd (s.seriesIssuance.getD key 0) qty) := by
  unfold doMint increaseBalance
  split <;> rfl

theorem mintStep_supplied {x : State A × List (SeriesKey × SerialNumber)} {op : A × Call A}
    (hop : op.1 ≠ default ∧ op.2.movesTokens = true) (h : Supplied x.1 x.2) :
    Supplied (mintStep cfg x op).1 (mintStep cfg x op).2 := by
  obtain ⟨s, log⟩ := x
  obtain ⟨org, call⟩ := op
  obtain ⟨hde, hmo⟩ := hop
  unfold mintStep
  split
  case h_2 => exact h
  rename_i s' hc
  cases call with
  | createCollection =>
    show Supplied s' (log ++ [])
    rw [append_nil]
    simp only [dispatch, createCollection, bind_eq_ok, pure_eq_ok] at hc
    obtain ⟨-, -, _, -, -, -, rfl⟩ := hc
    exact h.of_kept rfl rfl (fun _ o hget => ⟨o, hget⟩) h.issuance
  | mintSeries cid qty owner scheme roy =>
    obtain ⟨⟨s', sid⟩, hmi, rfl⟩ := Result.map_eq_ok.mp hc
    obtain ⟨next, rfl, hx, hre⟩ := doMintSeries_inv hmi
    obtain ⟨hwn, hlo⟩ := mint_eq s.records log (owner.getD org) (cid, s.nextSeriesId.getD cid 0) 0 qty
    have hco : Counted (((s.logged log).mint default (cid, s.nextSeriesId.getD cid 0) 0
        qty).setNextSeries cid next) := h.counted.mintSeries hx
    refine h.mint (fits_from_zero qty) (fun n _ hin => ?_) ((congrArg Records.owner hre).trans hwn) ?_ ?_
    · exact Nat.lt_irrefl _ (h.below hin).1
    · unfold State.logged at hco ⊢
      rw [hlo] at hco
      rw [hre]
      exact hco
    · simp only [doMintSeries, bind_eq_ok, pure_eq_ok, Prod.mk.injEq] at hmi
      obtain ⟨-, -, _, -, _, -, -, -, rfl, -⟩ := hmi
      exact doMint_issuance
  | mintAdditional cid sid qty owner =>
    obtain ⟨first, hfi, hpos, hfit, hre⟩ := mintAdditional_inv hc
    obtain ⟨hwn, hlo⟩ := mint_eq s.records log (owner.getD org) (cid, sid) first qty
    have hcn : s.nextSerialNumber.getD (cid, sid) 0 = first := getD_of_get? hfi
    have hco : Counted ((s.logged log).mint default (cid, sid) first qty) := h.counted.mintAdditional hfi hpos hfit
    rw [Call.minted, hcn]
    refine h.mint hfit (fun n hn hin => ?_) ((congrArg Records.owner hre).trans hwn) ?_ ?_
    · have hlt := (h.below hin).2
      rw [hcn] at hlt
      omega
    · unfold State.logged at hco ⊢
      rw [hlo] at hco
      rw [hre]
      exact hco
    · simp only [dispatch, mintAdditional, bind_eq_ok, okOr_eq_ok, pure_eq_ok] at hc
      obtain ⟨-, -, -, -, first', hfi', -, -, rfl⟩ := hc
      obtain rfl : first' = first := Option.some.inj (hfi'.symm.trans hfi)
      exact doMint_issuance
  | transfer tokenId =>
    show Supplied s' (log ++ [])
    rw [append_nil]
    exact transferBatch_supplied (tokenId.1, tokenId.2.1) hde h hc
  | transferBatch cid sid =>
    show Supplied s' (log ++ [])
    rw [append_nil]
    exact transferBatch_supplied (cid, sid) hde h hc
  | burn tokenId =>
    show Supplied s' (log ++ [])
    rw [append_nil]
    exact burnBatch_supplied (tokenId.1, tokenId.2.1) hde h hc
  | burnBatch cid sid =>
    show Supplied s' (log ++ [])
    rw [append_nil]
    exact burnBatch_supplied (cid, sid) hde h hc
  | _ => cases hmo

end

theorem genesis_supplied (assets : GenericAsset.State A) : Supplied (.genesis assets) [] := by
  refine ⟨nodup_nil, ⟨fun _ _ _ hget => ?_, fun _ _ hget => ?_⟩, fun _ _ hget => ?_, fun _ => rfl⟩
  · cases hget
  · cases hget
  · cases hget

section
variable [DecidableEq A]

theorem run_supplied (cfg : Config A) (assets : GenericAsset.State A)
    {ops : List (A × Call A)} (hops : ∀ op ∈ ops, op.1 ≠ default ∧ op.2.movesTokens = true) :
    Supplied (execute (mintStep cfg) (.genesis assets, []) ops).1
      (execute (mintStep cfg) (.genesis assets, []) ops).2 :=
  execute_invariant (I := fun x : State A × _ => Supplied x.1 x.2) (fun op hop _ => mintStep_supplied (hops op hop))
    (genesis_supplied assets)

/-- The issuance of a series is the number of its tokens that have an owner, each of which was minted, and none twice.
-/
def SupplyExact (x : State A × List (SeriesKey × SerialNumber)) : Prop :=
  (∀ key, (x.1.seriesIssuance.getD key 0).toNat = x.1.existing key) ∧
    (∀ k, x.1.tokenOwner.contains k = true → k ∈ x.2) ∧ x.2.Nodup

/-- The supply is exact after every run of mints, transfers and burns that the default account signs none of. -/
theorem supply_exact_of_run (cfg : Config A) (assets : GenericAsset.State A) (ops : List (A × Call A))
    (hops : ∀ op ∈ ops, op.1 ≠ default ∧ op.2.movesTokens = true) :
    SupplyExact (execute (mintStep cfg) (.genesis assets, []) ops) := by
  have hrun := run_supplied cfg assets hops
  refine ⟨hrun.issuance, fun k hk => ?_, hrun.once⟩
  obtain ⟨owner, hget⟩ := contains_iff.mp hk
  exact hrun.minted k owner hget

/-! ### Recounting -/

/-- The counts of the series are right, the default account having none, and those of other series stay. -/
structure Repairs (s s' : State A) (key : SeriesKey) : Prop where
  counts : ∀ who, (s'.balanceOf who key).toNat = if who = default then 0 else s.owned who key
  others : ∀ who k, k ≠ key → (s'.tokenBalance.getD who ∅).get? k = (s.tokenBalance.getD who ∅).get? k

/-- Every serial number below the counter has an owner, and nobody without a token has a count. -/
structure Recountable (s : State A) (key : SeriesKey) : Prop where
  owned : ∀ n : SerialNumber, n.toNat < (s.nextSerialNumber.getD key 0).toNat → s.ownerOf (key.1, key.2, n) ≠ default
  counted : ∀ who, who = default ∨ s.owned who key = 0 → s.balanceOf who key = 0

def State.found (s : State A) (who : A) (key : SeriesKey) : Nat :=
  (serialRange 0 (s.nextSerialNumber.getD key 0)).countP fun n => s.ownerOf (key.1, key.2, n) = who

variable {s s' : State A} {key : SeriesKey}

theorem found_eq_owned {who : A} (hbe : ∀ n owner, s.tokenOwner.get? (key, n) = some owner →
    n.toNat < (s.nextSerialNumber.getD key 0).toNat) (hwho : who ≠ default) : s.found who key = s.owned who key := by
  have hpe : List.Perm (((s.tokenOwner.iterPrefix key).filter fun e => e.2 = who).map Prod.fst)
      ((serialRange 0 (s.nextSerialNumber.getD key 0)).filter fun n => s.ownerOf (key.1, key.2, n) = who) := by
    have hke := nodup_iterPrefix_keys s.tokenOwner key
    refine (perm_ext_iff_of_nodup (hke.sublist (filter_sublist.map Prod.fst))
      ((nodup_serialRange _ _).filter _)).mpr fun n => ?_
    simp only [mem_map, mem_filter, mem_serialRange, decide_eq_true_eq, Prod.exists, exists_and_right,
      exists_eq_right, mem_iterPrefix]
    constructor
    · intro hget
      exact ⟨⟨Nat.zero_le _, hbe n who hget⟩, getD_of_get? hget⟩
    · rintro ⟨-, hwn⟩
      exact owner_of_ownerOf hwn hwho
  unfold State.found State.owned
  rw [countP_eq_length_filter, countP_eq_length_filter, ← hpe.length_eq, length_map]

theorem recounted (hc : updateTokenBalance s key.1 key.2 = .ok s') (who : A) :
    s'.tokenBalance.getD who ∅ = if s.found who key = 0 then s.tokenBalance.getD who ∅
      else (s.tokenBalance.getD who ∅).insert key (BitVec.ofNat 32 (s.found who key)) := by
  simp only [updateTokenBalance, bind_eq_ok, pure_eq_ok] at hc
  obtain ⟨-, -, -, -, -, -, rfl⟩ := hc
  dsimp only
  generalize hco : List.foldl _ (∅ : StorageMap A TokenCount) _ = counts
  have hget : counts.get? who = if s.found who key = 0 then none else some (0#32 + BitVec.ofNat 32 (s.found who key)) := by
    rw [← hco]
    exact get?_foldl_count _ who
  obtain ⟨hin, hout⟩ := getD_foldl_update (m := s.tokenBalance) (d := ∅) (g := fun b count => b.insert key count)
    (nodup_keys counts) who
  split_ifs with hz
  · rw [if_pos hz] at hget
    refine hout fun hmem => ?_
    obtain ⟨⟨_, count⟩, he, rfl⟩ := mem_map.mp hmem
    cases hget.symm.trans (mem_entries.mp he)
  · rw [if_neg hz, BitVec.zero_add] at hget
    exact hin _ (mem_entries.mpr hget)

theorem recounted_balanceOf (hc : updateTokenBalance s key.1 key.2 = .ok s') (who : A) :
    (s'.balanceOf who key).toNat = if s.found who key = 0 then (s.balanceOf who key).toNat else s.found who key := by
  have hlt : s.found who key < 2 ^ 32 := by
    refine Nat.lt_of_le_of_lt countP_le_length ?_
    unfold serialRange
    rw [length_map, length_range']
    exact Nat.lt_of_le_of_lt (Nat.sub_le _ _) (BitVec.isLt _)
  unfold State.balanceOf
  rw [recounted hc who]
  split
  · rfl
  · rw [getD_insert, if_pos rfl, BitVec.toNat_ofNat, Nat.mod_eq_of_lt hlt]

theorem repairs_iff (hbe : ∀ n owner, s.tokenOwner.get? (key, n) = some owner →
    n.toNat < (s.nextSerialNumber.getD key 0).toNat) (hc : updateTokenBalance s key.1 key.2 = .ok s') :
    Repairs s s' key ↔ Recountable s key := by
  have hco := recounted_balanceOf hc
  have hn : s.found default key = 0 ↔
      ∀ n : SerialNumber, n.toNat < (s.nextSerialNumber.getD key 0).toNat → s.ownerOf (key.1, key.2, n) ≠ default := by
    simp [State.found, countP_eq_zero, mem_serialRange]
  constructor
  · intro h
    have hde := h.counts default
    rw [if_pos rfl, hco] at hde
    have hfo : s.found default key = 0 := by
      split at hde <;> assumption
    rw [if_pos hfo] at hde
    refine ⟨hn.mp hfo, fun who hwho => BitVec.eq_of_toNat_eq ?_⟩
    rcases eq_or_ne who default with rfl | hne
    · exact hde
    · have hwn := hwho.resolve_left hne
      have hri := h.counts who
      rw [if_neg hne, hco, found_eq_owned hbe hne, if_pos hwn] at hri
      exact hri.trans hwn
  · intro h
    refine ⟨fun who => ?_, fun who k hk => ?_⟩
    · rw [hco]
      rcases eq_or_ne who default with rfl | hne
      · rw [if_pos (hn.mpr h.owned), if_pos rfl, h.counted _ (Or.inl rfl)]
        rfl
      · rw [if_neg hne, found_eq_owned hbe hne]
        split_ifs with hz
        · rw [h.counted who (Or.inr hz), hz]
          rfl
        · rfl
    · rw [recounted hc who]
      split
      · rfl
      · exact get?_insert_ne hk

/-- In a state that mints, transfers and burns lead to, with any counts, the recount of a series repairs them exactly if
none of its tokens is burnt or the default account's and only owners have counts. -/
theorem recount_repairs_iff (cfg : Config A) (assets : GenericAsset.State A) (ops : List (A × Call A))
    (hops : ∀ op ∈ ops, op.1 ≠ default ∧ op.2.movesTokens = true)
    (tokenBalance : StorageMap A (StorageMap SeriesKey TokenCount)) (s s' : State A)
    (hs : s = { (execute (mintStep cfg) (.genesis assets, []) ops).1 with tokenBalance := tokenBalance })
    (collectionId : CollectionId) (seriesId : SeriesId) (hcall : updateTokenBalance s collectionId seriesId = .ok s') :
    Repairs s s' (collectionId, seriesId) ↔ Recountable s (collectionId, seriesId) := by
  have hrun := run_supplied cfg assets hops
  refine repairs_iff (fun n owner hget => ?_) hcall
  subst hs
  exact (hrun.below (hrun.minted _ owner hget)).2

end

/-! ### A burnt token -/

def mintedThen (call : Call Nat) : List (Nat × Call Nat) :=
  [(1, .createCollection [97] none), (1, .mintSeries 0 2 none (.https [97]) none), (1, call)]

def minted (ops : List (Nat × Call Nat)) : State Nat × List (SeriesKey × SerialNumber) :=
  execute (mintStep plainConfig) (.genesis (.genesis 17000), []) ops

theorem supply_exact_after_burn :
    ∃ ops, ops = mintedThen (.burnBatch 0 0 [0, 1]) ++ [(1, .mintAdditional 0 0 2 none), (1, .transferBatch 0 0 [2, 2] 3)] ∧
      (minted ops).2 = [((0, 0), 0), ((0, 0), 1), ((0, 0), 2), ((0, 0), 3)] ∧ SupplyExact (minted ops) :=
  ⟨_, rfl, by decide, supply_exact_of_run plainConfig _ _ (by decide)⟩

theorem burnt_token_recounted :
    ∃ s s', s = (minted (mintedThen (.burn (0, 0, 0)))).1 ∧ updateTokenBalance s 0 0 = .ok s' ∧
      s.balanceOf 1 (0, 0) = 1 ∧ s.balanceOf 0 (0, 0) = 0 ∧ s'.balanceOf 0 (0, 0) = 1 ∧ ¬Repairs s s' (0, 0) := by
  obtain ⟨s', hc, hone, hz, hco⟩ : ∃ s', updateTokenBalance (minted (mintedThen (.burn (0, 0, 0)))).1 0 0 = .ok s' ∧
      (minted (mintedThen (.burn (0, 0, 0)))).1.balanceOf 1 (0, 0) = 1 ∧
      (minted (mintedThen (.burn (0, 0, 0)))).1.balanceOf 0 (0, 0) = 0 ∧ s'.balanceOf 0 (0, 0) = 1 :=
    ⟨_, rfl, by decide⟩
  refine ⟨_, s', rfl, hc, hone, hz, hco, fun hre => ?_⟩
  have hri := hre.counts 0
  rw [hco] at hri
  exact absurd hri (by decide)

theorem wrong_count_repaired : ∃ s s', s = { (minted (mintedThen (.transfer (0, 0, 1) 2))).1 with
        tokenBalance := (∅ : StorageMap Nat _).insert 1 ((∅ : StorageMap SeriesKey TokenCount).insert (0, 0) 7) } ∧
      updateTokenBalance s 0 0 = .ok s' ∧ s'.balanceOf 1 (0, 0) = 1 ∧ s'.balanceOf 2 (0, 0) = 1 ∧
      Repairs s s' (0, 0) := by
  refine ⟨_, _, rfl, rfl, by decide, by decide, ?_⟩
  refine (recount_repairs_iff plainConfig _ _ (by decide) _ _ _ rfl 0 0 rfl).mpr ⟨fun n hn => ?_, fun who hwho => ?_⟩
  · have hca : n = 0 ∨ n = 1 := by
      have hlt : n.toNat < 2 := hn
      rcases Nat.lt_succ_iff_lt_or_eq.mp hlt with hz | hone
      · exact Or.inl (BitVec.eq_of_toNat_eq (Nat.lt_one_iff.mp hz))
      · exact Or.inr (BitVec.eq_of_toNat_eq hone)
    rcases hca with rfl | rfl <;> decide
  · have hne : who ≠ 1 := by
      rintro rfl
      exact absurd hwho (by decide)
    simp [State.balanceOf, hne, StorageMap.getD]

end Nft
