import Cennznet.Theorems.GenericAsset.Locks

/-! # The list of locks -/

namespace GenericAsset

open Steps StorageMap List

variable {A : Type} [DecidableEq A]

inductive LockOp where
  | set (id : LockIdentifier) (amount : Balance) (reasons : WithdrawReasons)
  | extend (id : LockIdentifier) (amount : Balance) (reasons : WithdrawReasons)
  | remove (id : LockIdentifier)

def LockOp.id : LockOp → LockIdentifier
  | .set id _ _ => id
  | .extend id _ _ => id
  | .remove id => id

def lockStep (a : AssetId) (who : A) (s : State A) : LockOp → State A
  | .set id amount reasons => setLock s id a who amount reasons
  | .extend id amount reasons => extendLock s id a who amount reasons
  | .remove id => removeLock s id a who

def LocksOnce (a : AssetId) (who : A) (s : State A) : Prop :=
  ∀ id, ((s.locksOf a who).filter (·.id = id)).length ≤ 1

/-- The lock is of no lower amount than `l`, and forbids what `l` forbids. -/
def BalanceLock.Extends (l' l : BalanceLock) : Prop :=
  l.amount.toNat ≤ l'.amount.toNat ∧ ∀ reasons newBalance, l'.allows reasons newBalance → l.allows reasons newBalance

structure LockWritten (a : AssetId) (who : A) (s : State A) (op : LockOp) : Prop where
  own : match op with
    | .set id amount reasons =>
      ((lockStep a who s op).locksOf a who).filter (·.id = id) = [⟨id, amount, .ofWithdrawReasons reasons⟩]
    | .extend id amount reasons =>
      ∃ l', ((lockStep a who s op).locksOf a who).filter (·.id = id) = [l'] ∧
        l'.Extends ⟨id, amount, .ofWithdrawReasons reasons⟩ ∧ ∀ l ∈ s.locksOf a who, l.id = id → l'.Extends l
    | .remove id => ((lockStep a who s op).locksOf a who).filter (·.id = id) = []
  others : ((lockStep a who s op).locksOf a who).filter (·.id ≠ op.id) = (s.locksOf a who).filter (·.id ≠ op.id)

section
variable {s : State A} {id : LockIdentifier} {a : AssetId} {who other : A} {locks : List BalanceLock}

theorem filter_mergeLock {f : BalanceLock → BalanceLock → BalanceLock}
    (hf : ∀ l n, l.id = id → n.id = id → (f l n).id = id) (new : Option BalanceLock) (hid : ∀ n ∈ new, n.id = id)
    (locks : List BalanceLock) :
    (mergeLock f id new locks).filter (·.id ≠ id) = locks.filter (·.id ≠ id) ∧
      (mergeLock f id new locks).filter (·.id = id) =
        (new.map fun n => ((locks.find? (·.id = id)).map (f · n)).getD n).toList := by
  induction locks generalizing new with
  | nil =>
    cases new with
    | none => exact ⟨rfl, rfl⟩
    | some n => simp [mergeLock, hid n rfl]
  | cons l locks ih =>
    by_cases hl : l.id = id
    · obtain ⟨hoth, hown⟩ := ih none fun n h => by cases h
      cases new with
      | none => simp_all [mergeLock]
      | some n => simp_all [mergeLock]
    · obtain ⟨hoth, hown⟩ := ih new hid
      simp_all [mergeLock]

theorem replaceLock_eq (new : Option BalanceLock) : replaceLock id new locks = mergeLock (fun _ n => n) id new locks := by
  induction locks generalizing new with
  | nil => rfl
  | cons l locks ih => rw [replaceLock, mergeLock, ih, ih, Option.map_id']

theorem filter_setLock (n : Balance) (rs : WithdrawReasons) :
    ((setLock s id a who n rs).locksOf a who).filter (·.id ≠ id) = (s.locksOf a who).filter (·.id ≠ id) ∧
      ((setLock s id a who n rs).locksOf a who).filter (·.id = id) = [⟨id, n, .ofWithdrawReasons rs⟩] := by
  unfold State.locksOf setLock
  rw [getD_insert, if_pos rfl, replaceLock_eq]
  obtain ⟨hoth, hown⟩ := filter_mergeLock (f := fun _ n => n) (fun _ _ _ hn => hn)
    (some ⟨id, n, .ofWithdrawReasons rs⟩) (fun n h => by cases h; rfl) (s.locks.getD (a, who) [])
  refine ⟨hoth, hown.trans ?_⟩
  cases (s.locks.getD (a, who) []).find? (·.id = id) <;> rfl

theorem overlaps_bitor {p q r : Reasons} (h : p.Overlaps r ∨ q.Overlaps r) : (p.bitor q).Overlaps r := by
  revert h
  cases p <;> cases q <;> cases r <;> decide

theorem extends_extend (l n : BalanceLock) : (l.extend n).Extends l ∧ (l.extend n).Extends n := by
  have hle : l.amount.toNat ≤ (l.extend n).amount.toNat ∧ n.amount.toNat ≤ (l.extend n).amount.toNat := by
    unfold BalanceLock.extend
    dsimp only
    split <;> omega
  refine ⟨⟨hle.1, fun rs nb h => ?_⟩, hle.2, fun rs nb h => ?_⟩
  · rw [allows_iff] at h ⊢
    exact fun ho => hle.1.trans (h (overlaps_bitor (.inl ho)))
  · rw [allows_iff] at h ⊢
    exact fun ho => hle.2.trans (h (overlaps_bitor (.inr ho)))

theorem locksOf_removeLock : (removeLock s id a who).locksOf a who = (s.locksOf a who).filter (·.id ≠ id) := by
  unfold State.locksOf removeLock
  dsimp only
  split_ifs with he
  · rw [getD_remove, if_pos rfl, isEmpty_iff.mp he]
  · rw [getD_insert, if_pos rfl]

theorem locksOf_setLock_ne (n : Balance) (rs : WithdrawReasons) (h : other ≠ who) :
    (setLock s id a who n rs).locksOf a other = s.locksOf a other := by
  unfold State.locksOf setLock
  rw [getD_insert, if_neg fun h' => h (Prod.mk.inj h').2]

theorem locksOf_removeLock_ne (h : other ≠ who) : (removeLock s id a who).locksOf a other = s.locksOf a other := by
  have hne : (a, other) ≠ (a, who) := fun h' => h (Prod.mk.inj h').2
  unfold State.locksOf removeLock
  dsimp only
  split
  · rw [getD_remove, if_neg hne]
  · rw [getD_insert, if_neg hne]

theorem LocksOnce.written (h : LocksOnce a who s) (op : LockOp) : LockWritten a who s op := by
  cases op with
  | set id n rs => exact ⟨(filter_setLock n rs).2, (filter_setLock n rs).1⟩
  | extend id n rs =>
    have hlo : (extendLock s id a who n rs).locksOf a who =
        mergeLock .extend id (some ⟨id, n, .ofWithdrawReasons rs⟩) (s.locksOf a who) := by
      unfold State.locksOf extendLock
      rw [getD_insert, if_pos rfl]
    obtain ⟨hoth, hown⟩ := filter_mergeLock (f := .extend) (fun _ _ hl _ => hl)
      (some ⟨id, n, .ofWithdrawReasons rs⟩) (fun n h => by cases h; rfl) (s.locksOf a who)
    refine ⟨⟨_, (congrArg _ hlo).trans hown, ?_⟩, (congrArg _ hlo).trans hoth⟩
    cases hf : (s.locksOf a who).find? (·.id = id) with
    | none => exact ⟨⟨le_rfl, fun _ _ h => h⟩, fun l hl hid => absurd (find?_eq_none.mp hf l hl) (by simpa using hid)⟩
    | some l =>
      refine ⟨(extends_extend l _).2, fun l' hl' hid => ?_⟩
      -- the one lock with the identifier is the one found
      have hmem {l : BalanceLock} (hl : l ∈ s.locksOf a who) (hid : l.id = id) :
          l ∈ (s.locksOf a who).filter (·.id = id) := mem_filter.mpr ⟨hl, by simpa using hid⟩
      have heq : l' = l := by
        obtain ⟨i, hi, rfl⟩ := getElem_of_mem (hmem hl' hid)
        obtain ⟨j, hj, rfl⟩ := getElem_of_mem (hmem (mem_of_find?_eq_some hf) (by simpa using find?_some hf))
        have hle := h id
        congr 1
        omega
      exact heq ▸ (extends_extend l _).1
  | remove id =>
    have hlo : (lockStep a who s (.remove id)).locksOf a who = (s.locksOf a who).filter (·.id ≠ id) := locksOf_removeLock
    constructor
    · rw [hlo]
      exact filter_eq_nil_iff.mpr fun l hl => by simpa using (mem_filter.mp hl).2
    · rw [hlo]
      exact filter_eq_self.mpr fun l hl => (mem_filter.mp hl).2

theorem filter_filter_ne {i j : LockIdentifier} (h : j ≠ i) :
    (locks.filter (·.id ≠ i)).filter (·.id = j) = locks.filter (·.id = j) := by
  rw [filter_filter]
  refine filter_congr fun l _ => ?_
  by_cases hl : l.id = j <;> simp [hl, h]

theorem LockWritten.once {op : LockOp} (w : LockWritten a who s op) (h : LocksOnce a who s) :
    LocksOnce a who (lockStep a who s op) := by
  intro id
  by_cases hid : id = op.id
  · subst hid
    have hown := w.own
    cases op with
    | set id n rs => exact (congrArg length hown).le
    | extend id n rs =>
      obtain ⟨l', hl', -⟩ := hown
      exact (congrArg length hl').le
    | remove id => exact (congrArg length hown).le.trans (Nat.zero_le 1)
  · rw [← filter_filter_ne hid, w.others, filter_filter_ne hid]
    exact h id

end

/-- In every run of lock operations on an account and asset, an identifier occurs at most once, and each operation
writes just its own lock. -/
theorem lock_list_is_map (s : State A) (assetId : AssetId) (who : A) (h : LocksOnce assetId who s) (ops : List LockOp) :
    (∀ done, done <+: ops → LocksOnce assetId who (execute (lockStep assetId who) s done)) ∧
      Each (lockStep assetId who) (LockWritten assetId who) s ops := by
  have hkeep (s : State A) (op : LockOp) (h : LocksOnce assetId who s) :
      LocksOnce assetId who (lockStep assetId who s op) := (h.written op).once h
  exact ⟨fun done _ => execute_invariant (fun op _ s => hkeep s op) h,
    each_of_invariant hkeep (fun s op h => h.written op) h⟩

theorem lock_list_is_map_genesis : LocksOnce 1 7 (State.genesis 9 : State Nat) ∧
    Each (lockStep 1 7) (LockWritten 1 7) (State.genesis 9 : State Nat)
      [.set 1 50 .transactionPayment, .extend 1 20 .transfer, .remove 2] := by
  have h : LocksOnce 1 7 (State.genesis 9 : State Nat) := fun _ => Nat.zero_le 1
  exact ⟨h, (lock_list_is_map _ 1 7 h _).2⟩

end GenericAsset
