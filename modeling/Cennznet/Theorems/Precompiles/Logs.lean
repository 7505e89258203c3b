import Cennznet.TokenApprovals
import Cennznet.Theorems.Precompiles.Addresses
import Cennznet.Theorems.Nft.Records

/-! # The logs of the ERC-721 precompiles

A log names the caller of `transferFrom` where the owner belongs. -/

namespace Precompiles

open EthBridge (EthAddress)
open Nft (SerialNumber SeriesKey TokenId)
open PrefixedAddressMapping (intoAccountId)
open Result Steps StorageMap

theorem intoAccountId_injective : Function.Injective intoAccountId :=
  Function.LeftInverse.injective intoAccountId_recovered

def Chain.owner (c : Chain) (key : SeriesKey) (n : SerialNumber) : AccountId := c.nft.ownerOf (key.1, key.2, n)

namespace Erc721PrecompileSet

variable {c c' : Chain} {x : Context} {key : SeriesKey} {source dest : EthAddress} {n : BitVec 256} {logs : List (Log 32)}

theorem readSerialNumber_eq_ok {m : SerialNumber} (h : readSerialNumber n = .ok m) : m.toNat = n.toNat := by
  simp only [readSerialNumber, bind_eq_ok, ensure_eq_ok, pure_eq_ok] at h
  obtain ⟨-, hlt, rfl⟩ := h
  rw [Word.toNat_saturatedInto]
  exact Nat.min_eq_left (Nat.le_sub_one_of_lt hlt)

theorem transferFrom_inv (h : transferFrom c x key source dest n = .ok (c', logs)) : ∃ m nft,
    m.toNat = n.toNat ∧ (x.caller = source ∨ x.caller = c.approvals.erc721Approvals.getD (key.1, key.2, m) 0) ∧
    Nft.transferBatch c.nft (intoAccountId source) key.1 key.2 [m] (intoAccountId dest) = .ok nft ∧
    c' = c.setNft nft ∧ logs = [⟨x.address, .transfer, (x.caller, dest), m⟩] := by
  simp only [transferFrom, bind_eq_ok, ensure_eq_ok, mapError_eq_ok, pure_eq_ok, Prod.mk.injEq] at h
  obtain ⟨m, hm, -, hca, nft, htr, rfl, rfl⟩ := h
  exact ⟨m, nft, readSerialNumber_eq_ok hm, hca, htr, rfl, rfl⟩

/-- A call that fails is undone and leaves no log. -/
def outcome (key : SeriesKey) (c : Chain) (op : Context × Call) : Chain × List (Log 32) :=
  getD (call c op.1 key op.2) (c, [])

def step (key : SeriesKey) (c : Chain) (op : Context × Call) : Chain := (outcome key c op).1

def runLogs (key : SeriesKey) : Chain → List (Context × Call) → List (Log 32)
  | _, [] => []
  | c, op :: ops => (outcome key c op).2 ++ runLogs key (step key c op) ops

def replay (owner : SerialNumber → AccountId) (log : Log 32) : SerialNumber → AccountId :=
  match log.event with
  | .transfer => Function.update owner log.data (intoAccountId log.topics.2)
  | .approval => owner

/-- A transfer that succeeds leaves one log, of the owners before and after it. -/
def LogRight (key : SeriesKey) (c : Chain) (op : Context × Call) : Prop :=
  ∀ source dest n, op.2 = .transferFrom source dest n → ∀ c' logs, call c op.1 key op.2 = .ok (c', logs) →
    ∃ log, logs = [log] ∧ log.event = .transfer ∧ log.data.toNat = n.toNat ∧
      intoAccountId log.topics.1 = c.owner key log.data ∧ intoAccountId log.topics.2 = c'.owner key log.data

def ByOwner (key : SeriesKey) (c : Chain) (op : Context × Call) : Prop :=
  ∀ source dest n, op.2 = .transferFrom source dest n → (call c op.1 key op.2).isOk = true → op.1.caller = source

theorem ownerOf_setNft {nft : Nft.State AccountId} {m : SerialNumber}
    (h : Nft.transferBatch c.nft (intoAccountId source) key.1 key.2 [m] (intoAccountId dest) = .ok nft) :
    c.owner key m = intoAccountId source ∧ (c.setNft nft).owner key = Function.update (c.owner key) m (intoAccountId dest) := by
  obtain ⟨hmo, hre⟩ := Nft.transferBatch_inv h
  refine ⟨(hmo m List.mem_cons_self).2, funext fun k => ?_⟩
  have hwn : nft.tokenOwner = c.nft.tokenOwner.insert (key, m) (intoAccountId dest) := congrArg Nft.Records.owner hre
  have hk : nft.ownerOf (key.1, key.2, k) = nft.tokenOwner.getD (key, k) default := rfl
  show nft.ownerOf (key.1, key.2, k) = _
  rw [hk, hwn, getD_insert, Function.update_apply]
  simp only [Prod.mk.injEq, true_and]
  rfl

theorem logRight_iff (c : Chain) (op : Context × Call) : LogRight key c op ↔ ByOwner key c op := by
  obtain ⟨x, call⟩ := op
  refine forall_congr' fun source => forall_congr' fun dest => forall_congr' fun n => forall_congr' fun hop => ?_
  obtain rfl : call = .transferFrom source dest n := hop
  constructor
  · intro hl hok
    obtain ⟨⟨c', logs⟩, hc⟩ := exists_eq_ok hok
    obtain ⟨m, nft, -, -, htr, -, rfl⟩ := transferFrom_inv hc
    obtain ⟨log, hlo, -, -, hwn, -⟩ := hl c' _ hc
    cases hlo
    exact intoAccountId_injective (hwn.trans (ownerOf_setNft htr).1)
  · intro hca c' logs hc
    obtain rfl : x.caller = source := hca (congrArg Except.isOk hc)
    obtain ⟨m, nft, hm, -, htr, rfl, rfl⟩ := transferFrom_inv hc
    obtain ⟨hbe, haf⟩ := ownerOf_setNft htr
    exact ⟨_, rfl, rfl, hm, hbe.symm, (congrFun haf m).trans (Function.update_self ..) |>.symm⟩

theorem replay_outcome (c : Chain) (op : Context × Call) :
    (outcome key c op).2.foldl replay (c.owner key) = (step key c op).owner key := by
  obtain ⟨x, call⟩ := op
  refine getD_cases (P := fun y : Chain × List (Log 32) => y.2.foldl replay (c.owner key) = y.1.owner key) (fun y hy => ?_) rfl
  cases call with
  | approve operator n =>
    have h : approve c x key operator n = .ok y := hy
    simp only [approve, bind_eq_ok, pure_eq_ok] at h
    obtain ⟨_, -, _, -, rfl⟩ := h
    rfl
  | transferFrom source dest n =>
    obtain ⟨m, nft, -, -, htr, hc, hl⟩ := transferFrom_inv hy
    rw [hc, hl]
    exact (ownerOf_setNft htr).2.symm

theorem replay_runLogs (ops : List (Context × Call)) :
    (runLogs key c ops).foldl replay (c.owner key) = (Steps.execute (step key) c ops).owner key := by
  induction ops generalizing c with
  | nil => rfl
  | cons op ops ih => rw [runLogs, List.foldl_append, replay_outcome, ih, execute_cons]

/-- The logs of a run are right exactly if each transfer that succeeds is called by the owner. The owners they lead to
are right in any case. -/
theorem logs_right_iff (key : SeriesKey) (c : Chain) (ops : List (Context × Call)) :
    (Each (step key) (LogRight key) c ops ∧
      (runLogs key c ops).foldl replay (c.owner key) = (Steps.execute (step key) c ops).owner key) ↔
    Each (step key) (ByOwner key) c ops :=
  (and_iff_left (replay_runLogs ops)).trans (each_congr logRight_iff)

/-- Token 0 of a series, which address 1 owns. -/
def oneToken : Chain := ⟨Nft.doMint (.genesis (.genesis 0)) (intoAccountId 1) (0, 0) 0 1, .genesis⟩

def operatorMoves : List (Context × Call) := [(⟨0, 1⟩, .approve 2 0), (⟨0, 2⟩, .transferFrom 1 3 0)]

theorem operator_logged : (runLogs (0, 0) oneToken operatorMoves).map Log.topics = [(1, 2), (2, 3)] ∧
      oneToken.owner (0, 0) 0 = intoAccountId 1 ∧ ¬Each (step (0, 0)) (LogRight (0, 0)) oneToken operatorMoves := by
  refine ⟨by decide +kernel, by decide +kernel, fun h => ?_⟩
  obtain ⟨-, h, -⟩ := (each_congr logRight_iff).mp h
  exact absurd (h 1 3 0 rfl (by decide +kernel)) (by decide)

end Erc721PrecompileSet

end Precompiles
