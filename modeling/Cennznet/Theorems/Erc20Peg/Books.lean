import Cennznet.Erc20Peg
import Cennznet.Theorems.GenericAsset.Conservation
import Mathlib.Logic.Relation

/-! # What a step of the peg does to its books -/

namespace Erc20Peg

open EthBridge (Bytes EthAddress EthHash EventClaimId EventProofId)
open GenericAsset
open Result Word

variable {K A : Type}

structure Books (A : Type) where
  assets : GenericAsset.State A
  tokens : StorageMap EthAddress AssetId
  pegged : StorageMap AssetId EthAddress
  delayed : StorageMap ClaimId PendingClaim
  nextClaim : ClaimId
  messages : List WithdrawMessage
  deposits : List (AssetId × Balance)

def Event.deposit? : Event A → Option (AssetId × Balance)
  | .erc20Deposit _ aid n _ => some (aid, n)
  | _ => none

def State.books (s : State K A) : Books A where
  assets := s.assets
  tokens := s.erc20ToAssetId
  pegged := s.assetIdToErc20
  delayed := s.delayedClaims
  nextClaim := s.nextDelayedClaimId
  messages := s.messages
  deposits := s.events.filterMap Event.deposit?

theorem depositEvent_books (s : State K A) (ev : Event A) :
    (depositEvent s ev).books = { s.books with deposits := s.books.deposits ++ ev.deposit?.toList } := by
  unfold State.books depositEvent
  rw [List.filterMap_append]
  cases ev <;> rfl

theorem depositEvent_books_of_none {s : State K A} {ev : Event A} (h : ev.deposit? = none) :
    (depositEvent s ev).books = s.books := by
  rw [depositEvent_books, h]
  unfold State.books
  rw [Option.toList_none, List.append_nil]

namespace Books

def delay (b : Books A) (claim : PendingClaim) : Books A :=
  { b with delayed := b.delayed.insert b.nextClaim claim, nextClaim := b.nextClaim + 1 }

def prove (b : Books A) (ms : WithdrawMessage) : Books A :=
  { b with messages := b.messages ++ [ms] }

def take (b : Books A) (id : ClaimId) : Books A := { b with delayed := b.delayed.remove id }

/-- Processing a delayed claim does nothing if there is none, submits a deposit to the bridge, and proves a withdrawal
if its token is known. -/
inductive Processed : Books A → Books A → Prop
  | none (b : Books A) : Processed b b
  | submit {b : Books A} {id : ClaimId} {claim : Erc20DepositEvent} {txHash : EthHash}
      (listed : b.delayed.get? id = some (.deposit claim txHash)) : Processed b (b.take id)
  | prove {b : Books A} {id : ClaimId} {ms : WithdrawMessage} {aid : AssetId}
      (listed : b.delayed.get? id = some (.withdrawal ms))
      (known : b.tokens.get? ms.tokenAddress = some aid) : Processed b ((b.take id).prove ms)
  | lose {b : Books A} {id : ClaimId} {ms : WithdrawMessage}
      (listed : b.delayed.get? id = some (.withdrawal ms))
      (unknown : b.tokens.get? ms.tokenAddress = .none) : Processed b (b.take id)

abbrev ProcessedAll : Books A → Books A → Prop := Relation.ReflTransGen Processed

end Books

theorem processed_leaves {b b' : Books A} (h : b.ProcessedAll b') :
    b'.assets = b.assets ∧ b'.tokens = b.tokens ∧ b'.pegged = b.pegged := by
  induction h with
  | refl => exact ⟨rfl, rfl, rfl⟩
  | tail _ hs ih =>
    cases hs with
    | none => exact ih
    | submit => exact ih
    | prove => exact ih
    | lose => exact ih

def Books.Withdrew (b : Books A) (ms : WithdrawMessage) (b' : Books A) : Prop :=
  b' = b.prove ms ∨
    (b.nextClaim.toNat + 1 < 2 ^ 64 ∧ b' = b.delay (.withdrawal ms)) ∨ (b.nextClaim.toNat + 1 = 2 ^ 64 ∧ b' = b)

theorem withdrew_leaves {b b' : Books A} {msg : WithdrawMessage} (h : b.Withdrew msg b') :
    b'.assets = b.assets ∧ b'.tokens = b.tokens ∧ b'.pegged = b.pegged := by
  rcases h with rfl | ⟨-, rfl⟩ | ⟨-, rfl⟩
  · exact ⟨rfl, rfl, rfl⟩
  · exact ⟨rfl, rfl, rfl⟩
  · exact ⟨rfl, rfl, rfl⟩

variable {cfg : Config A} {s s' : State K A}

/-! ### Delayed claims -/

theorem processDepositClaim_books {claim : Erc20DepositEvent} {tx : EthHash}
    (h : processDepositClaim cfg s claim tx = .ok s') : s'.books = s.books := by
  simp only [processDepositClaim, bind_eq_ok] at h
  obtain ⟨ben, -, h⟩ := h
  split at h <;> cases h
  · exact depositEvent_books_of_none rfl
  · exact depositEvent_books_of_none rfl

theorem processWithdrawal_books {ms : WithdrawMessage} {aid : AssetId} {pid : EventProofId}
    (h : processWithdrawal cfg s ms aid = .ok (s', pid)) : s'.books = s.books.prove ms := by
  simp only [processWithdrawal, bind_eq_ok, pure_eq_ok, Prod.mk.injEq] at h
  obtain ⟨n, -, rfl, -⟩ := h
  exact depositEvent_books_of_none rfl

theorem delayedEvent_deposit? {id : ClaimId} {bl : BlockNumber} {claim : PendingClaim} {ev : Event A}
    (h : delayedEvent cfg id bl claim = .ok ev) : ev.deposit? = none := by
  cases claim with
  | withdrawal msg =>
    simp only [delayedEvent, bind_eq_ok, pure_eq_ok] at h
    obtain ⟨n, -, rfl⟩ := h
    rfl
  | deposit claim tx =>
    simp only [delayedEvent, bind_eq_ok, pure_eq_ok] at h
    obtain ⟨ben, -, n, -, rfl⟩ := h
    rfl

def State.delay (s : State K A) (bl : BlockNumber) (claim : PendingClaim) : State K A :=
  { s with
    delayedClaims := s.delayedClaims.insert s.nextDelayedClaimId claim
    delayedClaimSchedule := s.delayedClaimSchedule.insert bl
      (s.delayedClaimSchedule.getD bl [] ++ [s.nextDelayedClaimId])
    nextDelayedClaimId := s.nextDelayedClaimId + 1 }

theorem delayClaim_inv {delay : BlockNumber} {claim : PendingClaim} (h : delayClaim cfg s delay claim = .ok s') :
    (s.nextDelayedClaimId.toNat + 1 = 2 ^ 64 ∧ s' = depositEvent s .noAvailableClaimIds) ∨
      (s.nextDelayedClaimId.toNat + 1 < 2 ^ 64 ∧ ∃ ev,
        delayedEvent cfg s.nextDelayedClaimId (saturatingAdd s.blockNumber delay) claim = .ok ev ∧
        s' = depositEvent (s.delay (saturatingAdd s.blockNumber delay) claim) ev) := by
  unfold delayClaim at h
  dsimp only at h
  cases hx : checkedAdd s.nextDelayedClaimId 1 with
  | none =>
    rw [hx] at h
    cases h
    refine Or.inl ⟨?_, rfl⟩
    have hlt := s.nextDelayedClaimId.isLt
    by_contra hr
    obtain ⟨next, heq⟩ := exists_toNat_eq (w := 64) (n := s.nextDelayedClaimId.toNat + 1) (by omega)
    rw [checkedAdd_eq_some.mpr heq.symm] at hx
    cases hx
  | some next =>
    rw [hx] at h
    simp only [bind_eq_ok, pure_eq_ok] at h
    obtain ⟨ev, hev, rfl⟩ := h
    have hsum : s.nextDelayedClaimId.toNat + 1 = next.toNat := checkedAdd_eq_some.mp hx
    obtain rfl : next = s.nextDelayedClaimId + 1 := by bv_omega
    exact Or.inr ⟨hsum ▸ (s.nextDelayedClaimId + 1).isLt, ev, hev, rfl⟩

theorem delayClaim_books {delay : BlockNumber} {claim : PendingClaim} (h : delayClaim cfg s delay claim = .ok s') :
    (s.nextDelayedClaimId.toNat + 1 = 2 ^ 64 ∧ s'.books = s.books) ∨
      (s.nextDelayedClaimId.toNat + 1 < 2 ^ 64 ∧ s'.books = s.books.delay claim) := by
  rcases delayClaim_inv h with ⟨hfu, rfl⟩ | ⟨hr, ev, hev, rfl⟩
  · exact Or.inl ⟨hfu, depositEvent_books_of_none rfl⟩
  · exact Or.inr ⟨hr, depositEvent_books_of_none (delayedEvent_deposit? hev)⟩

theorem processClaim_books {id : ClaimId} (h : processClaim cfg s id = .ok s') : s.books.Processed s'.books := by
  unfold processClaim at h
  split at h
  · cases h
    exact .none _
  · rename_i claim hli
    dsimp only at h
    split at h
    · rename_i claim tx
      rw [processDepositClaim_books h]
      exact .submit hli
    · rename_i msg
      split at h
      · rename_i aid hkn
        obtain ⟨r, hr, rfl⟩ := map_eq_ok.mp h
        rw [processWithdrawal_books hr]
        exact .prove hli hkn
      · rename_i hun
        cases h
        exact .lose hli hun

theorem processClaims_books {ids : List ClaimId} (h : processClaims cfg s ids = .ok s') :
    s.books.ProcessedAll s'.books := by
  induction ids generalizing s with
  | nil =>
    cases h
    exact .refl
  | cons id rest ih =>
    obtain ⟨s₁, hfi, hr⟩ := bind_eq_ok.mp h
    exact .head (processClaim_books hfi) (ih hr)

theorem processReadyBlocks_books {maxC claims blocks claims' blocks' : BitVec 8} {ready : List BlockNumber}
    (h : processReadyBlocks cfg maxC s claims blocks ready = .ok (s', claims', blocks')) :
    s.books.ProcessedAll s'.books := by
  induction ready generalizing s claims blocks with
  | nil =>
    cases h
    exact .refl
  | cons bl rest ih =>
    unfold processReadyBlocks at h
    obtain ⟨s₁, hcl, hr⟩ := bind_eq_ok.mp h
    have hfi := processClaims_books hcl
    split at hr
    · cases hr
      exact hfi
    · exact hfi.trans (ih hr)

theorem onIdle_books {rem used : Weight} (h : onIdle cfg s rem = .ok (s', used)) : s.books.ProcessedAll s'.books := by
  unfold onIdle at h
  dsimp only at h
  split at h
  · cases h
    exact .refl
  split at h
  · cases h
    exact .refl
  obtain ⟨⟨s₁, claims, blocks⟩, hre, hend⟩ := bind_eq_ok.mp h
  cases hend
  have hall := processReadyBlocks_books hre
  exact hall

section
variable [DecidableEq A]

def TookPayment (cfg : Config A) (assets : GenericAsset.State A) (o : A) (aid : AssetId)
    (n : Balance) (assets' : GenericAsset.State A) : Prop :=
  if aid = cfg.stakingCurrency then
    MultiCurrency.transfer cfg.assets assets o cfg.pegAccount aid n = .ok assets'
  else
    ∃ left imbalance, MultiCurrency.withdraw assets o aid n .transfer = .ok (left, imbalance) ∧
      assets' = dropNegative left imbalance

variable {n : Balance} {aid : AssetId} {o : A}

theorem processWithdrawalPayment_inv (h : processWithdrawalPayment cfg s o aid n = .ok s') :
    ∃ assets', TookPayment cfg s.assets o aid n assets' ∧ s' = { s with assets := assets' } := by
  unfold processWithdrawalPayment at h
  unfold TookPayment
  by_cases hst : aid = cfg.stakingCurrency
  · simp only [if_pos hst, bind_eq_ok, mapError_eq_ok, pure_eq_ok] at h ⊢
    obtain ⟨assets', htr, rfl⟩ := h
    exact ⟨assets', htr, rfl⟩
  · simp only [if_neg hst, bind_eq_ok, mapError_eq_ok, pure_eq_ok] at h ⊢
    obtain ⟨⟨left, imb⟩, hwi, rfl⟩ := h
    exact ⟨_, ⟨left, imb, hwi, rfl⟩, rfl⟩

theorem doWithdrawal_cases {ben : EthAddress} {callOrigin : WithdrawCallOrigin} {pid : EventProofId}
    (h : doWithdrawal cfg s o aid n ben callOrigin = .ok (s', pid)) :
    ∃ tok assets', s.assetIdToErc20.get? aid = some tok ∧ TookPayment cfg s.assets o aid n assets' ∧
      ((∃ delay, callOrigin = .runtime ∧ delayFor s aid n.toNat = some delay ∧
          delayClaim cfg { s with assets := assets' } delay (.withdrawal ⟨tok, n.setWidth 256, ben⟩) = .ok s') ∨
        processWithdrawal cfg { s with assets := assets' } ⟨tok, n.setWidth 256, ben⟩ aid = .ok (s', pid)) := by
  simp only [doWithdrawal, bind_eq_ok, ensure_eq_ok, okOr_eq_ok] at h
  obtain ⟨-, -, tok, htok, h⟩ := h
  refine ⟨tok, ?_⟩
  split at h
  · rename_i delay hde
    split at h
    · simp only [bind_eq_ok, pure_eq_ok, Prod.mk.injEq] at h
      obtain ⟨s₁, hpay, s₂, hdl, rfl, -⟩ := h
      obtain ⟨assets', hto, rfl⟩ := processWithdrawalPayment_inv hpay
      exact ⟨assets', htok, hto, Or.inl ⟨delay, rfl, hde, hdl⟩⟩
    · cases h
  · simp only [bind_eq_ok] at h
    obtain ⟨s₁, hpay, hpr⟩ := h
    obtain ⟨assets', hto, rfl⟩ := processWithdrawalPayment_inv hpay
    exact ⟨assets', htok, hto, Or.inr hpr⟩

variable [Inhabited A]

def State.withAsset (s : State K A) (assets : GenericAsset.State A) (token : EthAddress) (aid : AssetId) : State K A :=
  { s with
    assets := assets
    erc20ToAssetId := s.erc20ToAssetId.insert token aid
    assetIdToErc20 := s.assetIdToErc20.insert aid token }

def createFor (cfg : Config A) (s : State K A) (token : EthAddress) :
    Except GenericAsset.Error (GenericAsset.State A × AssetId) :=
  MultiCurrency.create s.assets cfg.pegAccount 0 (s.erc20Meta.getD token ([], 18)).2 1

def State.Creates (s : State K A) (token : EthAddress) : Prop :=
  10 ^ (s.erc20Meta.getD token ([], 18)).2.toNat < 2 ^ 128 ∧ s.assets.nextAssetId.toNat + 1 < 2 ^ 32

def State.opened (cfg : Config A) (s : State K A) (token : EthAddress) : GenericAsset.State A :=
  created s.assets s.assets.nextAssetId (s.assets.nextAssetId + 1) cfg.pegAccount
    { initialIssuance := 0, permissions := .new cfg.pegAccount }
    { decimalPlaces := (s.erc20Meta.getD token ([], 18)).2, existentialDeposit := 1 } 0

theorem createFor_eq_ok {token : EthAddress} {assets : GenericAsset.State A} :
    createFor cfg s token = .ok (assets, aid) ↔
      s.Creates token ∧ aid = s.assets.nextAssetId ∧ assets = s.opened cfg token := by
  unfold createFor MultiCurrency.create
  constructor
  · intro h
    split at h
    · cases h
    · rename_i s' hcr
      cases h
      obtain ⟨-, hdec, total, newId, nextId, htot, hch, rfl⟩ := createAsset_eq_ok.mp hcr
      obtain ⟨rfl, hx⟩ := chooseAssetId_none.mp hch
      have hz : total = 0 := toNat_eq_zero.mp htot.symm
      have hsu : nextId = s.assets.nextAssetId + 1 := by bv_omega
      rw [hz, hsu]
      exact ⟨⟨hdec, hx ▸ nextId.isLt⟩, rfl, rfl⟩
  · rintro ⟨⟨hdec, hr⟩, rfl, rfl⟩
    have hx : s.assets.nextAssetId.toNat + 1 = (s.assets.nextAssetId + 1).toNat := by bv_omega
    have hed : (1 : BitVec 64) ≠ 0 := by decide
    rw [createAsset_eq_ok.mpr ⟨hed, hdec, 0, _, _, Nat.mul_zero _, chooseAssetId_none.mpr ⟨rfl, hx⟩, rfl⟩]
    rfl

theorem assetOf_eq_ok {tok : EthAddress} {s₁ : State K A} : assetOf cfg s tok = .ok (s₁, aid) ↔
      (s.erc20ToAssetId.get? tok = some aid ∧ s₁ = s) ∨
      (s.erc20ToAssetId.get? tok = none ∧ ∃ assets, createFor cfg s tok = .ok (assets, aid) ∧
        s₁ = s.withAsset assets tok aid) := by
  unfold assetOf
  cases htok : s.erc20ToAssetId.get? tok with
  | some known => simp [eq_comm, and_comm]
  | none =>
    simp only [bind_eq_ok, mapError_eq_ok, pure_eq_ok, Prod.exists, Prod.mk.injEq, reduceCtorEq, false_and, false_or,
      true_and]
    constructor
    · rintro ⟨assets, newId, hcr, rfl, rfl⟩
      exact ⟨assets, hcr, rfl⟩
    · rintro ⟨assets, hcr, rfl⟩
      exact ⟨assets, aid, hcr, rfl, rfl⟩

theorem doDeposit_eq_ok {ev : Erc20DepositEvent} {ben : A} :
    doDeposit cfg s ev = .ok (s', aid, n, ben) ↔
      ∃ s₁, assetOf cfg s ev.tokenAddress = .ok (s₁, aid) ∧ cfg.decodeAccount ev.beneficiary = some ben ∧
        ev.amount.toNat = n.toNat ∧
        s' = { s₁ with assets := payDeposit cfg s₁ aid n ben } := by
  simp only [doDeposit, unwrapAccount, asU128, bind_eq_ok, okOr_eq_ok, pure_eq_ok, Prod.exists, Prod.mk.injEq,
    tryFrom_eq_some]
  constructor
  · rintro ⟨s₁, a, hst, b, hb, m, hm, rfl, rfl, rfl, rfl⟩
    exact ⟨s₁, hst, hb, hm, rfl⟩
  · rintro ⟨s₁, hst, hb, hm, rfl⟩
    exact ⟨s₁, aid, hst, ben, hb, n, hm, rfl, rfl, rfl, rfl⟩

end

section
variable [DecidableEq A]

def Op.deposit? (cfg : Config A) (s : State K A) : Op K A → Option Erc20DepositEvent
  | .onSuccess _ contract signature data =>
    if isDeposit cfg s contract signature then Erc20DepositEvent.decode data else none
  | _ => none

variable [Inhabited A]

inductive Effect (cfg : Config A) (s : State K A) (op : Op K A)
    (s' : State K A) : Prop
  | frame (books : s'.books = s.books)
  | delayed (claim : Erc20DepositEvent) (txHash : EthHash) (room : s.books.nextClaim.toNat + 1 < 2 ^ 64)
      (books : s'.books = s.books.delay (.deposit claim txHash))
  | processed (books : s.books.ProcessedAll s'.books)
  | withdrew (o : A) (aid : AssetId) (n : Balance) (token beneficiary : EthAddress)
      (assets : GenericAsset.State A) (pegged : s.assetIdToErc20.get? aid = some token)
      (took : TookPayment cfg s.assets o aid n assets)
      (books : { s.books with assets := assets }.Withdrew ⟨token, n.setWidth 256, beneficiary⟩ s'.books)
  | deposited (event : Erc20DepositEvent) (t : State K A) (aid : AssetId) (n : Balance)
      (beneficiary : A) (executed : op.deposit? cfg s = some event)
      (paid : doDeposit cfg s event = .ok (t, aid, n, beneficiary))
      (books : s'.books = { t.books with deposits := t.books.deposits ++ [(aid, n)] })

theorem doWithdrawal_effect {op : Op K A} {o : A} {aid : AssetId} {n : Balance}
    {ben : EthAddress} {callOrigin : WithdrawCallOrigin}
    (h : Prod.fst <$> doWithdrawal cfg s o aid n ben callOrigin = .ok s') : Effect cfg s op s' := by
  obtain ⟨⟨t, pid⟩, hwi, rfl⟩ := map_eq_ok.mp h
  obtain ⟨tok, assets, hpe, hto, ⟨delay, -, -, hde⟩ | hpr⟩ := doWithdrawal_cases hwi
  · refine .withdrew o aid n tok ben assets hpe hto (Or.inr ?_)
    rcases delayClaim_books hde with ⟨hfu, hbo⟩ | ⟨hr, hbo⟩
    · exact Or.inr ⟨hfu, hbo⟩
    · exact Or.inl ⟨hr, hbo⟩
  · exact .withdrew o aid n tok ben assets hpe hto (Or.inl (processWithdrawal_books hpr))

theorem depositClaim_effect {op : Op K A} {tx : EthHash} {claim : Erc20DepositEvent}
    (h : depositClaim cfg s tx claim = .ok s') : Effect cfg s op s' := by
  simp only [depositClaim, bind_eq_ok] at h
  obtain ⟨-, -, -, -, -, -, h⟩ := h
  split at h
  · rcases delayClaim_books h with ⟨-, hbo⟩ | ⟨hr, hbo⟩
    · exact .frame hbo
    · exact .delayed claim tx hr hbo
  · exact .frame (processDepositClaim_books h)

theorem onSuccess_effect {id : EventClaimId} {con : EthAddress} {sig : EthHash} {data : Bytes}
    (h : onSuccess cfg s id con sig data = .ok s') :
    Effect cfg s (.onSuccess id con sig data) s' := by
  unfold onSuccess at h
  split_ifs at h with hde
  · split at h
    · rename_i event hdc
      split at h
      · rename_i t aid n ben hp
        cases h
        have hex : (Op.onSuccess id con sig data : Op K A).deposit? cfg s = some event := (if_pos hde).trans hdc
        exact .deposited event t aid n ben hex hp (depositEvent_books _ _)
      · cases h
      · cases h
        exact .frame (depositEvent_books_of_none rfl)
    · cases h
      exact .frame rfl
  · cases h
    exact .frame rfl

theorem dispatch_effect {call : Call A} (h : dispatch cfg s call = .ok s') : Effect cfg s (.call call) s' := by
  cases call with
  | activateDeposits | activateWithdrawals | setErc20Meta =>
    cases h
    exact .frame rfl
  | depositClaim tx claim => exact depositClaim_effect h
  | withdraw o aid n ben => exact doWithdrawal_effect h
  | setContractAddress | activateCennzDeposits | setClaimDelay =>
    cases h
    exact .frame (depositEvent_books_of_none rfl)

variable [DecidableEq K]

theorem step_effect (cfg : Config A) (s : State K A) (op : Op K A) : Effect cfg s op (step cfg s op) := by
  unfold step
  refine getD_cases (fun s' h => ?_) (.frame rfl)
  cases op with
  | call call => exact dispatch_effect h
  | onInitialize now =>
    cases h
    unfold onInitialize
    split <;> exact .frame rfl
  | onIdle rem =>
    obtain ⟨⟨t, used⟩, hdl, rfl⟩ := map_eq_ok.mp h
    exact .processed (onIdle_books hdl)
  | evmWithdraw caller aid n ben => exact doWithdrawal_effect h
  | onSuccess id con sig data => exact onSuccess_effect h
  | onFailure id con sig =>
    cases h
    unfold onFailure
    split
    · exact .frame (depositEvent_books_of_none rfl)
    · exact .frame rfl
  | bridge op =>
    cases h
    exact .frame rfl

end

end Erc20Peg
