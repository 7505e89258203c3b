import Cennznet.Theorems.Erc20Peg.Idle
import Cennznet.Theorems.Erc20Peg.Solvency

/-! # The schedule of delayed claims

A claim delayed to the block it is made in is never found again. -/

namespace Erc20Peg

open EthBridge (EthAddress EthHash EventProofId)
open GenericAsset (AssetId Balance)
open Result StorageMap Steps List

structure Queue where
  now : BlockNumber
  claims : StorageMap ClaimId PendingClaim
  schedule : StorageMap BlockNumber (List ClaimId)
  next : ClaimId
  messages : List WithdrawMessage
  tokens : StorageMap EthAddress AssetId
  pegged : StorageMap AssetId EthAddress

namespace Queue

def occurrences (q : Queue) (id : ClaimId) : Nat := q.schedule.sumBy fun _ ids => ids.count id

def waiting (q : Queue) (msg : WithdrawMessage) : Nat :=
  q.claims.sumBy fun _ claim => if claim = .withdrawal msg then 1 else 0

def withdrawals (q : Queue) (msg : WithdrawMessage) : Nat := q.messages.count msg + q.waiting msg

def delay (q : Queue) (b : BlockNumber) (claim : PendingClaim) : Queue :=
  { q with
    claims := q.claims.insert q.next claim
    schedule := q.schedule.insert b (q.schedule.getD b [] ++ [q.next])
    next := q.next + 1 }

def prove (q : Queue) (msg : WithdrawMessage) : Queue := { q with messages := q.messages ++ [msg] }

structure Sound (q : Queue) (ready : List BlockNumber) : Prop where
  once : ∀ id, q.occurrences id = (q.claims.contains id).toNat
  due : ∀ {b ids}, q.schedule.get? b = some ids → q.now.toNat < b.toNat ∨ b ∈ ready
  filled : ∀ {b ids}, q.schedule.get? b = some ids → ids ≠ []
  scheduled : ∀ {b}, b ∈ ready → q.schedule.contains b = true
  past : ∀ {b}, b ∈ ready → b.toNat ≤ q.now.toNat
  distinct : ready.Nodup
  fresh : ∀ {id claim}, q.claims.get? id = some claim → id.toNat < q.next.toNat
  known : ∀ {id msg}, q.claims.get? id = some (.withdrawal msg) → q.tokens.contains msg.tokenAddress = true
  pegged : ∀ {a token}, q.pegged.get? a = some token → q.tokens.contains token = true

variable {q q' q'' : Queue} {ready rest : List BlockNumber} {b : BlockNumber} {ids ids' : List ClaimId}
  {msg : WithdrawMessage} {claim : PendingClaim}

/-! ### A claim is delayed -/

theorem occurrences_delay (id : ClaimId) :
    (q.delay b claim).occurrences id = q.occurrences id + if id = q.next then 1 else 0 :=
  occurrences_push

theorem Sound.claims_next (S : q.Sound ready) : q.claims.get? q.next = none := by
  cases hget : q.claims.get? q.next with
  | none => rfl
  | some claim => exact absurd (S.fresh hget) (Nat.lt_irrefl _)

theorem Sound.delay (S : q.Sound ready) (hr : q.next.toNat + 1 < 2 ^ 64) (hla : q.now.toNat < b.toNat)
    (hkn : ∀ msg, claim = .withdrawal msg → q.tokens.contains msg.tokenAddress = true) :
    (q.delay b claim).Sound ready where
  once id := by
    rw [occurrences_delay, S.once]
    unfold StorageMap.contains Queue.delay
    rw [get?_insert]
    by_cases hid : id = q.next
    · rw [if_pos hid, if_pos hid, hid, S.claims_next]
      rfl
    · rw [if_neg hid, if_neg hid, Nat.add_zero]
  due hget := by
    rcases get?_insert_eq_some.mp hget with ⟨rfl, -⟩ | ⟨-, hold⟩
    · exact Or.inl hla
    · exact S.due hold
  filled hget := by
    rcases get?_insert_eq_some.mp hget with ⟨-, rfl⟩ | ⟨-, hold⟩
    · exact concat_ne_nil _ _
    · exact S.filled hold
  scheduled hre := contains_insert.mpr (Or.inr (S.scheduled hre))
  past := S.past
  distinct := S.distinct
  fresh hget := by
    have hx : (q.next + 1).toNat = q.next.toNat + 1 := by bv_omega
    show _ < (q.next + 1).toNat
    rcases get?_insert_eq_some.mp hget with ⟨rfl, -⟩ | ⟨-, hold⟩
    · omega
    · have := S.fresh hold
      omega
  known hget := by
    rcases get?_insert_eq_some.mp hget with ⟨-, hcl⟩ | ⟨-, hold⟩
    · exact hkn _ hcl
    · exact S.known hold
  pegged := S.pegged

theorem waiting_delay (S : q.Sound ready) (b : BlockNumber) (claim : PendingClaim) (m : WithdrawMessage) :
    (q.delay b claim).waiting m = q.waiting m + if claim = .withdrawal m then 1 else 0 := by
  have hsum : (q.delay b claim).waiting m +
      q.claims.share (fun _ claim => if claim = .withdrawal m then 1 else 0) q.next =
        q.waiting m + if claim = .withdrawal m then 1 else 0 := sumBy_insert
  have hsh : q.claims.share (fun _ claim => if claim = .withdrawal m then 1 else 0) q.next = 0 := by
    unfold StorageMap.share
    rw [S.claims_next]
    rfl
  omega

theorem withdrawals_delay_deposit (S : q.Sound ready) (deposit : Erc20DepositEvent) (tx : EthHash)
    (m : WithdrawMessage) : (q.delay b (.deposit deposit tx)).withdrawals m = q.withdrawals m := by
  have hwa := waiting_delay S b (.deposit deposit tx) m
  rw [if_neg (by simp)] at hwa
  unfold withdrawals
  rw [hwa]
  rfl

theorem withdrawals_delay (S : q.Sound ready) (m : WithdrawMessage) :
    (q.delay b (.withdrawal msg)).withdrawals m = q.withdrawals m + [msg].count m := by
  have hwa := waiting_delay S b (.withdrawal msg) m
  simp only [PendingClaim.withdrawal.injEq] at hwa
  unfold withdrawals
  rw [hwa, count_singleton, Nat.add_assoc]
  simp [Queue.delay]

theorem withdrawals_prove (m : WithdrawMessage) : (q.prove msg).withdrawals m = q.withdrawals m + [msg].count m := by
  have hwa : (q.prove msg).waiting m = q.waiting m := rfl
  unfold withdrawals
  rw [hwa]
  simp only [prove, count_append]
  omega

/-! ### Claims are processed -/

structure Took (q q' : Queue) (ids : List ClaimId) : Prop where
  now : q'.now = q.now
  schedule : q'.schedule = q.schedule
  next : q'.next = q.next
  tokens : q'.tokens = q.tokens
  pegged : q'.pegged = q.pegged
  claims : ∀ id, q'.claims.get? id = if id ∈ ids then none else q.claims.get? id
  withdrawals : ∀ m, q'.withdrawals m = q.withdrawals m

theorem Took.refl (q : Queue) : Took q q [] := ⟨rfl, rfl, rfl, rfl, rfl, fun _ => rfl, fun _ => rfl⟩

theorem Took.trans (h : Took q q' ids) (h' : Took q' q'' ids') : Took q q'' (ids ++ ids') where
  now := h'.now.trans h.now
  schedule := h'.schedule.trans h.schedule
  next := h'.next.trans h.next
  tokens := h'.tokens.trans h.tokens
  pegged := h'.pegged.trans h.pegged
  claims id := by
    rw [h'.claims, h.claims]
    by_cases hid : id ∈ ids <;> by_cases hid' : id ∈ ids' <;> simp [hid, hid']
  withdrawals m := (h'.withdrawals m).trans (h.withdrawals m)

theorem Took.known (h : Took q q' ids)
    (hkn : ∀ {id msg}, q.claims.get? id = some (.withdrawal msg) → q.tokens.contains msg.tokenAddress = true)
    {id : ClaimId} (hget : q'.claims.get? id = some (.withdrawal msg)) :
    q'.tokens.contains msg.tokenAddress = true := by
  rw [h.claims] at hget
  rw [h.tokens]
  split at hget
  · cases hget
  · exact hkn hget

theorem waiting_take {id : ClaimId} (h : q.claims.get? id = some claim) (m : WithdrawMessage) :
    (q.claims.remove id).sumBy (fun _ claim => if claim = .withdrawal m then 1 else 0) +
      (if claim = .withdrawal m then 1 else 0) = q.waiting m := by
  have hsum := sumBy_remove (m := q.claims) (k := id)
    (f := fun _ claim => if claim = .withdrawal m then 1 else 0)
  unfold StorageMap.share at hsum
  rw [h] at hsum
  exact hsum

theorem once_of_taken (hon : ∀ id, q.occurrences id = (q.claims.contains id).toNat)
    (hoc : ∀ id, q'.occurrences id + ids.count id = q.occurrences id)
    (hcl : ∀ id, q'.claims.get? id = if id ∈ ids then none else q.claims.get? id) (id : ClaimId) :
    q'.occurrences id = (q'.claims.contains id).toNat := by
  have hold := hon id
  have hl := hoc id
  unfold StorageMap.contains at hold ⊢
  rw [hcl id]
  by_cases hid : id ∈ ids
  · have hco : 0 < ids.count id := count_pos_iff.mpr hid
    have hle := Bool.toNat_le (q.claims.get? id).isSome
    rw [if_pos hid, Option.isSome_none, Bool.toNat_false]
    omega
  · have hco : ids.count id = 0 := count_eq_zero.mpr hid
    rw [if_neg hid, ← hold]
    omega

theorem Sound.took {schedule : StorageMap BlockNumber (List ClaimId)} (S : q.Sound ready)
    (T : Took { q with schedule := schedule } q' ids) (hr : rest.Sublist ready)
    (hoc : ∀ id, StorageMap.occurrences schedule id + ids.count id = q.occurrences id)
    (hdue : ∀ {b ids}, schedule.get? b = some ids → ids ≠ [] ∧ (q.now.toNat < b.toNat ∨ b ∈ rest))
    (hsc : ∀ {b}, b ∈ rest → schedule.contains b = true) : q'.Sound rest where
  once := by
    refine once_of_taken S.once (fun id => ?_) T.claims
    unfold occurrences
    rw [T.schedule]
    exact hoc id
  due hget := by
    rw [T.schedule] at hget
    rw [T.now]
    exact (hdue hget).2
  filled hget := by
    rw [T.schedule] at hget
    exact (hdue hget).1
  scheduled hbl := by
    rw [T.schedule]
    exact hsc hbl
  past hbl := by
    rw [T.now]
    exact S.past (hr.subset hbl)
  distinct := S.distinct.sublist hr
  fresh hget := by
    rw [T.claims] at hget
    rw [T.next]
    split at hget
    · cases hget
    · exact S.fresh hget
  known := T.known S.known
  pegged ha := by
    rw [T.pegged] at ha
    rw [T.tokens]
    exact S.pegged ha

theorem Sound.isReady (S : q.Sound ready) : Ready q.schedule ready := by
  refine ⟨S.distinct, fun hbl => ?_⟩
  obtain ⟨ids, hget⟩ := contains_iff.mp (S.scheduled hbl)
  rw [getD_of_get? hget]
  exact S.filled hget

theorem Sound.remains {left : ClaimSchedule} {n : Nat} (S : q.Sound ready) (R : Remains q.schedule ready n left rest)
    (T : Took { q with schedule := left } q' ((claimsOf q.schedule ready).take n)) : q'.Sound rest := by
  refine S.took T R.sublist R.counts (fun {b ids} hget => ?_) (fun {b} hbl => ?_)
  · have hids : left.getD b [] = ids := getD_of_get? hget
    by_cases hr : b ∈ rest
    · exact ⟨hids ▸ R.still.filled hr, Or.inr hr⟩
    · have hoth : b ∉ ready := fun hre => by
        rw [R.done hre hr] at hget
        cases hget
      rw [R.others hoth] at hget
      exact ⟨S.filled hget, (S.due hget).imp_right fun hre => absurd hre hoth⟩
  · refine Option.isSome_iff_ne_none.mpr fun hn => R.still.filled hbl ?_
    unfold StorageMap.getD
    rw [hn]
    rfl

/-! ### A block starts, a token is linked -/

theorem mem_ready_iff {p : Prop} [Decidable p] {now : BlockNumber} :
    b ∈ (if p then ready ++ [now] else ready) ↔ b ∈ ready ∨ b = now ∧ p := by
  split <;> simp [*]

theorem Sound.start (S : q.Sound ready) {now : BlockNumber} (hnow : now.toNat = q.now.toNat + 1) :
    { q with now := now }.Sound (if q.schedule.contains now = true then ready ++ [now] else ready) := by
  refine ⟨S.once, ?_, S.filled, ?_, ?_, ?_, S.fresh, S.known, S.pegged⟩
  · intro b ids hget
    rw [mem_ready_iff]
    by_cases heq : b = now
    · exact Or.inr (Or.inr ⟨heq, heq ▸ contains_iff.mpr ⟨ids, hget⟩⟩)
    · rcases S.due hget with hlt | hre
      · have hne : b.toNat ≠ now.toNat := fun h => heq (BitVec.eq_of_toNat_eq h)
        have hla : now.toNat < b.toNat := by omega
        exact Or.inl hla
      · exact Or.inr (Or.inl hre)
  · intro b h
    rcases mem_ready_iff.mp h with h | ⟨rfl, hsc⟩
    · exact S.scheduled h
    · exact hsc
  · intro b h
    show b.toNat ≤ now.toNat
    rcases mem_ready_iff.mp h with h | ⟨rfl, -⟩
    · have := S.past h
      omega
    · exact Nat.le_refl _
  · split
    · have hnew : now ∉ ready := fun h => by
        have := S.past h
        omega
      exact nodup_append_comm.mp (nodup_cons.mpr ⟨hnew, S.distinct⟩)
    · exact S.distinct

theorem Sound.link (S : q.Sound ready) (tok : EthAddress) (aid : AssetId) :
    { q with tokens := q.tokens.insert tok aid, pegged := q.pegged.insert aid tok }.Sound ready := by
  have hmo : ∀ {t}, q.tokens.contains t = true → (q.tokens.insert tok aid).contains t = true :=
    fun ht => contains_insert.mpr (Or.inr ht)
  refine ⟨S.once, S.due, S.filled, S.scheduled, S.past, S.distinct, S.fresh, fun hget => hmo (S.known hget), ?_⟩
  intro a t ha
  rcases get?_insert_eq_some.mp ha with ⟨-, rfl⟩ | ⟨-, hold⟩
  · exact contains_insert.mpr (Or.inl rfl)
  · exact hmo (S.pegged hold)

end Queue

/-! ### What a step does to the queue -/

variable {K A : Type}

def State.queue (s : State K A) : Queue where
  now := s.blockNumber
  claims := s.delayedClaims
  schedule := s.delayedClaimSchedule
  next := s.nextDelayedClaimId
  messages := s.messages
  tokens := s.erc20ToAssetId
  pegged := s.assetIdToErc20

section
variable {cfg : Config A} {s s' : State K A} {ready : List BlockNumber} {msg : WithdrawMessage}

theorem processDepositClaim_queue {claim : Erc20DepositEvent} {tx : EthHash}
    (h : processDepositClaim cfg s claim tx = .ok s') : s'.queue = s.queue ∧ s'.readyBlocks = s.readyBlocks := by
  simp only [processDepositClaim, bind_eq_ok] at h
  obtain ⟨ben, -, h⟩ := h
  split at h <;> cases h <;> exact ⟨rfl, rfl⟩

theorem processWithdrawal_queue {a : AssetId} {proofId : EventProofId}
    (h : processWithdrawal cfg s msg a = .ok (s', proofId)) :
    s'.queue = s.queue.prove msg ∧ s'.readyBlocks = s.readyBlocks := by
  simp only [processWithdrawal, bind_eq_ok, pure_eq_ok, Prod.mk.injEq] at h
  obtain ⟨n, -, rfl, -⟩ := h
  exact ⟨rfl, rfl⟩

theorem delayClaim_queue {delay : BlockNumber} {claim : PendingClaim} (h : delayClaim cfg s delay claim = .ok s') :
    (s.nextDelayedClaimId.toNat + 1 = 2 ^ 64 ∧ s'.queue = s.queue ∧ s'.readyBlocks = s.readyBlocks) ∨
      (s.nextDelayedClaimId.toNat + 1 < 2 ^ 64 ∧
        s'.queue = s.queue.delay (Word.saturatingAdd s.blockNumber delay) claim ∧ s'.readyBlocks = s.readyBlocks) := by
  rcases delayClaim_inv h with ⟨hfu, rfl⟩ | ⟨hr, ev, -, rfl⟩
  · exact Or.inl ⟨hfu, rfl, rfl⟩
  · exact Or.inr ⟨hr, rfl, rfl⟩

theorem processClaim_queue {id : ClaimId} (h : processClaim cfg s id = .ok s')
    (hkn : ∀ {id msg}, s.delayedClaims.get? id = some (.withdrawal msg) →
      s.erc20ToAssetId.contains msg.tokenAddress = true) : Queue.Took s.queue s'.queue [id] := by
  have hcl : ∀ k, (s.delayedClaims.remove id).get? k = if k ∈ [id] then none else s.delayedClaims.get? k := by
    intro k
    simp [get?_remove]
  unfold processClaim at h
  split at h
  · rename_i hn
    cases h
    refine ⟨rfl, rfl, rfl, rfl, rfl, fun k => ?_, fun _ => rfl⟩
    split_ifs with hk
    · rw [mem_singleton.mp hk]
      exact hn
    · rfl
  · rename_i claim hli
    have hwa := Queue.waiting_take (q := s.queue) hli
    dsimp only at h
    split at h
    · rename_i deposit tx
      have hqu := (processDepositClaim_queue h).1
      rw [hqu]
      refine ⟨rfl, rfl, rfl, rfl, rfl, hcl, fun m => ?_⟩
      have hl := hwa m
      rw [if_neg (by simp), Nat.add_zero] at hl
      exact congrArg (s.messages.count m + ·) hl
    · rename_i msg
      split at h
      · obtain ⟨⟨t, proofId⟩, hpr, rfl⟩ := map_eq_ok.mp h
        have hqu := (processWithdrawal_queue hpr).1
        show Queue.Took s.queue t.queue [id]
        rw [hqu]
        refine ⟨rfl, rfl, rfl, rfl, rfl, hcl, fun m => ?_⟩
        have hl := hwa m
        simp only [PendingClaim.withdrawal.injEq] at hl
        rw [Queue.withdrawals_prove, count_singleton]
        unfold Queue.withdrawals
        rw [← hl]
        simp only [beq_iff_eq]
        exact (Nat.add_assoc _ _ _)
      · rename_i hun
        have hco := hkn hli
        unfold StorageMap.contains at hco
        rw [hun] at hco
        cases hco

theorem processClaims_queue {ids : List ClaimId} (h : processClaims cfg s ids = .ok s')
    (hkn : ∀ {id msg}, s.delayedClaims.get? id = some (.withdrawal msg) →
      s.erc20ToAssetId.contains msg.tokenAddress = true) : Queue.Took s.queue s'.queue ids := by
  induction ids generalizing s with
  | nil =>
    cases h
    exact .refl _
  | cons id rest ih =>
    obtain ⟨s₁, hfi, hr⟩ := bind_eq_ok.mp h
    have hto := processClaim_queue hfi hkn
    exact hto.trans (ih hr (hto.known hkn))

theorem onInitialize_queue (s : State K A) (now : BlockNumber) :
    (onInitialize s now).queue = s.queue ∧ (onInitialize s now).readyBlocks =
      if s.delayedClaimSchedule.contains now = true then s.readyBlocks ++ [now] else s.readyBlocks := by
  unfold onInitialize
  by_cases hsc : s.delayedClaimSchedule.contains now = true
  · rw [if_pos hsc, if_pos hsc]
    exact ⟨rfl, rfl⟩
  · rw [if_neg hsc, if_neg hsc]
    exact ⟨rfl, rfl⟩

theorem onIdle_queue {remaining used : Weight} (h : onIdle cfg s remaining = .ok (s', used))
    (S : s.queue.Sound s.readyBlocks) :
    s'.queue.Sound s'.readyBlocks ∧ ∀ m, s'.queue.withdrawals m = s.queue.withdrawals m := by
  unfold onIdle at h
  dsimp only at h
  split at h
  · cases h
    exact ⟨S, fun _ => rfl⟩
  split at h
  · cases h
    exact ⟨S, fun _ => rfl⟩
  obtain ⟨⟨s₁, claims, blocks⟩, hre, hend⟩ := bind_eq_ok.mp h
  cases hend
  obtain ⟨left, n, claims', blocks', hrm, -, hn, -, hlo⟩ := processReadyBlocks_eq cfg
    (Word.saturatedInto 8 ((remaining - cfg.dbWeight.reads 1) / claimWeight cfg)) 0 0 S.isReady (Nat.le_refl _)
    (Nat.zero_le _)
  rw [(hlo s rfl).2] at hre
  obtain ⟨t, ht, heq⟩ := map_eq_ok.mp hre
  cases heq
  have hto := processClaims_queue ht S.known
  have hdr : blocks.toNat = n := hn.trans (Nat.zero_add n)
  refine ⟨?_, hto.withdrawals⟩
  dsimp only
  rw [hdr]
  exact S.remains hrm hto

end

/-! ### Steps -/

def withdrawalOf (s : State K A) (assetId : AssetId) (amt : Balance) (beneficiary : EthAddress) :
    Option WithdrawMessage :=
  (s.assetIdToErc20.get? assetId).map fun token => ⟨token, amt.setWidth 256, beneficiary⟩

def Op.withdrawal? (s : State K A) : Op K A → Option WithdrawMessage
  | .call (.withdraw _ assetId amt beneficiary) => withdrawalOf s assetId amt beneficiary
  | .evmWithdraw _ assetId amt beneficiary => withdrawalOf s assetId amt beneficiary
  | _ => none

namespace SystemOp

def starts? : SystemOp K A → Option BlockNumber
  | .peg (.onInitialize now) => some now
  | _ => none

def withdrawalDelay? (s : State K A) : SystemOp K A → Option BlockNumber
  | .peg (.call (.withdraw _ assetId amt _)) => delayFor s assetId amt.toNat
  | _ => none

def depositDelay? (s : State K A) : SystemOp K A → Option BlockNumber
  | .peg (.call (.depositClaim _ claim)) =>
    (s.erc20ToAssetId.get? claim.tokenAddress).bind fun assetId => delayFor s assetId claim.amount.toNat
  | _ => none

end SystemOp

def Consecutive (s : State K A) (op : SystemOp K A) : Prop :=
  ∀ now ∈ op.starts?, now.toNat = s.blockNumber.toNat + 1

instance (s : State K A) (op : SystemOp K A) : Decidable (Consecutive s op) :=
  Option.decidableForallMem op.starts?

def Later (s : State K A) (delay : BlockNumber) : Prop := delay ≠ 0 ∧ s.blockNumber.toNat + 1 < 2 ^ 32

instance (s : State K A) (delay : BlockNumber) : Decidable (Later s delay) :=
  inferInstanceAs (Decidable (_ ∧ _))

/-- Claims are delayed to later blocks only, and for a delayed withdrawal there is an id. -/
def DelaysLater (s : State K A) (op : SystemOp K A) : Prop :=
  (∀ delay ∈ op.withdrawalDelay? s, Later s delay ∧ s.nextDelayedClaimId.toNat + 1 < 2 ^ 64) ∧
    ∀ delay ∈ op.depositDelay? s, Later s delay

instance (s : State K A) (op : SystemOp K A) : Decidable (DelaysLater s op) :=
  @instDecidableAnd _ _ (Option.decidableForallMem (op.withdrawalDelay? s)) (Option.decidableForallMem (op.depositDelay? s))

theorem Later.lt {s : State K A} {delay : BlockNumber} (h : Later s delay) :
    s.blockNumber.toNat < (Word.saturatingAdd s.blockNumber delay).toNat := by
  have hpos := Word.toNat_pos.mpr h.1
  have hr := h.2
  rw [Word.toNat_saturatingAdd]
  omega

structure QueueKept (s s' : State K A) (charged : List WithdrawMessage) : Prop where
  sound : s'.queue.Sound s'.readyBlocks
  withdrawals : ∀ m, s'.queue.withdrawals m = s.queue.withdrawals m + charged.count m

section
variable {cfg : Config A} {s s' : State K A} (S : s.queue.Sound s.readyBlocks)
include S

theorem QueueKept.of_same (h : s'.queue = s.queue ∧ s'.readyBlocks = s.readyBlocks) : QueueKept s s' [] := by
  refine ⟨?_, fun m => ?_⟩
  · rw [h.1, h.2]
    exact S
  · rw [h.1]
    rfl

theorem depositClaim_kept {tx : EthHash} {claim : Erc20DepositEvent} (h : depositClaim cfg s tx claim = .ok s')
    (hla : ∀ delay ∈ (s.erc20ToAssetId.get? claim.tokenAddress).bind fun a =>
      delayFor s a claim.amount.toNat, Later s delay) : QueueKept s s' [] := by
  simp only [depositClaim, bind_eq_ok] at h
  obtain ⟨-, -, -, -, -, -, h⟩ := h
  split at h
  · rename_i delay hde
    rcases delayClaim_queue h with ⟨-, hs⟩ | ⟨hr, hqu, hre⟩
    · exact .of_same S hs
    · refine ⟨?_, fun m => ?_⟩
      · rw [hqu, hre]
        exact S.delay hr (hla delay hde).lt fun _ hcl => by cases hcl
      · rw [hqu]
        exact Queue.withdrawals_delay_deposit S claim tx m
  · exact .of_same S (processDepositClaim_queue h)

variable [DecidableEq A]

theorem doWithdrawal_kept {o : A} {a : AssetId} {n : Balance} {ben : EthAddress}
    {callOrigin : WithdrawCallOrigin} {proofId : EventProofId}
    (h : doWithdrawal cfg s o a n ben callOrigin = .ok (s', proofId))
    (hla : callOrigin = .runtime → ∀ delay ∈ delayFor s a n.toNat,
      Later s delay ∧ s.nextDelayedClaimId.toNat + 1 < 2 ^ 64) :
    QueueKept s s' (withdrawalOf s a n ben).toList := by
  obtain ⟨tok, assets', htok, -, ⟨delay, hor, hdl, hde⟩ | hpr⟩ := doWithdrawal_cases h
  · obtain ⟨hbl, hr⟩ := hla hor delay hdl
    unfold withdrawalOf
    rw [htok]
    rcases delayClaim_queue hde with ⟨hfu, -, -⟩ | ⟨-, hqu, hre⟩
    · exact absurd hfu (Nat.ne_of_lt hr)
    · refine ⟨?_, fun m => ?_⟩
      · rw [hqu, hre]
        refine S.delay hr hbl.lt fun msg hcl => ?_
        cases hcl
        exact S.pegged htok
      · rw [hqu]
        exact Queue.withdrawals_delay S m
  · obtain ⟨hqu, hre⟩ := processWithdrawal_queue hpr
    unfold withdrawalOf
    rw [htok]
    refine ⟨?_, fun m => ?_⟩
    · rw [hqu, hre]
      exact ⟨S.once, S.due, S.filled, S.scheduled, S.past, S.distinct, S.fresh, S.known, S.pegged⟩
    · rw [hqu]
      exact Queue.withdrawals_prove m

theorem dispatch_kept {call : Call A} (h : dispatch cfg s call = .ok s')
    (hla : DelaysLater s (.peg (.call call) : SystemOp K A)) :
    QueueKept s s' ((Op.call call : Op K A).withdrawal? s).toList := by
  cases call with
  | depositClaim tx claim => exact depositClaim_kept S h hla.2
  | withdraw o a n ben =>
    obtain ⟨⟨t, proofId⟩, hwi, rfl⟩ := map_eq_ok.mp h
    exact doWithdrawal_kept S hwi fun _ => hla.1
  | activateDeposits | activateWithdrawals | setContractAddress | activateCennzDeposits | setErc20Meta | setClaimDelay =>
    cases h
    exact .of_same S ⟨rfl, rfl⟩

variable [Inhabited A]

theorem onSuccess_kept {id : EthBridge.EventClaimId} {con : EthAddress} {sig : EthHash} {data : EthBridge.Bytes}
    (h : onSuccess cfg s id con sig data = .ok s') : QueueKept s s' [] := by
  unfold onSuccess at h
  split at h
  · split at h
    · rename_i ev _
      split at h
      · rename_i t a n ben hp
        cases h
        obtain ⟨s₁, hst, -, -, rfl⟩ := doDeposit_eq_ok.mp hp
        rcases assetOf_eq_ok.mp hst with ⟨-, rfl⟩ | ⟨-, assets, -, rfl⟩
        · exact .of_same S ⟨rfl, rfl⟩
        · exact ⟨S.link ev.tokenAddress a, fun _ => rfl⟩
      · cases h
      · cases h
        exact .of_same S ⟨rfl, rfl⟩
    · cases h
      exact .of_same S ⟨rfl, rfl⟩
  · cases h
    exact .of_same S ⟨rfl, rfl⟩

variable [DecidableEq K]

theorem perform_kept {op : Op K A} (h : perform cfg s op = .ok s') (hbl : Consecutive s (.peg op))
    (hla : DelaysLater s (.peg op)) : QueueKept s s' (op.withdrawal? s).toList := by
  cases op with
  | call call => exact dispatch_kept S h hla
  | onInitialize now =>
    cases h
    obtain ⟨hqu, hre⟩ := onInitialize_queue { s with blockNumber := now } now
    refine ⟨?_, fun m => ?_⟩
    · rw [hqu, hre]
      exact S.start (hbl now rfl)
    · rw [hqu]
      rfl
  | onIdle remaining =>
    obtain ⟨⟨t, used⟩, hdl, rfl⟩ := map_eq_ok.mp h
    obtain ⟨hso, hs⟩ := onIdle_queue hdl S
    exact ⟨hso, hs⟩
  | evmWithdraw caller a n ben =>
    obtain ⟨⟨t, proofId⟩, hwi, rfl⟩ := map_eq_ok.mp h
    exact doWithdrawal_kept S hwi fun hru => by cases hru
  | onSuccess id con sig data => exact onSuccess_kept S h
  | onFailure id con sig =>
    cases h
    unfold onFailure
    split <;> exact .of_same S ⟨rfl, rfl⟩
  | bridge op =>
    cases h
    exact .of_same S ⟨rfl, rfl⟩

end

/-! ### Runs -/

/-- Every delayed claim is scheduled once, at a block that is to come or ready. -/
def NotStranded (s : State K A) : Prop :=
  ∀ id claim, s.delayedClaims.get? id = some claim → s.queue.occurrences id = 1 ∧
    ∀ b, id ∈ s.delayedClaimSchedule.getD b [] → s.blockNumber.toNat < b.toNat ∨ b ∈ s.readyBlocks

theorem Queue.Sound.notStranded {s : State K A} (S : s.queue.Sound s.readyBlocks) : NotStranded s := by
  intro id claim hcl
  have hon := S.once id
  have hco : s.queue.claims.contains id = true := contains_iff.mpr ⟨claim, hcl⟩
  rw [hco] at hon
  refine ⟨hon, fun b hmem => ?_⟩
  cases hget : s.delayedClaimSchedule.get? b with
  | none =>
    unfold StorageMap.getD at hmem
    rw [hget] at hmem
    cases hmem
  | some ids => exact S.due hget

theorem genesis_queue_sound (stakingCurrency : AssetId) (toks : List (EthAddress × EthBridge.Bytes × BitVec 8))
    (assets : GenericAsset.State A) (bridge : EthBridge.State K A) :
    (State.genesis stakingCurrency toks assets bridge).queue.Sound [] where
  once _ := rfl
  due h := by cases h
  filled h := by cases h
  scheduled h := by cases h
  past h := by cases h
  distinct := nodup_nil
  fresh h := by cases h
  known h := by cases h
  pegged h := by cases h

section
variable [DecidableEq A] [Inhabited A] [DecidableEq K]

def charged (cfg : Config A) (s : State K A) : SystemOp K A → List WithdrawMessage
  | .peg op =>
    match perform cfg s op with
    | .ok _ => (op.withdrawal? s).toList
    | .error _ => []
  | .ledger _ => []

def charges (cfg : Config A) : State K A → List (SystemOp K A) → List WithdrawMessage
  | _, [] => []
  | s, op :: ops => charged cfg s op ++ charges cfg (systemStep cfg s op) ops

theorem systemStep_kept (cfg : Config A) {s : State K A} {op : SystemOp K A}
    (S : s.queue.Sound s.readyBlocks) (hbl : Consecutive s op) (hla : DelaysLater s op) :
    QueueKept s (systemStep cfg s op) (charged cfg s op) := by
  cases op with
  | ledger assets => exact .of_same S ⟨rfl, rfl⟩
  | peg op =>
    simp only [systemStep, step, charged]
    cases hpe : perform cfg s op with
    | ok s' => exact perform_kept S hpe hbl hla
    | error e => exact .of_same S ⟨rfl, rfl⟩

theorem run_kept {cfg : Config A} {s : State K A} {ops : List (SystemOp K A)}
    (S : s.queue.Sound s.readyBlocks) (hbl : Each (systemStep cfg) Consecutive s ops)
    (hla : Each (systemStep cfg) DelaysLater s ops) :
    QueueKept s (execute (systemStep cfg) s ops) (charges cfg s ops) := by
  induction ops generalizing s with
  | nil => exact ⟨S, fun _ => rfl⟩
  | cons op ops ih =>
    have hs := systemStep_kept cfg S hbl.1 hla.1
    have hr := ih hs.sound hbl.2 hla.2
    refine ⟨hr.sound, fun m => ?_⟩
    rw [execute_cons, hr.withdrawals, hs.withdrawals, charges, count_append, Nat.add_assoc]

/-- In a run over consecutive blocks whose claims are delayed to later blocks, no delayed claim is stranded, and each
withdrawal charged for is proven or delayed. -/
theorem claims_not_stranded (cfg : Config A) (erc20s : List (EthAddress × EthBridge.Bytes × BitVec 8))
    (assets : GenericAsset.State A) (bridge : EthBridge.State K A) (ops : List (SystemOp K A))
    (hblocks : Each (systemStep cfg) Consecutive (State.genesis cfg.stakingCurrency erc20s assets bridge) ops)
    (hlater : Each (systemStep cfg) DelaysLater (State.genesis cfg.stakingCurrency erc20s assets bridge) ops) :
    let s := execute (systemStep cfg) (State.genesis cfg.stakingCurrency erc20s assets bridge) ops
    NotStranded s ∧ ∀ message,
      (charges cfg (State.genesis cfg.stakingCurrency erc20s assets bridge) ops).count message =
        s.messages.count message + s.queue.waiting message := by
  intro s
  have hk := run_kept (genesis_queue_sound cfg.stakingCurrency erc20s assets bridge) hblocks hlater
  refine ⟨hk.sound.notStranded, fun message => ?_⟩
  have hwi := hk.withdrawals message
  have hn : (State.genesis cfg.stakingCurrency erc20s assets bridge).queue.withdrawals message = 0 := rfl
  rw [hn, Nat.zero_add] at hwi
  exact hwi.symm

end

/-- In block 1 account 7 deposits 9 of token 300 and withdraws 4 of its asset 17000 with a delay of `delay` blocks. -/
def delayedWithdrawal (delay : BlockNumber) : List (SystemOp Nat Nat) :=
  [.peg (.onInitialize 1), .peg (.onSuccess 1 0 1 (Erc20DepositEvent.encode ⟨300, 9, 7⟩)),
    .peg (.call (.activateWithdrawals true)), .peg (.call (.setClaimDelay 17000 4 delay)),
    .peg (.call (.withdraw 7 17000 4 901)), .peg (.onIdle 2000000000)]

theorem delayedWithdrawal_proven :
    let ops := delayedWithdrawal 1 ++ [.peg (.onInitialize 2), .peg (.onIdle 2000000000)]
    let s := execute (systemStep sampleConfig) (sampleGenesis [1]) ops
    charges sampleConfig (sampleGenesis [1]) ops = [⟨300, 4, 901⟩] ∧ s.messages = [⟨300, 4, 901⟩] ∧ NotStranded s := by
  intro ops s
  refine ⟨by decide +kernel, by decide +kernel, ?_⟩
  exact (claims_not_stranded sampleConfig [(206, cennzSymbol, 4)] (sampleGenesis [1]).assets (EthBridge.State.genesis [])
    ops (by decide +kernel) (by decide +kernel)).1

/-- With a delay of zero it is still scheduled for block 1 in block 3, and block 1 is not ready. -/
theorem delayedWithdrawal_stranded :
    let ops := delayedWithdrawal 0 ++
      [.peg (.onInitialize 2), .peg (.onIdle 2000000000), .peg (.onInitialize 3), .peg (.onIdle 2000000000)]
    let s := execute (systemStep sampleConfig) (sampleGenesis [1]) ops
    Each (systemStep sampleConfig) Consecutive (sampleGenesis [1]) ops ∧
      charges sampleConfig (sampleGenesis [1]) ops = [⟨300, 4, 901⟩] ∧ s.messages = [] ∧
      s.delayedClaimSchedule.get? 1 = some [0] ∧ s.readyBlocks = [] ∧ s.blockNumber = 3 ∧ ¬NotStranded s := by
  intro ops s
  have hcl : s.delayedClaims.get? 0 = some (.withdrawal ⟨300, 4, 901⟩) := by decide +kernel
  have hsc : s.delayedClaimSchedule.get? 1 = some [0] := by decide +kernel
  have hre : s.readyBlocks = [] := by decide +kernel
  have hbl : s.blockNumber = 3 := by decide +kernel
  refine ⟨by decide +kernel, by decide +kernel, by decide +kernel, hsc, hre, hbl, fun h => ?_⟩
  have hmem : (0 : ClaimId) ∈ s.delayedClaimSchedule.getD 1 [] := by
    rw [getD_of_get? hsc]
    exact mem_singleton_self _
  rcases (h 0 _ hcl).2 1 hmem with hlt | hmem
  · rw [hbl] at hlt
    revert hlt
    decide
  · rw [hre] at hmem
    cases hmem

end Erc20Peg
