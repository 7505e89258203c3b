import Cennznet.Lib.Run
import Cennznet.Theorems.EthBridge.Claims
import Mathlib.Data.List.Induction

/-! # Replay protection

The bucket forgotten every 720 blocks is that of the current time. -/

namespace EthBridge

open StorageMap Steps List

variable {K A : Type}

/-! ### The records are consistent -/

/-- An open claim is pending under its own id, nothing is both pending and processed, and a bucketed transaction is
processed and in one bucket. -/
structure Claims.Sound (c : Claims K) : Prop where
  listed : ∀ {id tx ty}, c.claims.get? id = some (tx, ty) → c.pending.get? tx = some id
  apart : ∀ {tx id}, c.pending.get? tx = some id → c.processed.get? tx = none
  noted : ∀ {bk tx}, c.buckets.get? (bk, tx) = some () → c.processed.get? tx = some ()
  once : ∀ {bk bk' tx}, c.buckets.get? (bk, tx) = some () → c.buckets.get? (bk', tx) = some () → bk' = bk

namespace Claims.Sound

variable {c : Claims K} {id : EventClaimId} {tx : EthHash} {ty : EventTypeId} {bk : BitVec 64}

theorem submit (S : c.Sound) (fresh : c.processed.get? tx = none) (idle : c.pending.get? tx = none) :
    (c.submit id tx ty).Sound where
  listed {id' tx' ty'} h := by
    refine get?_insert_eq_some.mpr ?_
    rcases get?_insert_eq_some.mp h with ⟨rfl, heq⟩ | ⟨-, hold⟩
    · cases heq
      exact Or.inl ⟨rfl, rfl⟩
    · have hpe := S.listed hold
      refine Or.inr ⟨?_, hpe⟩
      rintro rfl
      rw [idle] at hpe
      cases hpe
  apart {tx' id'} h := by
    rcases get?_insert_eq_some.mp h with ⟨rfl, -⟩ | ⟨-, hold⟩
    · exact fresh
    · exact S.apart hold
  noted h := S.noted h
  once h h' := S.once h h'

theorem prune (S : c.Sound) : (c.prune bk).Sound := by
  -- A bucketed transaction outside the pruned bucket is in no other one, so it stays processed.
  have hk : ∀ {b tx}, (c.prune bk).buckets.get? (b, tx) = some () →
      b ≠ bk ∧ c.buckets.get? (b, tx) = some () := get?_removePrefix_eq_some.mp
  refine ⟨fun h => S.listed h, fun {tx id} h => ?_, fun {b tx} h => ?_, fun h h' => S.once (hk h).2 (hk h').2⟩
  · unfold Claims.prune
    rw [get?_removeAll, S.apart h, ite_self]
  · obtain ⟨hb, hin⟩ := hk h
    unfold Claims.prune
    rw [get?_removeAll, if_neg, S.noted hin]
    intro hmem
    obtain ⟨⟨tx', u⟩, hey, rfl⟩ := mem_map.mp hmem
    exact hb (S.once (mem_iterPrefix.mp hey) hin)

theorem withDeadline (S : c.Sound) (seconds : Seconds) : ({ c with deadline := seconds } : Claims K).Sound :=
  ⟨S.listed, S.apart, S.noted, S.once⟩

theorem clear (S : c.Sound) (listed : c.claims.get? id = some (tx, ty)) : (c.clear id tx).Sound where
  listed {id' tx' ty'} h := by
    obtain ⟨hid, hold⟩ := get?_remove_eq_some.mp h
    have hpe := S.listed hold
    refine get?_remove_eq_some.mpr ⟨?_, hpe⟩
    rintro rfl
    rw [S.listed listed] at hpe
    exact hid (Option.some_inj.mp hpe).symm
  apart h := S.apart (get?_remove_eq_some.mp h).2
  noted h := S.noted h
  once h h' := S.once h h'

theorem note (S : c.Sound) (idle : c.pending.get? tx = none) (fresh : c.processed.get? tx = none) :
    (c.note bk tx).Sound := by
  have hca : ∀ {b h}, (c.note bk tx).buckets.get? (b, h) = some () →
      (b = bk ∧ h = tx) ∨ (h ≠ tx ∧ c.buckets.get? (b, h) = some ()) := by
    intro b h hin
    rcases get?_insert_eq_some.mp hin with ⟨heq, -⟩ | ⟨-, hold⟩
    · exact Or.inl (Prod.ext_iff.mp heq)
    · refine Or.inr ⟨?_, hold⟩
      rintro rfl
      rw [S.noted hold] at fresh
      cases fresh
  refine ⟨fun h => S.listed h, fun {h id} hpe => ?_, fun {b h} hin => ?_, fun {b b' h} hin hin' => ?_⟩
  · unfold Claims.note at hpe ⊢
    rw [get?_insert, if_neg]
    · exact S.apart hpe
    · rintro rfl
      rw [idle] at hpe
      cases hpe
  · unfold Claims.note
    rw [get?_insert]
    rcases hca hin with ⟨-, rfl⟩ | ⟨hne, hold⟩
    · exact if_pos rfl
    · rw [if_neg hne]
      exact S.noted hold
  · rcases hca hin with ⟨rfl, rfl⟩ | ⟨hne, hold⟩ <;> rcases hca hin' with ⟨rfl, heq⟩ | ⟨hne', hol'⟩
    · rfl
    · exact absurd rfl hne'
    · exact absurd heq hne
    · exact S.once hold hol'

theorem verified (S : c.Sound) (listed : c.claims.get? id = some (tx, ty)) : ((c.clear id tx).note bk tx).Sound := by
  refine (S.clear listed).note ?_ (S.apart (S.listed listed))
  unfold Claims.clear
  rw [get?_remove, if_pos rfl]

theorem vote [DecidableEq K] (S : c.Sound) (nt : K) (r : EventClaimResult) : (c.vote id nt r).Sound :=
  ⟨S.listed, S.apart, S.noted, S.once⟩

end Claims.Sound

theorem genesis_sound (keys : List K) (deadline : Seconds) :
    (State.genesis keys deadline : State K A).claims.Sound where
  listed h := nomatch h
  apart h := nomatch h
  noted h := nomatch h
  once h := nomatch h

def Protected (s : State K A) (tx : EthHash) : Prop :=
  ∀ contract signature data, submitEventClaim s contract signature tx data = .error .alreadyNotarized

variable {tx : EthHash} {deadline : Seconds}

theorem protected_iff {s : State K A} : Protected s tx ↔ s.processedTxHashes.get? tx = some () := by
  constructor
  · intro h
    have hsu := h 0 0 []
    unfold submitEventClaim at hsu
    split at hsu
    · rename_i hin
      obtain ⟨u, hu⟩ := contains_iff.mp hin
      exact hu
    · split at hsu <;> cases hsu
  · intro h con sig data
    unfold submitEventClaim
    exact if_pos (contains_iff.mpr ⟨(), h⟩)

variable [DecidableEq K] {cfg : Config} {s s' : State K A} {op : Op K A}

theorem Effect.sound (E : Effect cfg s op s') (S : s.claims.Sound) : s'.claims.Sound := by
  cases E with
  | frame claims => exact claims ▸ S
  | called cid i r nt t call active handled claims => exact claims ▸ S
  | submit id tx ty fresh idle claims => exact claims ▸ S.submit fresh idle
  | vote id nt r i call active claims => exact claims ▸ S.vote nt r
  | reject id nt r tx ty con sig data listed claims =>
    rw [claims]
    exact (S.vote nt r).clear listed
  | verify id nt r i tx ty bk con sig data call active listed accepted noted claims =>
    rw [claims]
    exact (S.vote nt r).verified listed
  | prune bn bk call due expired claims => exact claims ▸ S.prune
  | deadline seconds call claims => exact claims ▸ S.withDeadline seconds

/-! ### Verification and its record -/

def Verifies (cfg : Config) (s : State K A) (op : Op K A) (tx : EthHash) : Prop :=
  ∃ id ty contract signature data, s.eventClaims.get? id = some (tx, ty) ∧
    (step cfg s op).subscriberCalls = s.subscriberCalls ++ [.onSuccess id contract signature data]

theorem Verifies.inv (h : Verifies cfg s op tx) : ∃ id nt r i ty bk, op.call = .submitNotarization (.event id i r) ∧
      s.eventClaims.get? id = some (tx, ty) ∧
      verifiedBucketIndex s.eventDeadlineSeconds op.env.now = some bk ∧
      (step cfg s op).claims = ((s.claims.vote id nt r).clear id tx).note bk tx := by
  obtain ⟨id, ty, con, sig, data, hli, hca⟩ := h
  obtain ⟨nt, r, i, tx', ty', bk, hc, -, hli', -, hno, hcl⟩ := (step_effect cfg s op).verify_inv hca
  rw [hli] at hli'
  cases hli'
  exact ⟨id, nt, r, i, ty, bk, hc, hli, hno, hcl⟩

theorem not_verifies_of_processed (S : s.claims.Sound) (hpr : s.processedTxHashes.get? tx = some ()) :
    ¬Verifies cfg s op tx := by
  intro h
  obtain ⟨id, nt, r, i, ty, bk, -, hli, -⟩ := h.inv
  have hfr := S.apart (S.listed hli)
  rw [show s.claims.processed.get? tx = some () from hpr] at hfr
  cases hfr

def Prunes (op : Op K A) : Prop :=
  ∃ blockNumber, op.call = .onInitialize blockNumber ∧ blockNumber % claimPruningInterval = 0

theorem step_of_prunes (cfg : Config) {bk : BitVec 64} (hop : Prunes op)
    (hex : expiredBucketIndex s.eventDeadlineSeconds op.env.now = some bk) :
    (step cfg s op).claims = s.claims.prune bk := by
  obtain ⟨bn, hc, hdue⟩ := hop
  have hdi : dispatch cfg op.env s op.call = .ok (processDelayedProofs cfg (pruneBucket s bk)) := by
    rw [hc]
    show onInitialize cfg op.env s bn = _
    unfold onInitialize
    rw [if_pos hdue, hex]
  unfold step
  rw [hdi]
  exact (processDelayedProofs_signingOnly cfg (pruneBucket s bk)).claims.1

theorem Effect.bucket_kept (E : Effect cfg s op s') {bk : BitVec 64}
    (hin : s.processedTxBuckets.get? (bk, tx) = some ()) :
    s'.processedTxBuckets.get? (bk, tx) = some () ∨
      (Prunes op ∧ expiredBucketIndex s.eventDeadlineSeconds op.env.now = some bk ∧
        s'.processedTxHashes.get? tx = none) := by
  have hs : ∀ {c : Claims K}, s'.claims = c → c.buckets = s.processedTxBuckets →
      s'.processedTxBuckets.get? (bk, tx) = some () := by
    intro c hc hbu
    rw [← hbu, ← hc] at hin
    exact hin
  cases E with
  | verify id nt r i tx' ty bk' con sig data call active listed accepted noted claims =>
    have hbu : s'.processedTxBuckets = s.processedTxBuckets.insert (bk', tx') () :=
      congrArg Claims.buckets claims
    rw [hbu, get?_insert]
    split
    · exact Or.inl rfl
    · exact Or.inl hin
  | prune bn bk' call due expired claims =>
    have hbu : s'.processedTxBuckets = s.processedTxBuckets.removePrefix bk' := congrArg Claims.buckets claims
    by_cases hb : bk = bk'
    · subst hb
      have hpr : s'.processedTxHashes =
          s.processedTxHashes.removeAll ((s.processedTxBuckets.iterPrefix bk).map Prod.fst) :=
        congrArg Claims.processed claims
      refine Or.inr ⟨⟨bn, call, due⟩, expired, ?_⟩
      rw [hpr, get?_removeAll, if_pos]
      exact mem_map.mpr ⟨(tx, ()), mem_iterPrefix.mpr hin, rfl⟩
    · left
      rw [hbu, get?_removePrefix, if_neg hb]
      exact hin
  | _ => exact Or.inl (hs ‹s'.claims = _› rfl)

/-! ### Runs with a fixed deadline -/

def KeepsDeadline (op : Op K A) : Prop := ∀ seconds, op.call ≠ .setEventDeadline seconds

theorem Effect.deadline_kept (E : Effect cfg s op s') (hop : KeepsDeadline op) :
    s'.eventDeadlineSeconds = s.eventDeadlineSeconds := by
  cases E with
  | deadline seconds call => exact absurd call (hop seconds)
  | _ => exact congrArg Claims.deadline ‹s'.claims = _›

structure Steady (deadline : Seconds) (s : State K A) : Prop where
  sound : s.claims.Sound
  deadline : s.eventDeadlineSeconds = deadline

theorem Steady.step (H : Steady deadline s) (hop : KeepsDeadline op) : Steady deadline (step cfg s op) where
  sound := (step_effect cfg s op).sound H.sound
  deadline := ((step_effect cfg s op).deadline_kept hop).trans H.deadline

theorem Steady.execute {ops : List (Op K A)} (H : Steady deadline s)
    (hops : ∀ op ∈ ops, KeepsDeadline op) : Steady deadline (execute (EthBridge.step cfg) s ops) :=
  execute_invariant (fun op hop _ h => h.step (hops op hop)) H

theorem Verifies.bucketed (h : Verifies cfg s op tx) (H : Steady deadline s) :
    ∃ bk, verifiedBucketIndex deadline op.env.now = some bk ∧
      (EthBridge.step cfg s op).processedTxBuckets.get? (bk, tx) = some () := by
  obtain ⟨id, nt, r, i, ty, bk, -, -, hno, hcl⟩ := h.inv
  have hbu : (EthBridge.step cfg s op).processedTxBuckets = s.processedTxBuckets.insert (bk, tx) () :=
    congrArg Claims.buckets hcl
  refine ⟨bk, H.deadline ▸ hno, ?_⟩
  rw [hbu, get?_insert, if_pos rfl]

/-- Until the deadline after its verification has passed, each claim for a transaction is refused as already notarized,
and it is not verified again. -/
def ReplayProtected (cfg : Config) (s : State K A) (ops : List (Op K A)) : Prop :=
  ∀ pre v mid post tx, ops = pre ++ v :: (mid ++ post) → Verifies cfg (execute (step cfg) s pre) v tx →
    (∀ op ∈ mid, op.env.now.toNat ≤ v.env.now.toNat + s.eventDeadlineSeconds.toNat) →
    Protected (execute (step cfg) s (pre ++ v :: mid)) tx ∧
      ∀ op ∈ post.head?, op.env.now.toNat ≤ v.env.now.toNat + s.eventDeadlineSeconds.toNat →
        ¬Verifies cfg (execute (step cfg) s (pre ++ v :: mid)) op tx

/-- No pruning within the deadline after a verification forgets its bucket. -/
def PruneSafe (cfg : Config) (s : State K A) (ops : List (Op K A)) : Prop :=
  ∀ pre v mid p post tx, ops = pre ++ v :: (mid ++ p :: post) →
    Verifies cfg (execute (step cfg) s pre) v tx → Prunes p →
    p.env.now.toNat ≤ v.env.now.toNat + s.eventDeadlineSeconds.toNat →
    expiredBucketIndex s.eventDeadlineSeconds p.env.now ≠ verifiedBucketIndex s.eventDeadlineSeconds v.env.now

section
variable {ops : List (Op K A)}

theorem replayProtected_of_pruneSafe (S : s.claims.Sound) (hfi : ∀ op ∈ ops, KeepsDeadline op)
    (hsa : PruneSafe cfg s ops) : ReplayProtected cfg s ops := by
  intro pre v mid post tx hops hver hti
  subst hops
  have hpre : Steady s.eventDeadlineSeconds (execute (step cfg) s pre) :=
    Steady.execute ⟨S, rfl⟩ fun op h => hfi op (mem_append_left _ h)
  have hmid : ∀ op ∈ v :: mid, KeepsDeadline op := fun op h => hfi op (by
    rw [← cons_append]
    exact mem_append_right _ (mem_append_left _ h))
  obtain ⟨bk, hbu, hin⟩ := hver.bucketed hpre
  -- Along `mid` the transaction stays in its bucket: no pruning there meets it.
  have hk : Steady s.eventDeadlineSeconds (execute (step cfg) s (pre ++ v :: mid)) ∧
      (execute (step cfg) s (pre ++ v :: mid)).processedTxBuckets.get? (bk, tx) = some () := by
    rw [execute_append, execute_cons]
    refine execute_invariant (I := fun t => Steady s.eventDeadlineSeconds t ∧
      t.processedTxBuckets.get? (bk, tx) = some ()) (fun op hop t ht => ?_)
      ⟨hpre.step (hmid v mem_cons_self), hin⟩
    refine ⟨ht.1.step (hmid op (mem_cons_of_mem v hop)), ?_⟩
    obtain ⟨m₁, m₂, rfl⟩ := append_of_mem hop
    rcases (step_effect cfg t op).bucket_kept ht.2 with hst | ⟨hps, hex, -⟩
    · exact hst
    · have hne := hsa pre v m₁ op (m₂ ++ post) tx (by simp) hver hps (hti op hop)
      rw [hbu, ← ht.1.deadline] at hne
      exact absurd hex hne
  have hpr := hk.1.sound.noted hk.2
  exact ⟨protected_iff.mpr hpr, fun op _ _ => not_verifies_of_processed hk.1.sound hpr⟩

theorem pruneSafe_of_replayProtected (S : s.claims.Sound) (hfi : ∀ op ∈ ops, KeepsDeadline op)
    (hso : ops.Pairwise fun a b => a.env.now.toNat ≤ b.env.now.toNat) (hpt : ReplayProtected cfg s ops) :
    PruneSafe cfg s ops := by
  intro pre v mid p post tx hops hver hps htm heq
  subst hops
  have hpre : Steady s.eventDeadlineSeconds (execute (step cfg) s pre) :=
    Steady.execute ⟨S, rfl⟩ fun op h => hfi op (mem_append_left _ h)
  obtain ⟨bk, hbc, hin⟩ := hver.bucketed hpre
  have hti : ∀ op ∈ mid ++ [p], op.env.now.toNat ≤ v.env.now.toNat + s.eventDeadlineSeconds.toNat := by
    intro op hop
    have hla := (pairwise_append.mp (pairwise_cons.mp (pairwise_append.mp hso).2.1).2).2.2
    rcases mem_append.mp hop with hmid | hp
    · exact (hla op hmid p mem_cons_self).trans htm
    · rw [mem_singleton.mp hp]
      exact htm
  -- While the protection lasts, the bucket of the transaction is not forgotten.
  have hk : ∀ m m', mid ++ [p] = m ++ m' →
      (execute (step cfg) s (pre ++ v :: m)).processedTxBuckets.get? (bk, tx) = some () := by
    intro m
    induction m using List.reverseRecOn with
    | nil =>
      intro m' _
      rw [execute_concat]
      exact hin
    | append_singleton m op ih =>
      intro m' hm
      rw [append_assoc] at hm
      have hpr := (hpt pre v (m ++ [op]) (m' ++ post) tx (by rw [← append_assoc, append_assoc m, ← hm]; simp) hver
        (fun o ho => hti o (by rw [hm, ← append_assoc]; exact mem_append_left _ ho))).1
      rw [← cons_append, ← append_assoc, execute_concat] at hpr ⊢
      rcases (step_effect cfg _ op).bucket_kept (ih _ hm) with hst | ⟨-, -, hfo⟩
      · exact hst
      · rw [protected_iff, hfo] at hpr
        cases hpr
  have hl := hk (mid ++ [p]) [] (append_nil _).symm
  have hend : Steady s.eventDeadlineSeconds (execute (step cfg) s (pre ++ v :: mid)) :=
    Steady.execute ⟨S, rfl⟩ fun op h => hfi op (by
      rw [← cons_append, ← append_assoc]
      exact mem_append_left _ h)
  have hpd := step_of_prunes cfg hps
    (show expiredBucketIndex (execute (step cfg) s (pre ++ v :: mid)).eventDeadlineSeconds p.env.now = some bk by
      rw [hend.deadline, heq, hbc])
  rw [← cons_append, ← append_assoc, execute_concat] at hl
  have hgo : (step cfg (execute (step cfg) s (pre ++ v :: mid)) p).processedTxBuckets.get? (bk, tx) =
      none := by
    have hbu := congrArg Claims.buckets hpd
    rw [show (step cfg (execute (step cfg) s (pre ++ v :: mid)) p).processedTxBuckets = _ from hbu]
    exact get?_removePrefix.trans (if_pos rfl)
  rw [hgo] at hl
  cases hl

end

/-- From genesis, with a fixed deadline and a time that does not go back, the protection lasts for the deadline exactly
if no pruning within it meets the bucket of a verified transaction. -/
theorem replayProtected_iff (cfg : Config) (keys : List K) (deadline : Seconds) (ops : List (Op K A))
    (hfixed : ∀ op ∈ ops, KeepsDeadline op) (hsorted : ops.Pairwise fun a b => a.env.now.toNat ≤ b.env.now.toNat) :
    ReplayProtected cfg (State.genesis keys deadline) ops ↔ PruneSafe cfg (State.genesis keys deadline) ops :=
  ⟨pruneSafe_of_replayProtected (genesis_sound keys deadline) hfixed hsorted,
    replayProtected_of_pruneSafe (genesis_sound keys deadline) hfixed⟩

def verifiedOnce : List (Op Nat Nat) :=
  [plainOp 1000 [7] (.submitEventClaim 1 2 5 []), plainOp 1000 [7] (.submitNotarization (.event 0 0 .valid))]

theorem replayProtected_pruned_in_next_bucket :
    ReplayProtected runtimeConfig (State.genesis [11]) (verifiedOnce ++ [plainOp 4000 [7] (.onInitialize 720)]) := by
  refine (replayProtected_iff runtimeConfig [11] 604800 _ ?_ ?_).mpr ?_
  · intro op hop seconds
    simp only [verifiedOnce, cons_append, nil_append, mem_cons, not_mem_nil, or_false] at hop
    rcases hop with rfl | rfl | rfl <;> simp [plainOp]
  · decide
  · intro pre v mid p post tx hops hver hpr _ heq
    obtain ⟨id, nt, r, i, ty, bk, hc, -⟩ := hver.inv
    obtain ⟨bn, hca', -⟩ := hpr
    have hv : v ∈ verifiedOnce ++ [plainOp 4000 [7] (.onInitialize 720)] := by rw [hops]; simp
    have hp : p ∈ verifiedOnce ++ [plainOp 4000 [7] (.onInitialize 720)] := by rw [hops]; simp
    simp only [verifiedOnce, cons_append, nil_append, mem_cons, not_mem_nil, or_false] at hv hp
    rcases hv with rfl | rfl | rfl <;> rcases hp with rfl | rfl | rfl <;> simp [plainOp] at hc hca'
    exact absurd heq (by decide)

theorem verified_twice_not_replayProtected : (execute (step runtimeConfig) (State.genesis [11])
        (verifiedOnce ++ [plainOp 2000 [7] (.onInitialize 720), plainOp 2000 [7] (.submitEventClaim 1 2 5 []),
          plainOp 2000 [7] (.submitNotarization (.event 1 0 .valid))])).subscriberCalls =
        [.onSuccess 0 1 2 [], .onSuccess 1 1 2 []] ∧
      ¬ReplayProtected runtimeConfig (State.genesis [11])
        (verifiedOnce ++ [plainOp 2000 [7] (.onInitialize 720), plainOp 2000 [7] (.submitEventClaim 1 2 5 []),
          plainOp 2000 [7] (.submitNotarization (.event 1 0 .valid))]) := by
  refine ⟨by decide, fun h => ?_⟩
  have hpr := (h [plainOp 1000 [7] (.submitEventClaim 1 2 5 [])] (plainOp 1000 [7] (.submitNotarization (.event 0 0 .valid)))
    [plainOp 2000 [7] (.onInitialize 720)] _ 5 rfl ⟨0, 0, 1, 2, [], by decide, by decide⟩ (by decide)).1
  rw [protected_iff] at hpr
  revert hpr
  decide

end EthBridge
