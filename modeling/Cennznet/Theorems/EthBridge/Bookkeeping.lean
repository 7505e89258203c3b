import Cennznet.Lib.Inverse
import Cennznet.Lib.Run
import Cennznet.Theorems.EthBridge.Claims

/-! # The register of claims -/

namespace EthBridge

open StorageMap

variable {K A : Type}

structure Register (K : Type) where
  claims : StorageMap EventClaimId (EthHash × EventTypeId)
  data : StorageMap EventClaimId Bytes
  votes : StorageMap (EventClaimId × K) EventClaimResult
  pending : StorageMap EthHash EventClaimId
  processed : StorageMap EthHash Unit
  typeIds : StorageMap (EthAddress × EthHash) EventTypeId
  types : StorageMap EventTypeId (EthAddress × EthHash)
  nextClaim : EventClaimId
  nextType : EventTypeId

def State.register (s : State K A) : Register K where
  claims := s.eventClaims
  data := s.eventData
  votes := s.eventNotarizations
  pending := s.pendingTxHashes
  processed := s.processedTxHashes
  typeIds := s.eventTypeToTypeId
  types := s.typeIdToEventType
  nextClaim := s.nextEventClaimId
  nextType := s.nextEventTypeId

namespace Register

def withType (r : Register K) (event : EthAddress × EthHash) : Register K :=
  { r with
    typeIds := r.typeIds.insert event r.nextType
    types := r.types.insert r.nextType event
    nextType := r.nextType + 1 }

def submit (r : Register K) (tx : EthHash) (ty : EventTypeId) (data : Bytes) : Register K :=
  { r with
    data := r.data.insert r.nextClaim data
    claims := r.claims.insert r.nextClaim (tx, ty)
    nextClaim := r.nextClaim + 1
    pending := r.pending.insert tx r.nextClaim }

def note (r : Register K) (tx : EthHash) : Register K :=
  { r with processed := r.processed.insert tx () }

def prune (r : Register K) (txHashes : List EthHash) : Register K :=
  { r with processed := r.processed.removeAll txHashes }

def clear (r : Register K) (id : EventClaimId) (tx : EthHash) : Register K :=
  { r with
    data := r.data.remove id
    votes := r.votes.removePrefix id
    claims := r.claims.remove id
    pending := r.pending.remove tx }

structure Sound [DecidableEq K] (r : Register K) : Prop where
  pending : Lookup.Inverse r.pending.get? fun id => (r.claims.get? id).map Prod.fst
  data : ∀ id, r.data.contains id = true ↔ r.claims.contains id = true
  apart : ∀ {tx id}, r.pending.get? tx = some id → r.processed.get? tx = none
  votes : ∀ {id notary rs}, r.votes.get? (id, notary) = some rs → r.claims.contains id = true
  types : Lookup.Inverse r.typeIds.get? r.types.get?
  claimIds : ∀ {id}, r.claims.contains id = true → id.toNat < r.nextClaim.toNat
  typeIds : ∀ {ty event}, r.types.get? ty = some event → ty.toNat < r.nextType.toNat

variable [DecidableEq K]

def vote (r : Register K) (id : EventClaimId) (notary : K) (rs : EventClaimResult) : Register K :=
  { r with votes := r.votes.insert (id, notary) rs }

namespace Sound
variable {r : Register K} {id : EventClaimId} {tx : EthHash} {ty : EventTypeId}

theorem claims_next (S : r.Sound) : r.claims.get? r.nextClaim = none := by
  rw [← not_contains_iff]
  exact Bool.eq_false_iff.mpr fun h => Nat.lt_irrefl _ (S.claimIds h)

theorem withType {ev : EthAddress × EthHash} (S : r.Sound) (hnew : r.typeIds.get? ev = none)
    (hr : r.nextType.toNat + 1 < 2 ^ 32) : (r.withType ev).Sound := by
  have hx : r.types.get? r.nextType = none :=
    Option.eq_none_iff_forall_ne_some.mpr fun ev' h => Nat.lt_irrefl _ (S.typeIds h)
  have hsu : (r.nextType + 1).toNat = r.nextType.toNat + 1 := by bv_omega
  refine ⟨S.pending, S.data, S.apart, S.votes,
    S.types.insert hnew hx (fun _ => get?_insert) fun _ => get?_insert, S.claimIds, ?_⟩
  intro ty' ev' h
  show ty'.toNat < (r.nextType + 1).toNat
  rw [hsu]
  rcases get?_insert_eq_some.mp h with ⟨rfl, -⟩ | ⟨-, hold⟩
  · exact Nat.lt_succ_self _
  · exact Nat.lt_succ_of_lt (S.typeIds hold)

theorem submit (S : r.Sound) (fresh : r.processed.get? tx = none) (idle : r.pending.get? tx = none)
    (hr : r.nextClaim.toNat + 1 < 2 ^ 64) (data : Bytes) : (r.submit tx ty data).Sound := by
  have hsu : (r.nextClaim + 1).toNat = r.nextClaim.toNat + 1 := by bv_omega
  have hx := S.claims_next
  refine ⟨?_, fun id => ?_, ?_, ?_, S.types, ?_, S.typeIds⟩
  · refine S.pending.insert idle (Option.map_eq_none_iff.mpr hx) (fun _ => get?_insert) fun id => ?_
    show ((r.claims.insert r.nextClaim (tx, ty)).get? id).map Prod.fst = _
    rw [get?_insert]
    split <;> rfl
  · show (r.data.insert r.nextClaim data).contains id = true ↔ (r.claims.insert r.nextClaim (tx, ty)).contains id = true
    rw [contains_insert, contains_insert, S.data]
  · intro tx' id' h
    rcases get?_insert_eq_some.mp h with ⟨rfl, -⟩ | ⟨-, hold⟩
    · exact fresh
    · exact S.apart hold
  · intro id' nt res h
    exact contains_insert.mpr (Or.inr (S.votes h))
  · intro id' h
    show id'.toNat < (r.nextClaim + 1).toNat
    rw [hsu]
    rcases contains_insert.mp h with rfl | hold
    · exact Nat.lt_succ_self _
    · exact Nat.lt_succ_of_lt (S.claimIds hold)

theorem vote (S : r.Sound) (listed : r.claims.contains id = true) (nt : K) (res : EventClaimResult) :
    (r.vote id nt res).Sound := by
  refine ⟨S.pending, S.data, S.apart, ?_, S.types, S.claimIds, S.typeIds⟩
  intro id' nt' res' h
  rcases get?_insert_eq_some.mp h with ⟨heq, -⟩ | ⟨-, hold⟩
  · cases heq
    exact listed
  · exact S.votes hold

theorem clear (S : r.Sound) (listed : r.claims.get? id = some (tx, ty)) : (r.clear id tx).Sound := by
  have hpe : r.pending.get? tx = some id :=  (S.pending tx id).mpr (Option.map_eq_some_iff.mpr ⟨_, listed, rfl⟩)
  refine ⟨?_, fun id' => ?_, ?_, ?_, S.types, ?_, S.typeIds⟩
  · refine S.pending.remove hpe (fun _ => get?_remove) fun id' => ?_
    show ((r.claims.remove id).get? id').map Prod.fst = _
    rw [get?_remove]
    split <;> rfl
  · show (r.data.remove id).contains id' = true ↔ (r.claims.remove id).contains id' = true
    rw [contains_remove, contains_remove, S.data]
  · exact fun h => S.apart (get?_remove_eq_some.mp h).2
  · intro id' nt res h
    obtain ⟨hne, hold⟩ := get?_removePrefix_eq_some.mp h
    exact contains_remove.mpr ⟨hne, S.votes hold⟩
  · exact fun h => S.claimIds (contains_remove.mp h).2

theorem note (S : r.Sound) (idle : r.pending.get? tx = none) : (r.note tx).Sound := by
  refine ⟨S.pending, S.data, ?_, S.votes, S.types, S.claimIds, S.typeIds⟩
  intro tx' id' h
  refine (get?_insert_ne ?_).trans (S.apart h)
  rintro rfl
  cases idle.symm.trans h

theorem prune (S : r.Sound) (txHashes : List EthHash) : (r.prune txHashes).Sound := by
  refine ⟨S.pending, S.data, ?_, S.votes, S.types, S.claimIds, S.typeIds⟩
  intro tx' id' h
  show (r.processed.removeAll txHashes).get? tx' = none
  rw [get?_removeAll, S.apart h, ite_self]

end Sound

end Register

section
variable {cfg : Config} {env : Env A} {s s' : State K A}

theorem SigningOnly.register (h : SigningOnly s s') : s'.register = s.register := by
  unfold SigningOnly at h
  have hvi := congrArg State.register h
  exact hvi

theorem eventTypeIdFor_register (s : State K A) (con : EthAddress) (sig : EthHash) :
    (eventTypeIdFor s con sig).1.register = s.register ∨ s.eventTypeToTypeId.get? (con, sig) = none ∧
        (eventTypeIdFor s con sig).1.register = s.register.withType (con, sig) := by
  unfold eventTypeIdFor
  cases hty : s.eventTypeToTypeId.get? (con, sig) with
  | some ty => exact Or.inl rfl
  | none => exact Or.inr ⟨rfl, rfl⟩

variable {id : EventClaimId}

variable [DecidableEq K]

theorem handleCallNotarization_register {cid : EthCallId} {res : CheckedEthCallResult} {nt : K}
    (h : handleCallNotarization cfg env s cid res nt = .ok s') : s'.register = s.register := by
  obtain ⟨-, ⟨_, _, -, rfl⟩ | ⟨-, rfl⟩ | ⟨-, rfl⟩⟩ := handleCallNotarization_cases h <;> rfl

def NoWrap (s : State K A) (op : Op K A) : Prop :=
  ∀ contract signature tx data, op.call = .submitEventClaim contract signature tx data →
    s.nextEventClaimId.toNat + 1 < 2 ^ 64 ∧
      (s.eventTypeToTypeId.get? (contract, signature) = none → s.nextEventTypeId.toNat + 1 < 2 ^ 32)

theorem submitEventClaim_sound {con : EthAddress} {sig tx : EthHash} {data : Bytes}
    (S : s.register.Sound) (hcl : s.nextEventClaimId.toNat + 1 < 2 ^ 64)
    (hte : s.eventTypeToTypeId.get? (con, sig) = none → s.nextEventTypeId.toNat + 1 < 2 ^ 32)
    (h : submitEventClaim s con sig tx data = .ok (s', id)) : s'.register.Sound := by
  obtain ⟨hfr, hdl, rfl, rfl⟩ := submitEventClaim_inv h
  change ((eventTypeIdFor s con sig).1.register.submit tx _ data).Sound
  rcases eventTypeIdFor_register s con sig with hs | ⟨hnew, hty⟩
  · rw [hs]
    exact S.submit hfr hdl hcl data
  · rw [hty]
    exact (S.withType hnew (hte hnew)).submit hfr hdl hcl data

theorem handleEventNotarization_sound {res : EventClaimResult} {nt : K} (S : s.register.Sound)
    (h : handleEventNotarization cfg env s id res nt = .ok s') : s'.register.Sound := by
  obtain ⟨tx, ty, hli, hde⟩ := handleEventNotarization_inv h
  have hvo : (s.withVote id nt res).register.Sound := S.vote (contains_iff.mpr ⟨_, hli⟩) nt res
  have hcl := hvo.clear hli
  obtain rfl | ⟨_, _, _, rfl⟩ | ⟨-, _, _, _, _, -, rfl⟩ := decideClaim_inv hde
  · exact hvo
  · exact hcl
  · exact hcl.note get?_remove_self

theorem dispatch_sound {op : Op K A} (S : s.register.Sound) (hop : NoWrap s op)
    (h : dispatch cfg op.env s op.call = .ok s') : s'.register.Sound := by
  obtain ⟨env, call⟩ := op
  cases call with
  | onInitialize bn =>
    rcases onInitialize_inv h with ⟨bk, -, -, rfl⟩ | rfl
    · rw [(processDelayedProofs_signingOnly cfg (pruneBucket s bk)).register]
      exact S.prune _
    · rw [(processDelayedProofs_signingOnly cfg s).register]
      exact S
  | setEventConfirmations | setEventDeadline | setDelayedEventProofsPerBlock | checkedEthCall =>
    cases h
    exact S
  | submitNotarization pl =>
    obtain ⟨nt, -, t, ht, rfl⟩ := submitNotarization_eq_ok.mp h
    suffices hso : t.register.Sound from hso
    cases pl with
    | call cid i res =>
      rw [handleCallNotarization_register ht]
      exact S
    | event id i res => exact handleEventNotarization_sound S ht
  | submitEventClaim con sig tx data =>
    obtain ⟨r, hsu, rfl⟩ := Result.map_eq_ok.mp h
    obtain ⟨hcl, hty⟩ := hop con sig tx data rfl
    exact submitEventClaim_sound S hcl hty hsu
  | generateEventProof event =>
    cases h
    rw [(generateEventProof_signingOnly s event).register]
    exact S
  | onNewSession vs queued =>
    cases h
    rw [(onNewSession_signingOnly env s vs queued).register]
    exact S
  | onBeforeSessionEnding =>
    cases h
    rw [(onBeforeSessionEnding_signingOnly env s).register]
    exact S

theorem step_register_sound {op : Op K A} (hop : NoWrap s op) (S : s.register.Sound) :
    (step cfg s op).register.Sound := by
  unfold step
  split
  · exact dispatch_sound S hop ‹_›
  · exact S

theorem genesis_register_sound (keys : List K) (dl : Seconds) : (State.genesis keys dl : State K A).register.Sound where
  pending := .of_none (fun _ => get?_empty) fun _ => rfl
  data _ := Iff.rfl
  apart h := by cases h
  votes h := by cases h
  types := .of_none (fun _ => get?_empty) fun _ => get?_empty
  claimIds h := by cases h
  typeIds h := by cases h

end

/-! ### Consistent bookkeeping -/

/-- The maps describe the same claims, no transaction is both pending and processed, the maps of types are inverse, and
only pending claims have votes. -/
structure Bookkeeping [DecidableEq K] (s : State K A) : Prop where
  claims : ∀ id tx, (∃ ty, s.eventClaims.get? id = some (tx, ty)) ↔ s.pendingTxHashes.get? tx = some id
  data : ∀ id, s.eventData.contains id = true ↔ s.eventClaims.contains id = true
  apart : ∀ tx, ¬(s.pendingTxHashes.contains tx = true ∧ s.processedTxHashes.contains tx = true)
  types : ∀ event ty, s.eventTypeToTypeId.get? event = some ty ↔ s.typeIdToEventType.get? ty = some event
  votes : ∀ id notary, s.eventNotarizations.contains (id, notary) = true → s.eventClaims.contains id = true

theorem Register.Sound.bookkeeping [DecidableEq K] {s : State K A} (S : s.register.Sound) : Bookkeeping s where
  claims id tx := by
    refine Iff.trans ?_ (S.pending tx id).symm
    rw [Option.map_eq_some_iff]
    constructor
    · rintro ⟨ty, h⟩
      exact ⟨_, h, rfl⟩
    · rintro ⟨⟨_, ty⟩, h, rfl⟩
      exact ⟨ty, h⟩
  data := S.data
  apart tx := by
    rintro ⟨hpe, hpr⟩
    obtain ⟨id, hid⟩ := contains_iff.mp hpe
    obtain ⟨u, hu⟩ := contains_iff.mp hpr
    cases (S.apart hid).symm.trans hu
  types := S.types
  votes id nt h := by
    obtain ⟨res, hre⟩ := contains_iff.mp h
    exact S.votes hre

/-- In every run in which no id wraps around, the bookkeeping is consistent. -/
theorem bookkeeping_consistent [DecidableEq K] (cfg : Config) (keys : List K) (deadline : Seconds)
    (ops : List (Op K A)) (hrun : Steps.Each (step cfg) NoWrap (State.genesis keys deadline) ops) :
    Bookkeeping (Steps.execute (step cfg) (State.genesis keys deadline) ops) := by
  have S := hrun.invariant (I := fun s : State K A => s.register.Sound)
    (fun _ _ hop S => step_register_sound hop S) (genesis_register_sound keys deadline)
  exact S.bookkeeping

def twoClaims : List (Op Nat Nat) := List.map (plainOp 100 [1])
  [.submitEventClaim 1 2 5 [], .submitEventClaim 1 2 6 [], .submitNotarization (.event 0 0 .valid)]

theorem bookkeeping_of_two_claims :
    let s := Steps.execute (step runtimeConfig) (State.genesis [11] 604800) twoClaims
    (s.processedTxHashes.contains 5 = true ∧ s.eventClaims.contains 0 = false ∧ s.pendingTxHashes.get? 6 = some 1) ∧
      Bookkeeping s := by
  have hrun : Steps.Each (step runtimeConfig) NoWrap (State.genesis [11] 604800) twoClaims := by
    refine ⟨fun _ _ _ _ h => ?_, fun _ _ _ _ h => ?_, fun _ _ _ _ h => ?_, trivial⟩ <;> cases h
    · exact ⟨by decide +kernel, fun _ => by decide +kernel⟩
    · exact ⟨by decide +kernel, fun _ => by decide +kernel⟩
  refine ⟨⟨?_, ?_, ?_⟩, bookkeeping_consistent runtimeConfig [11] 604800 twoClaims hrun⟩ <;> decide +kernel

end EthBridge
