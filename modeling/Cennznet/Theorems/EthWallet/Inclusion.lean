import Cennznet.EthWallet
import Cennznet.Lib.Run
import Mathlib.Order.Basic
import Mathlib.Data.Nat.Basic

/-! # Inclusion of a wallet's extrinsic

The nonce is counted up only once the fee is paid. -/

namespace EthWallet

variable {Call A EthAddress Sig Public Hash Index Info Rest DispatchError : Type}
variable [DecidableEq EthAddress]

section
variable (cfg : Config Call A EthAddress Sig Public Hash Index Info Rest DispatchError)

def Signs (x : Extrinsic Call EthAddress Sig) (nonce : Index) : Prop :=
  (ecrecover cfg x.signature (fullMsg cfg x.call nonce) x.ethAddress).isSome

instance (x : Extrinsic Call EthAddress Sig) (nonce : Index) : Decidable (Signs cfg x nonce) :=
  inferInstanceAs (Decidable (_ = true))

def OnePayload : Prop :=
  ∀ signature address call nonce call' nonce',
    Signs cfg ⟨call, address, signature⟩ nonce → Signs cfg ⟨call', address, signature⟩ nonce' → call = call' ∧ nonce = nonce'

def NoncesKept [LE Index] : Prop :=
  ∀ s call who a, s.nonces a ≤ (cfg.dispatch s call who).1.nonces a

def FeePaid (s : State A EthAddress Index Rest DispatchError) (x : Extrinsic Call EthAddress Sig) : Prop :=
  (cfg.payFee s.rest (feeLength cfg x.call) x.call (cfg.getDispatchInfo x.call) (cfg.intoAccountId x.ethAddress)).2 = .ok ()

end

variable {cfg : Config Call A EthAddress Sig Public Hash Index Info Rest DispatchError}
variable {s : State A EthAddress Index Rest DispatchError} {x : Extrinsic Call EthAddress Sig}

theorem validateUnsigned_eq_ok :
    (∃ v, validateUnsigned cfg s x = .ok v) ↔ Signs cfg x (s.nonces (cfg.intoAccountId x.ethAddress)) := by
  simp only [validateUnsigned, Signs]
  cases ecrecover cfg x.signature (fullMsg cfg x.call (s.nonces (cfg.intoAccountId x.ethAddress))) x.ethAddress with
  | none => simp
  | some key => simp

theorem validateUnsigned_eq_error :
    validateUnsigned cfg s x = .error .badProof ↔ ¬ Signs cfg x (s.nonces (cfg.intoAccountId x.ethAddress)) := by
  rw [← validateUnsigned_eq_ok]
  cases validateUnsigned cfg s x with
  | error e => exact iff_of_true (by cases e; rfl) (fun ⟨v, hv⟩ => nomatch hv)
  | ok v => exact iff_of_false (fun h => nomatch h) (fun h => h ⟨v, rfl⟩)

theorem rejected_of_lt [Preorder Index] (hone : OnePayload cfg) {n : Index} (hsig : Signs cfg x n)
    (hlt : n < s.nonces (cfg.intoAccountId x.ethAddress)) : validateUnsigned cfg s x = .error .badProof := by
  rw [validateUnsigned_eq_error]
  intro han
  have hs := (hone x.signature x.ethAddress x.call n x.call _ hsig han).2
  exact (lt_irrefl _) (hs ▸ hlt)

section
variable [DecidableEq A]

def counted (cfg : Config Call A EthAddress Sig Public Hash Index Info Rest DispatchError)
    (s : State A EthAddress Index Rest DispatchError) (x : Extrinsic Call EthAddress Sig) :
    State A EthAddress Index Rest DispatchError :=
  let s := (payFee cfg s x.call (cfg.intoAccountId x.ethAddress)).1
  { s with nonces := fun a => if a = cfg.intoAccountId x.ethAddress then cfg.incNonce (s.nonces a) else s.nonces a }

section
variable (hsig : Signs cfg x (s.nonces (cfg.intoAccountId x.ethAddress)))
include hsig

theorem call_nonces_of_feePaid (hp : FeePaid cfg s x) :
    (call cfg s x .none).1.nonces =
      (cfg.dispatch (counted cfg s x) x.call (cfg.intoAccountId x.ethAddress)).1.nonces := by
  obtain ⟨key, hkey⟩ := Option.isSome_iff_exists.mp hsig
  simp only [call, counted, payFee, hkey, show _ = Except.ok () from hp, Except.mapError]

theorem call_nonces_of_not_feePaid (hp : ¬ FeePaid cfg s x) : (call cfg s x .none).1.nonces = s.nonces := by
  obtain ⟨key, hkey⟩ := Option.isSome_iff_exists.mp hsig
  obtain ⟨e, he⟩ : ∃ e, (cfg.payFee s.rest (feeLength cfg x.call) x.call (cfg.getDispatchInfo x.call)
      (cfg.intoAccountId x.ethAddress)).2 = .error e := by
    rcases hres : (cfg.payFee s.rest (feeLength cfg x.call) x.call (cfg.getDispatchInfo x.call)
      (cfg.intoAccountId x.ethAddress)).2 with e | ⟨⟩
    · exact ⟨e, rfl⟩
    · exact absurd hres hp
  simp only [call, payFee, hkey, he, Except.mapError]

end

section
variable [Preorder Index] (hinc : ∀ n, n < cfg.incNonce n) (hkept : NoncesKept cfg) (hone : OnePayload cfg)

include hinc hkept in
theorem call_counts (hsig : Signs cfg x (s.nonces (cfg.intoAccountId x.ethAddress))) (hp : FeePaid cfg s x) :
    s.nonces (cfg.intoAccountId x.ethAddress) < (call cfg s x .none).1.nonces (cfg.intoAccountId x.ethAddress) := by
  rw [call_nonces_of_feePaid hsig hp]
  have hco : (counted cfg s x).nonces (cfg.intoAccountId x.ethAddress) =
      cfg.incNonce (s.nonces (cfg.intoAccountId x.ethAddress)) := if_pos rfl
  have hdi := hkept (counted cfg s x) x.call (cfg.intoAccountId x.ethAddress) (cfg.intoAccountId x.ethAddress)
  rw [hco] at hdi
  exact lt_of_lt_of_le (hinc _) hdi

include hinc hkept hone in
/-- An accepted extrinsic is rejected after its dispatch exactly if its fee was paid. -/
theorem call_rejects_iff_feePaid (haccept : ∃ v, validateUnsigned cfg s x = .ok v) :
    validateUnsigned cfg (call cfg s x .none).1 x = .error .badProof ↔ FeePaid cfg s x := by
  have hsig := validateUnsigned_eq_ok.mp haccept
  constructor
  · intro hre
    by_contra hp
    rw [validateUnsigned_eq_error, call_nonces_of_not_feePaid hsig hp] at hre
    exact hre hsig
  · intro hp
    exact rejected_of_lt hone hsig (call_counts hinc hkept hsig hp)

include hinc hkept in
theorem call_nonces_le (hsig : Signs cfg x (s.nonces (cfg.intoAccountId x.ethAddress))) (a : A) :
    s.nonces a ≤ (call cfg s x .none).1.nonces a := by
  by_cases hp : FeePaid cfg s x
  · rw [call_nonces_of_feePaid hsig hp]
    refine le_trans ?_ (hkept (counted cfg s x) x.call (cfg.intoAccountId x.ethAddress) a)
    by_cases ha : a = cfg.intoAccountId x.ethAddress
    · exact le_of_le_of_eq (le_of_lt (hinc _)) (if_pos ha).symm
    · exact (if_neg ha).ge
  · exact (congrFun (call_nonces_of_not_feePaid hsig hp) a).ge

/-- The extrinsic of a wallet, or something else that changes the storage. -/
inductive Event (Call A EthAddress Sig Index Rest DispatchError : Type) where
  | wallet (x : Extrinsic Call EthAddress Sig)
  | other (change : State A EthAddress Index Rest DispatchError → State A EthAddress Index Rest DispatchError)

def happen (cfg : Config Call A EthAddress Sig Public Hash Index Info Rest DispatchError)
    (s : State A EthAddress Index Rest DispatchError) :
    Event Call A EthAddress Sig Index Rest DispatchError → State A EthAddress Index Rest DispatchError
  | .wallet x =>
    match validateUnsigned cfg s x with
    | .ok _ => (call cfg s x .none).1
    | .error _ => s
  | .other change => change s

include hinc hkept hone in
/-- An extrinsic whose fee was paid is never included again, whatever the chain does that resets no nonce. -/
theorem rejected_ever_after {events : List (Event Call A EthAddress Sig Index Rest DispatchError)}
    (hac : ∃ v, validateUnsigned cfg s x = .ok v) (hp : FeePaid cfg s x)
    (hev : ∀ change, .other change ∈ events → ∀ s a, s.nonces a ≤ (change s).nonces a) :
    validateUnsigned cfg (Steps.execute (happen cfg) (call cfg s x .none).1 events) x = .error .badProof := by
  have hsig := validateUnsigned_eq_ok.mp hac
  refine rejected_of_lt hone hsig ?_
  refine Steps.execute_invariant
    (I := fun t : State A EthAddress Index Rest DispatchError => s.nonces (cfg.intoAccountId x.ethAddress) < t.nonces (cfg.intoAccountId x.ethAddress)) ?_
    (call_counts hinc hkept hsig hp)
  intro ev het t hlt
  cases ev with
  | other change => exact lt_of_lt_of_le hlt (hev change het t _)
  | wallet y =>
    cases hy : validateUnsigned cfg t y with
    | error e => simpa only [happen, hy] using hlt
    | ok v =>
      have hle := call_nonces_le hinc hkept (validateUnsigned_eq_ok.mp ⟨v, hy⟩) (cfg.intoAccountId x.ethAddress)
      simpa only [happen, hy] using lt_of_lt_of_le hlt hle

end

end

/-! ### A wallet without funds -/

/-- A message hashes to the number of zero bytes it ends with, the payload of a nonce is that many zero bytes, a fee is
one unit of the only balance, and calls do nothing. -/
def sampleConfig : Config Unit Unit Unit Nat Unit Nat Nat Unit Nat Unit where
  keccak256 msg := (msg.reverse.takeWhile (· == 0)).length
  recoverCompressed signature hash := if signature = hash then some () else none
  toEthereum _ := some ()
  base64Encode msg := msg
  encodeCall _ := []
  encodePayload _ nonce := List.replicate nonce 0
  intoAccountId _ := ()
  getDispatchInfo _ := ()
  payFee balance _ _ _ _ := if balance = 0 then (balance, .error ()) else (balance - 1, .ok ())
  incNonce n := n + 1
  dispatch s _ _ := (s, .ok ())
  unsignedPriority := 0

theorem sampleConfig_signs {sig nonce : Nat} : Signs sampleConfig ⟨(), (), sig⟩ nonce ↔ sig = nonce := by
  have hl : fullMsg sampleConfig () nonce =
      bytes "data:application/octet-stream;base64" ++ 44 :: List.replicate nonce 0 := by
    rw [List.append_cons]
    rfl
  have hze : ((signableMessage (fullMsg sampleConfig () nonce)).reverse.takeWhile (· == 0)).length = nonce := by
    simp [signableMessage, hl]
  have hha : sampleConfig.keccak256 (signableMessage (fullMsg sampleConfig () nonce)) = nonce := hze
  simp only [Signs, ecrecover, hha]
  by_cases h : sig = nonce
  · simp [h, sampleConfig]
  · simp [h, sampleConfig]

theorem sampleConfig_onePayload : OnePayload sampleConfig := by
  intro sig addr call nonce call' nonce' h h'
  exact ⟨rfl, (sampleConfig_signs.mp h).symm.trans (sampleConfig_signs.mp h')⟩

theorem sampleConfig_noncesKept : NoncesKept sampleConfig := fun _ _ _ _ => Nat.le_refl _

def funded : State Unit Unit Nat Nat Unit := { nonces := fun _ => 3, rest := 1, events := [] }

def unfunded : State Unit Unit Nat Nat Unit := { nonces := fun _ => 3, rest := 0, events := [] }

theorem call_rejects_iff_feePaid_funded :
    validateUnsigned sampleConfig (call sampleConfig funded ⟨(), (), 3⟩ .none).1 ⟨(), (), 3⟩ = .error .badProof := by
  have hac : ∃ v, validateUnsigned sampleConfig funded ⟨(), (), 3⟩ = .ok v :=
    validateUnsigned_eq_ok.mpr (sampleConfig_signs.mpr rfl)
  exact (call_rejects_iff_feePaid Nat.lt_succ_self sampleConfig_noncesKept sampleConfig_onePayload hac).mpr rfl

theorem rejected_ever_after_funded :
    validateUnsigned sampleConfig (Steps.execute (happen sampleConfig) (call sampleConfig funded ⟨(), (), 3⟩ .none).1
      [.wallet ⟨(), (), 4⟩, .wallet ⟨(), (), 3⟩]) ⟨(), (), 3⟩ = .error .badProof :=
  rejected_ever_after Nat.lt_succ_self sampleConfig_noncesKept sampleConfig_onePayload
    (validateUnsigned_eq_ok.mpr (sampleConfig_signs.mpr rfl)) rfl (by simp)

theorem unfunded_accepted_again :
    (∀ n, n < sampleConfig.incNonce n) ∧ NoncesKept sampleConfig ∧ OnePayload sampleConfig ∧
    (∃ v, validateUnsigned sampleConfig unfunded ⟨(), (), 3⟩ = .ok v) ∧
    (call sampleConfig unfunded ⟨(), (), 3⟩ .none).2 = .error .cantPay ∧
    (∃ v, validateUnsigned sampleConfig (call sampleConfig unfunded ⟨(), (), 3⟩ .none).1 ⟨(), (), 3⟩ = .ok v) := by
  have hsig : Signs sampleConfig ⟨(), (), 3⟩ 3 := sampleConfig_signs.mpr rfl
  have hun : ¬ FeePaid sampleConfig unfunded ⟨(), (), 3⟩ := fun h => nomatch h
  have hno := call_nonces_of_not_feePaid (s := unfunded) hsig hun
  refine ⟨Nat.lt_succ_self, sampleConfig_noncesKept, sampleConfig_onePayload, validateUnsigned_eq_ok.mpr hsig, by decide +kernel,
    validateUnsigned_eq_ok.mpr ?_⟩
  rw [hno]
  exact hsig

end EthWallet
