import Cennznet.Theorems.Erc20Peg.Staking

/-! # The peg is solvent

Issued, handed to the bridge and delayed are together the deposits executed. -/

namespace Erc20Peg

open StorageMap Steps List

open EthBridge (EthAddress)
open GenericAsset

def WithdrawMessage.worth (token : EthAddress) (msg : WithdrawMessage) : Nat :=
  if msg.tokenAddress = token then msg.amount.toNat else 0

def PendingClaim.worth (token : EthAddress) : PendingClaim → Nat
  | .deposit _ _ => 0
  | .withdrawal msg => msg.worth token

namespace Books

variable {A : Type}

def proven (b : Books A) (token : EthAddress) : Nat := (b.messages.map (·.worth token)).sum

def pending (b : Books A) (token : EthAddress) : Nat := b.delayed.sumBy fun _ claim => claim.worth token

def claimed (b : Books A) (token : EthAddress) : Nat := b.proven token + b.pending token

def deposited (b : Books A) (aid : AssetId) : Nat :=
  (b.deposits.map fun d => if d.1 = aid then d.2.toNat else 0).sum

variable {b b' : Books A} {token : EthAddress} {id : ClaimId} {claim : PendingClaim} {msg : WithdrawMessage}

theorem claimed_prove : (b.prove msg).claimed token = b.claimed token + msg.worth token := by
  have hpr : (b.prove msg).proven token = b.proven token + msg.worth token := by
    unfold proven prove
    rw [map_append, sum_append]
    simp
  have hpe : (b.prove msg).pending token = b.pending token := rfl
  unfold claimed
  omega

theorem claimed_delay (hfr : b.delayed.get? b.nextClaim = none) :
    (b.delay claim).claimed token = b.claimed token + claim.worth token := by
  have hsum : (b.delay claim).pending token + b.delayed.share (fun _ c => PendingClaim.worth token c) b.nextClaim =
      b.pending token + claim.worth token := sumBy_insert
  have hsh : b.delayed.share (fun _ c => PendingClaim.worth token c) b.nextClaim = 0 := by
    unfold StorageMap.share
    rw [hfr]
    rfl
  have hpr : (b.delay claim).proven token = b.proven token := rfl
  unfold claimed
  omega

theorem claimed_take (h : b.delayed.get? id = some claim) :
    (b.take id).claimed token + claim.worth token = b.claimed token := by
  have hsum : (b.take id).pending token + b.delayed.share (fun _ c => PendingClaim.worth token c) id = b.pending token :=
    sumBy_remove
  have hsh : b.delayed.share (fun _ c => PendingClaim.worth token c) id = claim.worth token := by
    unfold StorageMap.share
    rw [h]
    rfl
  have hpr : (b.take id).proven token = b.proven token := rfl
  unfold claimed
  omega

def credit (b : Books A) (assets : GenericAsset.State A) (aid : AssetId) (n : Balance) : Books A :=
  { b with assets := assets, deposits := b.deposits ++ [(aid, n)] }

theorem deposited_credit {assets : GenericAsset.State A} {aid a : AssetId} {n : Balance} :
    (b.credit assets aid n).deposited a = b.deposited a + if aid = a then n.toNat else 0 := by
  unfold deposited credit
  rw [map_append, sum_append]
  simp

def link (b : Books A) (assets : GenericAsset.State A) (token : EthAddress) : Books A :=
  { b with
    assets := assets
    tokens := b.tokens.insert token b.assets.nextAssetId
    pegged := b.pegged.insert b.assets.nextAssetId token }

end Books

variable {K A : Type}

/-- The books of the peg are in order: the maps agree, the claims are those below the next id, nothing is held of an
unused id, and the sums are right. -/
structure Sound (cfg : Config A) (b : Books A) : Prop where
  asset : ∀ {a token}, b.pegged.get? a = some token → b.tokens.get? token = some a
  token : ∀ {token a}, b.tokens.get? token = some a → a = cfg.stakingCurrency ∨ b.pegged.get? a = some token
  created : ∀ {a token}, b.pegged.get? a = some token → a.toNat < b.assets.nextAssetId.toNat
  fresh : ∀ {id claim}, b.delayed.get? id = some claim → id.toNat < b.nextClaim.toNat
  held : ∀ {a token}, b.pegged.get? a = some token → a ≠ cfg.stakingCurrency →
    (b.assets.issuanceOf a).toNat = b.assets.holdings a
  unused : ∀ {a}, a ≠ cfg.stakingCurrency → b.assets.nextAssetId.toNat ≤ a.toNat → b.assets.holdings a = 0
  unknown : ∀ {token}, b.tokens.get? token = none → b.claimed token = 0
  unpegged : ∀ {a}, a ≠ cfg.stakingCurrency → b.pegged.get? a = none → b.deposited a = 0
  solvent : ∀ {a token}, a ≠ cfg.stakingCurrency → b.pegged.get? a = some token →
    (b.assets.issuanceOf a).toNat + b.claimed token = b.deposited a

section
variable {cfg : Config A} {b b' : Books A}

theorem Sound.fresh_next (h : Sound cfg b) : b.delayed.get? b.nextClaim = none := by
  cases hget : b.delayed.get? b.nextClaim with
  | none => rfl
  | some claim => exact absurd (h.fresh hget) (Nat.lt_irrefl _)

theorem Sound.pegged_next (h : Sound cfg b) : b.pegged.get? b.assets.nextAssetId = none := by
  cases hget : b.pegged.get? b.assets.nextAssetId with
  | none => rfl
  | some t => exact absurd (h.created hget) (Nat.lt_irrefl _)

structure Accounted (cfg : Config A) (b b' : Books A) : Prop where
  tokens : b'.tokens = b.tokens
  pegged : b'.pegged = b.pegged
  fresh : ∀ {id claim}, b'.delayed.get? id = some claim → id.toNat < b'.nextClaim.toNat
  next : b.assets.nextAssetId.toNat ≤ b'.assets.nextAssetId.toNat
  held : ∀ {a token}, b.pegged.get? a = some token → a ≠ cfg.stakingCurrency →
    (b'.assets.issuanceOf a).toNat = b'.assets.holdings a
  unused : ∀ {a}, a ≠ cfg.stakingCurrency → b'.assets.nextAssetId.toNat ≤ a.toNat →
    b'.assets.holdings a = b.assets.holdings a
  unknown : ∀ {token}, b.tokens.get? token = none → b'.claimed token = b.claimed token
  unpegged : ∀ {a}, a ≠ cfg.stakingCurrency → b.pegged.get? a = none → b'.deposited a = b.deposited a
  sums : ∀ {a token}, b.pegged.get? a = some token → a ≠ cfg.stakingCurrency →
    (b'.assets.issuanceOf a).toNat + b'.claimed token + b.deposited a =
      (b.assets.issuanceOf a).toNat + b.claimed token + b'.deposited a

theorem Sound.accounted (h : Sound cfg b) (hb : Accounted cfg b b') : Sound cfg b' where
  asset ha := by
    rw [hb.pegged] at ha
    rw [hb.tokens]
    exact h.asset ha
  token ht := by
    rw [hb.tokens] at ht
    rw [hb.pegged]
    exact h.token ht
  created ha := by
    rw [hb.pegged] at ha
    exact Nat.lt_of_lt_of_le (h.created ha) hb.next
  fresh := hb.fresh
  held ha hne := by
    rw [hb.pegged] at ha
    exact hb.held ha hne
  unused hne hle := (hb.unused hne hle).trans (h.unused hne (Nat.le_trans hb.next hle))
  unknown ht := by
    rw [hb.tokens] at ht
    exact (hb.unknown ht).trans (h.unknown ht)
  unpegged hne ha := by
    rw [hb.pegged] at ha
    exact (hb.unpegged hne ha).trans (h.unpegged hne ha)
  solvent hne ha := by
    rw [hb.pegged] at ha
    have hsu := hb.sums ha hne
    have hso := h.solvent hne ha
    omega

/-! ### Delayed claims -/

theorem Sound.fresh_delay (h : Sound cfg b) (hr : b.nextClaim.toNat + 1 < 2 ^ 64) (claim : PendingClaim) {id : ClaimId}
    {c : PendingClaim} (hc : (b.delay claim).delayed.get? id = some c) : id.toNat < (b.delay claim).nextClaim.toNat := by
  have hx : (b.delay claim).nextClaim.toNat = b.nextClaim.toNat + 1 := by
    show (b.nextClaim + 1).toNat = _
    bv_omega
  rw [hx]
  rcases get?_insert_eq_some.mp hc with ⟨rfl, -⟩ | ⟨-, hold⟩
  · exact Nat.lt_succ_self _
  · exact Nat.lt_succ_of_lt (h.fresh hold)

theorem Sound.fresh_take (h : Sound cfg b) (id : ClaimId) {id' : ClaimId} {c : PendingClaim}
    (hc : (b.take id).delayed.get? id' = some c) : id'.toNat < b.nextClaim.toNat :=
  h.fresh (get?_remove_eq_some.mp hc).2

theorem Sound.of_claimed (h : Sound cfg b) (hss : b'.assets = b.assets) (htok : b'.tokens = b.tokens)
    (hpe : b'.pegged = b.pegged) (hdp : b'.deposits = b.deposits)
    (hfr : ∀ {id claim}, b'.delayed.get? id = some claim → id.toNat < b'.nextClaim.toNat)
    (hcl : ∀ token, b'.claimed token = b.claimed token) : Sound cfg b' := by
  have hde (a : AssetId) : b'.deposited a = b.deposited a := by
    unfold Books.deposited
    rw [hdp]
  refine h.accounted ⟨htok, hpe, hfr, ?_, ?_, ?_, fun _ => hcl _, fun _ _ => hde _, ?_⟩
  · rw [hss]
  · rw [hss]
    exact h.held
  · rw [hss]
    exact fun _ _ => rfl
  · intro a token _ _
    rw [hss, hcl, hde]

theorem Sound.delay_deposit (h : Sound cfg b) (hr : b.nextClaim.toNat + 1 < 2 ^ 64) (claim : Erc20DepositEvent)
    (tx : EthBridge.EthHash) : Sound cfg (b.delay (.deposit claim tx)) :=
  h.of_claimed rfl rfl rfl rfl (h.fresh_delay hr _) fun _ => Books.claimed_delay h.fresh_next

theorem Sound.processed (h : Sound cfg b) (hb : b.Processed b') : Sound cfg b' := by
  cases hb with
  | none => exact h
  | submit hli =>
    exact h.of_claimed rfl rfl rfl rfl (h.fresh_take _) fun token => Books.claimed_take hli
  | @prove id msg aid hli hkn =>
    refine h.of_claimed rfl rfl rfl rfl (h.fresh_take _) fun token => ?_
    rw [Books.claimed_prove]
    exact Books.claimed_take hli
  | @lose id msg hli hun =>
    refine h.of_claimed rfl rfl rfl rfl (h.fresh_take _) fun token => ?_
    have hta : (b.take id).claimed token + msg.worth token = b.claimed token := Books.claimed_take hli
    by_cases htok : msg.tokenAddress = token
    · subst htok
      have hz := h.unknown hun
      omega
    · have hz : msg.worth token = 0 := if_neg htok
      omega

theorem Sound.processedAll (h : Sound cfg b) (hb : b.ProcessedAll b') : Sound cfg b' := by
  induction hb with
  | refl => exact h
  | tail _ hs ih => exact ih.processed hs

variable [DecidableEq A] {assets assets' : GenericAsset.State A} {o : A} {aid a : AssetId}
  {n : Balance} {token ben : EthAddress}

structure Exchanged (cfg : Config A) (token : EthAddress) (aid : AssetId) (b b' : Books A) : Prop where
  tokens : b'.tokens = b.tokens
  pegged : b'.pegged = b.pegged
  fresh : ∀ {id claim}, b'.delayed.get? id = some claim → id.toNat < b'.nextClaim.toNat
  next : b'.assets.nextAssetId = b.assets.nextAssetId
  leaves : ∀ {a}, a ≠ aid → Leaves b.assets b'.assets a
  held : aid ≠ cfg.stakingCurrency → (b'.assets.issuanceOf aid).toNat = b'.assets.holdings aid
  claimed : ∀ {t}, t ≠ token → b'.claimed t = b.claimed t
  deposited : ∀ {a}, a ≠ aid → b'.deposited a = b.deposited a
  sums : aid ≠ cfg.stakingCurrency → (b'.assets.issuanceOf aid).toNat + b'.claimed token + b.deposited aid =
      (b.assets.issuanceOf aid).toNat + b.claimed token + b'.deposited aid

theorem Sound.exchanged (h : Sound cfg b) (htok : b.tokens.get? token = some aid)
    (hb : Exchanged cfg token aid b b') : Sound cfg b' := by
  have hpe (hne : aid ≠ cfg.stakingCurrency) : b.pegged.get? aid = some token := (h.token htok).resolve_left hne
  -- of another asset the token is another one, too
  have hoth {a : AssetId} {t : EthAddress} (ha : b.pegged.get? a = some t) (hne : a ≠ aid) : t ≠ token := by
    rintro rfl
    exact hne (Option.some.inj ((h.asset ha).symm.trans htok))
  refine h.accounted ⟨hb.tokens, hb.pegged, hb.fresh, Nat.le_of_eq (congrArg BitVec.toNat hb.next.symm), ?_, ?_, ?_, ?_, ?_⟩
  · intro a t ha hne
    by_cases hs : a = aid
    · subst hs
      exact hb.held hne
    · rw [(hb.leaves hs).issuance, (hb.leaves hs).holdings]
      exact h.held ha hne
  · intro a hne hle
    rw [hb.next] at hle
    refine (hb.leaves fun hs => ?_).holdings
    subst hs
    exact absurd (h.created (hpe hne)) (Nat.not_lt.mpr hle)
  · intro t ht
    refine hb.claimed fun hs => ?_
    rw [hs, htok] at ht
    cases ht
  · intro a hne ha
    refine hb.deposited fun hs => ?_
    subst hs
    rw [hpe hne] at ha
    cases ha
  · intro a t ha hne
    by_cases hs : a = aid
    · subst hs
      obtain rfl : token = t := Option.some.inj ((hpe hne).symm.trans ha)
      exact hb.sums hne
    · rw [(hb.leaves hs).issuance, hb.claimed (hoth ha hs), hb.deposited hs]

theorem tookPayment_leaves (h : TookPayment cfg assets o aid n assets') (ha : a ≠ aid) : Leaves assets assets' a := by
  unfold TookPayment at h
  split at h
  · exact transfer_leaves h ha
  · obtain ⟨left, imb, hwi, rfl⟩ := h
    exact withdraw_leaves hwi ha

theorem tookPayment_nextAssetId (h : TookPayment cfg assets o aid n assets') :
    assets'.nextAssetId = assets.nextAssetId := by
  unfold TookPayment at h
  split at h
  · exact (transfer_unchanged h).2
  · obtain ⟨left, imb, hwi, rfl⟩ := h
    have hx : left.nextAssetId = assets.nextAssetId := withdraw_nextAssetId hwi
    exact hx

theorem tookPayment_burns (h : TookPayment cfg assets o aid n assets') (hne : aid ≠ cfg.stakingCurrency)
    (hhe : (assets.issuanceOf aid).toNat = assets.holdings aid) :
    (assets'.issuanceOf aid).toNat + n.toNat = (assets.issuanceOf aid).toNat ∧
      assets'.holdings aid + n.toNat = assets.holdings aid := by
  unfold TookPayment at h
  rw [if_neg hne] at h
  obtain ⟨left, imb, hwi, rfl⟩ := h
  exact withdraw_burns hhe hwi

theorem worth_self : (⟨token, n.setWidth 256, ben⟩ : WithdrawMessage).worth token = n.toNat := by
  unfold WithdrawMessage.worth
  rw [if_pos rfl]
  exact BitVec.toNat_setWidth_of_le (by decide)

theorem Sound.paid (h : Sound cfg b) (haid : b.pegged.get? aid = some token)
    (hto : TookPayment cfg b.assets o aid n b'.assets) (htok : b'.tokens = b.tokens)
    (hpe : b'.pegged = b.pegged) (hdp : b'.deposits = b.deposits)
    (hfr : ∀ {id claim}, b'.delayed.get? id = some claim → id.toNat < b'.nextClaim.toNat)
    (hcl : ∀ t, b'.claimed t = b.claimed t + (⟨token, n.setWidth 256, ben⟩ : WithdrawMessage).worth t) :
    Sound cfg b' := by
  have hde (a : AssetId) : b'.deposited a = b.deposited a := by
    unfold Books.deposited
    rw [hdp]
  have hbu (hne : aid ≠ cfg.stakingCurrency) := tookPayment_burns hto hne (h.held haid hne)
  refine h.exchanged (h.asset haid)
    ⟨htok, hpe, hfr, tookPayment_nextAssetId hto, tookPayment_leaves hto, ?_, ?_, fun _ => hde _, ?_⟩
  · intro hne
    have hhe := h.held haid hne
    obtain ⟨hiss, hho⟩ := hbu hne
    omega
  · intro t ht
    rw [hcl, WithdrawMessage.worth, if_neg ht.symm, Nat.add_zero]
  · intro hne
    obtain ⟨hiss, -⟩ := hbu hne
    rw [hde, hcl, worth_self]
    omega

theorem Sound.withdrew (h : Sound cfg b) (haid : b.pegged.get? aid = some token)
    (hto : TookPayment cfg b.assets o aid n assets') (hr : b.nextClaim.toNat + 1 < 2 ^ 64)
    (hb : { b with assets := assets' }.Withdrew ⟨token, n.setWidth 256, ben⟩ b') : Sound cfg b' := by
  rcases hb with rfl | ⟨-, rfl⟩ | ⟨hfu, -⟩
  · exact h.paid haid hto rfl rfl rfl h.fresh fun t => Books.claimed_prove
  · exact h.paid haid hto rfl rfl rfl (h.fresh_delay hr _) fun t => Books.claimed_delay h.fresh_next
  · exact absurd hfu (Nat.ne_of_lt hr)

variable {s : State K A} {who : A}

theorem payDeposit_nextAssetId : (payDeposit cfg s aid n who).nextAssetId = s.assets.nextAssetId := by
  unfold payDeposit
  split
  · refine Result.getD_cases (P := fun assets' : GenericAsset.State A => assets'.nextAssetId = s.assets.nextAssetId)
      (fun assets' hok => ?_) rfl
    exact (transfer_unchanged hok).2
  · exact depositCreating_leaves_rest.2

theorem payDeposit_mints (who : A) (hne : aid ≠ cfg.stakingCurrency)
    (hhe : (s.assets.issuanceOf aid).toNat = s.assets.holdings aid)
    (hfit : (s.assets.issuanceOf aid).toNat + n.toNat < 2 ^ 128) :
    ((payDeposit cfg s aid n who).issuanceOf aid).toNat = (s.assets.issuanceOf aid).toNat + n.toNat ∧
      (payDeposit cfg s aid n who).holdings aid = s.assets.holdings aid + n.toNat := by
  rw [payDeposit_mint fun h => hne h.1]
  exact depositCreating_mints hhe hfit

theorem Sound.credited (h : Sound cfg s.books) (htok : s.erc20ToAssetId.get? token = some aid)
    (hfit : aid ≠ cfg.stakingCurrency → (s.assets.issuanceOf aid).toNat + n.toNat < 2 ^ 128) :
    Sound cfg (s.books.credit (payDeposit cfg s aid n who) aid n) := by
  have hhe (hne : aid ≠ cfg.stakingCurrency) : (s.assets.issuanceOf aid).toNat = s.assets.holdings aid :=
    h.held ((h.token htok).resolve_left hne) hne
  have hmi (hne : aid ≠ cfg.stakingCurrency) := payDeposit_mints who hne (hhe hne) (hfit hne)
  refine h.exchanged htok ⟨rfl, rfl, h.fresh, payDeposit_nextAssetId, payDeposit_leaves, ?_, fun _ => rfl, ?_, ?_⟩
  · intro hne
    obtain ⟨hiss, hho⟩ := hmi hne
    exact hiss.trans ((congrArg (· + n.toNat) (hhe hne)).trans hho.symm)
  · intro a hne
    rw [Books.deposited_credit, if_neg hne.symm, Nat.add_zero]
  · intro hne
    obtain ⟨hiss, -⟩ := hmi hne
    rw [Books.deposited_credit, if_pos rfl]
    show ((payDeposit cfg s aid n who).issuanceOf aid).toNat + s.books.claimed token + _ =
      (s.assets.issuanceOf aid).toNat + s.books.claimed token + _
    omega

structure OneMore (assets assets' : GenericAsset.State A) : Prop where
  next : assets'.nextAssetId.toNat = assets.nextAssetId.toNat + 1
  issuance : assets'.issuanceOf assets.nextAssetId = 0
  holdings : assets.holdings assets.nextAssetId = 0 → assets'.holdings assets.nextAssetId = 0
  leaves : ∀ {a}, a ≠ assets.nextAssetId → Leaves assets assets' a

theorem opened_oneMore (hcr : s.Creates token) : OneMore s.assets (s.opened cfg token) := by
  have hr := hcr.2
  refine ⟨?_, getD_insert.trans (if_pos rfl), fun hn => ?_, created_leaves⟩
  · show (s.assets.nextAssetId + 1).toNat = _
    bv_omega
  · have hset := setFreeBalance_holdings s.assets s.assets.nextAssetId cfg.pegAccount 0
    have hz : (0 : Balance).toNat = 0 := rfl
    show (setFreeBalance s.assets s.assets.nextAssetId cfg.pegAccount 0).holdings s.assets.nextAssetId = 0
    omega

theorem Sound.link (h : Sound cfg b) (htok : b.tokens.get? token = none) (hss : OneMore b.assets assets) :
    Sound cfg (b.link assets token) where
  asset ha := by
    rcases get?_insert_eq_some.mp ha with ⟨rfl, rfl⟩ | ⟨-, hold⟩
    · exact get?_insert_self
    · refine get?_insert.trans ((if_neg ?_).trans (h.asset hold))
      rintro rfl
      rw [h.asset hold] at htok
      cases htok
  token ht := by
    rcases get?_insert_eq_some.mp ht with ⟨rfl, rfl⟩ | ⟨-, hold⟩
    · exact Or.inr get?_insert_self
    · refine (h.token hold).imp_right fun ha => get?_insert.trans ((if_neg ?_).trans ha)
      rintro rfl
      rw [h.pegged_next] at ha
      cases ha
  created ha := by
    refine Nat.lt_of_lt_of_eq ?_ hss.next.symm
    rcases get?_insert_eq_some.mp ha with ⟨rfl, -⟩ | ⟨-, hold⟩
    · exact Nat.lt_succ_self _
    · exact Nat.lt_succ_of_lt (h.created hold)
  fresh := h.fresh
  held ha hne := by
    rcases get?_insert_eq_some.mp ha with ⟨rfl, -⟩ | ⟨hoth, hold⟩
    · have hho := hss.holdings (h.unused hne (Nat.le_refl _))
      exact (congrArg BitVec.toNat hss.issuance).trans hho.symm
    · have hl := hss.leaves hoth
      have hhe := h.held hold hne
      rw [← hl.issuance, ← hl.holdings] at hhe
      exact hhe
  unused hne hle := by
    have hlt := Nat.lt_of_succ_le (hss.next ▸ hle)
    exact (hss.leaves fun hs => Nat.ne_of_gt hlt (congrArg BitVec.toNat hs)).holdings.trans
      (h.unused hne (Nat.le_of_lt hlt))
  unknown ht := by
    have hget := get?_insert.symm.trans ht
    split at hget
    · cases hget
    · exact h.unknown hget
  unpegged hne ha := by
    have hget := get?_insert.symm.trans ha
    split at hget
    · cases hget
    · exact h.unpegged hne hget
  solvent hne ha := by
    rcases get?_insert_eq_some.mp ha with ⟨rfl, rfl⟩ | ⟨hoth, hold⟩
    · have hcl : (b.link assets token).claimed token = 0 := h.unknown htok
      have hde : (b.link assets token).deposited b.assets.nextAssetId = 0 := h.unpegged hne h.pegged_next
      rw [hcl, hde]
      exact congrArg BitVec.toNat hss.issuance
    · have hso := h.solvent hne hold
      rw [← (hss.leaves hoth).issuance] at hso
      exact hso

theorem Sound.deposited [Inhabited A] {event : Erc20DepositEvent} {t : State K A}
    (h : Sound cfg s.books) (hp : doDeposit cfg s event = .ok (t, aid, n, who))
    (hfit : ∀ known, s.erc20ToAssetId.get? event.tokenAddress = some known → known ≠ cfg.stakingCurrency →
      (s.assets.issuanceOf known).toNat + event.amount.toNat < 2 ^ 128) :
    Sound cfg { t.books with deposits := t.books.deposits ++ [(aid, n)] } := by
  obtain ⟨s₁, hst, -, hamo, rfl⟩ := doDeposit_eq_ok.mp hp
  rcases assetOf_eq_ok.mp hst with ⟨hkn, rfl⟩ | ⟨hun, assets, hce, rfl⟩
  · exact h.credited hkn fun hne => hamo ▸ hfit aid hkn hne
  · obtain ⟨hcr, rfl, rfl⟩ := createFor_eq_ok.mp hce
    have hopd : OneMore s.assets (s.opened cfg event.tokenAddress) := opened_oneMore hcr
    have hso := h.link hun hopd
    have htok : (s.withAsset (s.opened cfg event.tokenAddress) event.tokenAddress s.assets.nextAssetId).erc20ToAssetId.get?
        event.tokenAddress = some s.assets.nextAssetId := get?_insert_self
    refine hso.credited htok fun _ => ?_
    have hn : ((s.withAsset (s.opened cfg event.tokenAddress) event.tokenAddress s.assets.nextAssetId).assets.issuanceOf
        s.assets.nextAssetId).toNat = 0 := congrArg BitVec.toNat hopd.issuance
    rw [hn, Nat.zero_add]
    exact n.isLt

end

theorem genesis_tokens {stakingCurrency : AssetId} (toks : List (EthAddress × EthBridge.Bytes × BitVec 8))
    (assets : GenericAsset.State A) (bridge : EthBridge.State K A) {token : EthAddress} {a : AssetId}
    (h : (State.genesis stakingCurrency toks assets bridge).erc20ToAssetId.get? token = some a) :
    a = stakingCurrency := by
  refine execute_invariant (I := fun m : StorageMap EthAddress AssetId => ∀ t a, m.get? t = some a → a = stakingCurrency)
    ?_ ?_ token a h
  · rintro ⟨addr, symbol, decimals⟩ - m hm t a ha
    dsimp only at ha
    split at ha
    · rcases get?_insert_eq_some.mp ha with ⟨-, rfl⟩ | ⟨-, hold⟩
      · rfl
      · exact hm t a hold
    · exact hm t a ha
  · intro t a ha
    rw [get?_empty] at ha
    cases ha

theorem genesis_sound (cfg : Config A) (toks : List (EthAddress × EthBridge.Bytes × BitVec 8))
    (assets : GenericAsset.State A) (bridge : EthBridge.State K A)
    (hun : ∀ a, a ≠ cfg.stakingCurrency → assets.nextAssetId.toNat ≤ a.toNat → assets.holdings a = 0) :
    Sound cfg (State.genesis cfg.stakingCurrency toks assets bridge).books := by
  have hpe {a : AssetId} {token : EthAddress}
      (ha : (State.genesis cfg.stakingCurrency toks assets bridge).books.pegged.get? a = some token) : False := by
    have hn : (State.genesis cfg.stakingCurrency toks assets bridge).books.pegged.get? a = none := get?_empty
    rw [hn] at ha
    cases ha
  refine ⟨fun ha => (hpe ha).elim, fun ht => Or.inl (genesis_tokens toks assets bridge ht), fun ha => (hpe ha).elim, ?_,
    fun ha => (hpe ha).elim, fun hne hle => hun _ hne hle, fun _ => rfl, fun _ _ => rfl, fun _ ha => (hpe ha).elim⟩
  intro id claim hcl
  have hn : (State.genesis cfg.stakingCurrency toks assets bridge).books.delayed.get? id = none := get?_empty
  rw [hn] at hcl
  cases hcl

/-- A step of the peg, or of the rest of the runtime on the ledger. -/
inductive SystemOp (K A : Type) where
  | peg (op : Op K A)
  | ledger (assets : GenericAsset.State A)

/-- Claim ids are not exhausted, and no deposit takes the issuance to the bound of a balance. The rest of the runtime
issues and destroys no assets of the peg or of unused ids. -/
def Admitted (cfg : Config A) (s : State K A) : SystemOp K A → Prop
  | .peg op =>
    s.nextDelayedClaimId.toNat + 1 < 2 ^ 64 ∧
      ∀ event aid, op.deposit? cfg s = some event → s.erc20ToAssetId.get? event.tokenAddress = some aid →
        aid ≠ cfg.stakingCurrency → (s.assets.issuanceOf aid).toNat + event.amount.toNat < 2 ^ 128
  | .ledger assets =>
    s.assets.nextAssetId.toNat ≤ assets.nextAssetId.toNat ∧
      ∀ a, a ≠ cfg.stakingCurrency → (s.assetIdToErc20.contains a = true ∨ assets.nextAssetId.toNat ≤ a.toNat) →
        assets.issuanceOf a = s.assets.issuanceOf a ∧ assets.holdings a = s.assets.holdings a

theorem admitted_of_no_deposit {cfg : Config A} {s : State K A} {op : Op K A}
    (hr : s.nextDelayedClaimId.toNat + 1 < 2 ^ 64) (hop : op.deposit? cfg s = none) : Admitted cfg s (.peg op) := by
  refine ⟨hr, fun ev aid hev => ?_⟩
  rw [hop] at hev
  cases hev

theorem admitted_transfer [DecidableEq A] {cfg : Config A} {s : State K A}
    {src dest : A} {aid : AssetId} {n : Balance}
    (hfit : s.assets.holdings aid < 2 ^ 128) :
    Admitted cfg s (.ledger (Result.getD (MultiCurrency.transfer cfg.assets s.assets src dest aid n) s.assets)) := by
  refine Result.getD_cases (P := fun assets => Admitted cfg s (.ledger assets)) (fun assets hok => ?_)
    ⟨Nat.le_refl _, fun _ _ _ => ⟨rfl, rfl⟩⟩
  have hwr := transfer_wrote hok hfit
  refine ⟨Nat.le_of_eq (congrArg BitVec.toNat (transfer_unchanged hok).2.symm), fun a _ _ => ?_⟩
  exact ⟨hwr.issuanceOf a, hwr.holdings_eq a⟩

variable [DecidableEq A] [Inhabited A] [DecidableEq K]

def systemStep (cfg : Config A) (s : State K A) : SystemOp K A → State K A
  | .peg op => step cfg s op
  | .ledger assets => { s with assets := assets }

section
variable {cfg : Config A} {s : State K A}

theorem Sound.ledger {assets : GenericAsset.State A} (h : Sound cfg s.books)
    (had : Admitted cfg s (.ledger assets)) : Sound cfg (systemStep cfg s (.ledger assets)).books := by
  obtain ⟨hx, hs⟩ := had
  have hk {a : AssetId} {token : EthAddress} (ha : s.books.pegged.get? a = some token) (hne : a ≠ cfg.stakingCurrency) :
      assets.issuanceOf a = s.assets.issuanceOf a ∧ assets.holdings a = s.assets.holdings a :=
    hs a hne (Or.inl (contains_iff.mpr ⟨token, ha⟩))
  refine h.accounted ⟨rfl, rfl, h.fresh, hx, ?_, fun hne hle => (hs _ hne (Or.inr hle)).2, fun _ => rfl,
    fun _ _ => rfl, ?_⟩
  · intro a token ha hne
    show (assets.issuanceOf a).toNat = assets.holdings a
    rw [(hk ha hne).1, (hk ha hne).2]
    exact h.held ha hne
  · intro a token ha hne
    show (assets.issuanceOf a).toNat + _ + _ = _
    rw [(hk ha hne).1]
    rfl

theorem systemStep_sound {op : SystemOp K A} (had : Admitted cfg s op) (h : Sound cfg s.books) :
    Sound cfg (systemStep cfg s op).books := by
  cases op with
  | ledger assets => exact h.ledger had
  | peg op =>
    obtain ⟨hr, hfit⟩ := had
    show Sound cfg (step cfg s op).books
    cases step_effect cfg s op with
    | frame hbo => exact hbo ▸ h
    | delayed claim tx _ hbo => exact hbo ▸ h.delay_deposit hr claim tx
    | processed hbo => exact h.processedAll hbo
    | withdrew o aid n token ben assets hpe hto hbo =>
      exact h.withdrew hpe hto hr hbo
    | deposited ev t aid n ben hop hp hbo =>
      rw [hbo]
      exact h.deposited hp fun known hkn hne => hfit ev known hop hkn hne

/-- Of every asset of the peg but the staking currency: what is issued, proven and delayed was deposited. -/
def Solvent (cfg : Config A) (s : State K A) : Prop :=
  ∀ a token, a ≠ cfg.stakingCurrency → s.assetIdToErc20.get? a = some token →
    (s.assets.issuanceOf a).toNat + s.books.proven token + s.books.pending token = s.books.deposited a

theorem run_solvent (cfg : Config A) (erc20s : List (EthAddress × EthBridge.Bytes × BitVec 8))
    (assets : GenericAsset.State A) (bridge : EthBridge.State K A)
    (hunused : ∀ a, a ≠ cfg.stakingCurrency → assets.nextAssetId.toNat ≤ a.toNat → assets.holdings a = 0)
    (ops : List (SystemOp K A))
    (hrun : Each (systemStep cfg) (Admitted cfg) (State.genesis cfg.stakingCurrency erc20s assets bridge) ops)
    (done : List (SystemOp K A)) (hdone : done <+: ops) :
    Solvent cfg (execute (systemStep cfg) (State.genesis cfg.stakingCurrency erc20s assets bridge) done) := by
  have hsn := hrun.throughout (I := fun s : State K A => Sound cfg s.books)
    (fun _ _ had h => systemStep_sound had h) (genesis_sound cfg erc20s assets bridge hunused) hdone
  intro a token hne ha
  have hso := hsn.solvent hne ha
  rw [Nat.add_assoc]
  exact hso

end

def samplePegOps : List (SystemOp Nat Nat) :=
  [.peg (.onSuccess 1 0 1 (Erc20DepositEvent.encode ⟨300, 9, 7⟩)), .peg (.call (.activateWithdrawals true)),
    .peg (.call (.setClaimDelay 17000 4 5)), .peg (.evmWithdraw 7 17000 2 900), .peg (.call (.withdraw 7 17000 4 901))]

def samplePaidOps : List (SystemOp Nat Nat) :=
  let s := execute (systemStep sampleConfig) (sampleGenesis [1]) samplePegOps
  samplePegOps ++ [.ledger (Result.getD (MultiCurrency.transfer sampleConfig.assets s.assets 7 8 17000 1) s.assets),
      .peg (.onInitialize 5), .peg (.onIdle 2000000000)]

theorem samplePegOps_admitted : Each (systemStep sampleConfig) (Admitted sampleConfig) (sampleGenesis [1]) samplePegOps := by
  refine ⟨⟨by decide +kernel, fun event aid hev hkn => ?_⟩, admitted_of_no_deposit (by decide +kernel) rfl,
    admitted_of_no_deposit (by decide +kernel) rfl, admitted_of_no_deposit (by decide +kernel) rfl,
    admitted_of_no_deposit (by decide +kernel) rfl, trivial⟩
  -- the token is not known yet
  have hde : (Op.onSuccess 1 0 1 (Erc20DepositEvent.encode ⟨300, 9, 7⟩) : Op Nat Nat).deposit? sampleConfig
      (sampleGenesis [1]) = some ⟨300, 9, 7⟩ := by decide +kernel
  obtain rfl : ⟨300, 9, 7⟩ = event := Option.some.inj (hde.symm.trans hev)
  have hn : (sampleGenesis [1]).erc20ToAssetId.get? 300 = none := by decide +kernel
  rw [hn] at hkn
  cases hkn

/-- Of 9 deposited, 3 are issued, 2 proven and 4 delayed; then the 4 are proven as well. -/
theorem samplePaidOps_solvent :
    let before := execute (systemStep sampleConfig) (sampleGenesis [1]) samplePegOps
    let after := execute (systemStep sampleConfig) (sampleGenesis [1]) samplePaidOps
    Solvent sampleConfig before ∧ Solvent sampleConfig after ∧
      (before.books.proven 300 = 2 ∧ before.books.pending 300 = 4 ∧ before.books.deposited 17000 = 9) ∧
      (after.books.proven 300 = 6 ∧ after.books.pending 300 = 0 ∧ after.books.deposited 17000 = 9) := by
  intro before after
  have hun : ∀ a, a ≠ sampleConfig.stakingCurrency → (sampleGenesis [1]).assets.nextAssetId.toNat ≤ a.toNat →
      (sampleGenesis [1]).assets.holdings a = 0 := by
    intro a hne _
    refine (build_holdings (nodup_singleton 1) a).trans (if_neg fun hmem => hne ?_)
    exact mem_singleton.mp hmem
  have hrun : Each (systemStep sampleConfig) (Admitted sampleConfig) (sampleGenesis [1]) samplePaidOps := by
    refine each_append.mpr ⟨samplePegOps_admitted, admitted_transfer (by decide +kernel),
      admitted_of_no_deposit (by decide +kernel) rfl, admitted_of_no_deposit (by decide +kernel) rfl, trivial⟩
  have hso := run_solvent sampleConfig [(206, cennzSymbol, 4)] (sampleGenesis [1]).assets (EthBridge.State.genesis [])
    hun samplePaidOps hrun
  refine ⟨hso samplePegOps (prefix_append _ _), hso samplePaidOps prefix_rfl, ?_, ?_⟩
  · decide +kernel
  · decide +kernel

end Erc20Peg
