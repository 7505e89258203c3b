import Cennznet.Theorems.Nft.Listed

/-! # The records of a listing agree -/

namespace Nft

open StorageMap Steps

variable {A : Type}

structure Agrees (c : Catalogue A) : Prop where
  opened : ∀ col id, c.openListings.contains (col, id) = true ↔
    ∃ l, c.listings.get? id = some l ∧ l.bundle.first.1 = col
  bids : ∀ id bid, c.bids.get? id = some bid →
    ∃ auction, c.listings.get? id = some (.auction auction) ∧ auction.reservePrice.toNat ≤ bid.2.toNat
  locks : ∀ t reason, c.locks.get? t = some reason →
    ∃ id l, reason = .listed id ∧ c.listings.get? id = some l ∧ t ∈ l.bundle.tokens
  ids : ∀ id l, c.listings.get? id = some l → id.toNat < c.nextListing.toNat

/-- What a later catalogue has below the counter of `c` are listings of `c`, up to price and closing block. -/
structure Since (c c' : Catalogue A) : Prop where
  counter : c.nextListing.toNat ≤ c'.nextListing.toNat
  old : ∀ id l', id.toNat < c.nextListing.toNat → c'.listings.get? id = some l' →
    ∃ l, c.listings.get? id = some l ∧ l'.seller = l.seller ∧ l'.bundle = l.bundle

theorem Since.refl (c : Catalogue A) : Since c c :=
  ⟨Nat.le_refl _, fun _ l' _ hget => ⟨l', hget, rfl, rfl⟩⟩

theorem Since.trans {c c' c'' : Catalogue A} (h : Since c c') (h' : Since c' c'') : Since c c'' := by
  refine ⟨Nat.le_trans h.counter h'.counter, fun id l'' hid hget => ?_⟩
  obtain ⟨l', hge', hse', hbu'⟩ := h'.old id l'' (Nat.lt_of_lt_of_le hid h.counter) hget
  obtain ⟨l, hget, hse, hbu⟩ := h.old id l' hid hge'
  exact ⟨l, hget, hse'.trans hse, hbu'.trans hbu⟩

section
variable {c : Catalogue A} {id : ListingId} {li : Listing A}

theorem Agrees.publish (h : Agrees c) {next : ListingId} (hx : c.nextListing.toNat + 1 = next.toNat) :
    Agrees (c.publish li next) := by
  have hk : ∀ id l, c.listings.get? id = some l → (c.publish li next).listings.get? id = some l := by
    intro id l hl
    refine (get?_insert_ne ?_).trans hl
    rintro rfl
    exact Nat.lt_irrefl _ (h.ids _ l hl)
  refine ⟨fun cid id => ?_, fun id bid hbid => ?_, fun t reason hlo => ?_, fun id l hl => ?_⟩
  · refine contains_insert.trans ⟨?_, ?_⟩
    · rintro (heq | hopn)
      · cases heq
        exact ⟨li, get?_insert_self, rfl⟩
      · obtain ⟨l, hl, hfi⟩ := (h.opened cid id).mp hopn
        exact ⟨l, hk id l hl, hfi⟩
    · rintro ⟨l, hl, rfl⟩
      rcases get?_insert_eq_some.mp hl with ⟨rfl, rfl⟩ | ⟨-, hold⟩
      · exact Or.inl rfl
      · exact Or.inr ((h.opened _ id).mpr ⟨l, hold, rfl⟩)
  · obtain ⟨au, hau, hre⟩ := h.bids id bid hbid
    exact ⟨au, hk id _ hau, hre⟩
  · have hlo' := get?_insertAll.symm.trans hlo
    split_ifs at hlo' with hin
    · exact ⟨c.nextListing, li, (Option.some.inj hlo').symm, get?_insert_self, hin⟩
    · obtain ⟨id, l, hrs, hl, hin⟩ := h.locks t reason hlo'
      exact ⟨id, l, hrs, hk id l hl, hin⟩
  · show id.toNat < next.toNat
    rcases get?_insert_eq_some.mp hl with ⟨rfl, -⟩ | ⟨-, hold⟩
    · omega
    · have hlt := h.ids id l hold
      omega

theorem Agrees.relist (h : Agrees c) {li' : Listing A} (hget : c.listings.get? id = some li)
    (hbu : li'.bundle = li.bundle) (hau : ∀ au, li = .auction au →
      ∃ close, li' = .auction { au with close := close }) : Agrees (c.relist id li') := by
  have hold : ∀ id' l', (c.relist id li').listings.get? id' = some l' →
      ∃ l, c.listings.get? id' = some l ∧ l'.bundle = l.bundle := by
    intro id' l' hl'
    rcases get?_insert_eq_some.mp hl' with ⟨rfl, rfl⟩ | ⟨-, hold⟩
    · exact ⟨li, hget, hbu⟩
    · exact ⟨l', hold, rfl⟩
  have hnew : ∀ id' l, c.listings.get? id' = some l →
      ∃ l', (c.relist id li').listings.get? id' = some l' ∧ l'.bundle = l.bundle := by
    intro id' l hl
    by_cases heq : id' = id
    · subst heq
      obtain rfl := Option.some.inj (hl.symm.trans hget)
      exact ⟨li', get?_insert_self, hbu⟩
    · exact ⟨l, (get?_insert_ne heq).trans hl, rfl⟩
  refine ⟨fun cid id' => (h.opened cid id').trans ⟨?_, ?_⟩, fun id' bid hbid => ?_,
    fun t reason hlo => ?_, fun id' l' hl' => ?_⟩
  · rintro ⟨l, hl, hfi⟩
    obtain ⟨l', hl', hk⟩ := hnew id' l hl
    exact ⟨l', hl', hk ▸ hfi⟩
  · rintro ⟨l', hl', hfi⟩
    obtain ⟨l, hl, hk⟩ := hold id' l' hl'
    exact ⟨l, hl, hk ▸ hfi⟩
  · obtain ⟨au, hl, hre⟩ := h.bids id' bid hbid
    by_cases heq : id' = id
    · subst heq
      obtain ⟨close, rfl⟩ := hau au (Option.some.inj (hget.symm.trans hl))
      exact ⟨_, get?_insert_self, hre⟩
    · exact ⟨au, (get?_insert_ne heq).trans hl, hre⟩
  · obtain ⟨id', l, hrs, hl, hin⟩ := h.locks t reason hlo
    obtain ⟨l', hl', hk⟩ := hnew id' l hl
    exact ⟨id', l', hrs, hl', hk ▸ hin⟩
  · obtain ⟨l, hl, -⟩ := hold id' l' hl'
    exact h.ids id' l hl

/-- A bid that is high enough meets the reserve price, since the one it beats does. -/
theorem Agrees.setBid (h : Agrees c) {au : AuctionListing A} {bidder : A}
    {n : GenericAsset.Balance} (hget : c.listings.get? id = some (.auction au))
    (hhi : bidHighEnough au n (c.bids.get? id)) : Agrees (c.setBid id (bidder, n)) := by
  refine ⟨h.opened, fun id' bid hbid => ?_, h.locks, h.ids⟩
  rcases get?_insert_eq_some.mp hbid with ⟨rfl, rfl⟩ | ⟨-, hold⟩
  · refine ⟨au, hget, ?_⟩
    cases hcu : c.bids.get? id' with
    | none =>
      rw [hcu] at hhi
      exact hhi
    | some current =>
      rw [hcu] at hhi
      obtain ⟨au', hge', hre⟩ := h.bids id' current hcu
      cases hget.symm.trans hge'
      exact Nat.le_of_lt (Nat.lt_of_le_of_lt hre hhi)
  · exact h.bids id' bid hold

theorem Agrees.dropBid (h : Agrees c) (id : ListingId) : Agrees (c.dropBid id) :=
  ⟨h.opened, fun id' bid hbid => h.bids id' bid (get?_remove_eq_some.mp hbid).2, h.locks, h.ids⟩

theorem Agrees.release (h : Agrees c) (hget : c.listings.get? id = some li) (hno : c.bids.get? id = none) :
    Agrees (c.release id li.bundle) := by
  have hk : ∀ id' l, (c.release id li.bundle).listings.get? id' = some l ↔
      id' ≠ id ∧ c.listings.get? id' = some l := fun id' l => get?_remove_eq_some
  refine ⟨fun cid id' => ?_, fun id' bid hbid => ?_, fun t reason hlo => ?_, fun id' l hl => ?_⟩
  · refine contains_remove.trans ?_
    rw [h.opened]
    constructor
    · rintro ⟨hne, l, hl, rfl⟩
      refine ⟨l, (hk id' l).mpr ⟨?_, hl⟩, rfl⟩
      rintro rfl
      cases hget.symm.trans hl
      exact hne rfl
    · rintro ⟨l, hl, hfi⟩
      obtain ⟨hne, hold⟩ := (hk id' l).mp hl
      exact ⟨fun heq => hne (Prod.mk.inj heq).2, l, hold, hfi⟩
  · obtain ⟨au, hl, hre⟩ := h.bids id' bid hbid
    refine ⟨au, (hk id' _).mpr ⟨?_, hl⟩, hre⟩
    rintro rfl
    cases hno.symm.trans hbid
  · obtain ⟨hnt, hold⟩ := get?_removeAll_eq_some.mp hlo
    obtain ⟨id', l, hrs, hl, hin⟩ := h.locks t reason hold
    refine ⟨id', l, hrs, (hk id' l).mpr ⟨?_, hl⟩, hin⟩
    rintro rfl
    cases hget.symm.trans hl
    exact hnt hin
  · exact h.ids id' l ((hk id' l).mp hl).2

end

section
variable [Inhabited A] {s : State A} {o : A} {listed : List TokenId}
  {c c₀ : Catalogue A}

theorem Filed.agrees (hf : Filed s o listed c) (h : Agrees s.catalogue) : Agrees c := by
  cases hf with
  | same => exact h
  | published _ _ hx => exact h.publish hx
  | repriced p hget => exact h.relist hget rfl nofun
  | bid hget hhi => exact h.setBid hget hhi
  | lateBid close hget hhi =>
    refine (h.setBid hget hhi).relist hget rfl fun au heq => ⟨close, ?_⟩
    cases heq
    rfl
  | @removed id li hget hno =>
    refine h.release hget ?_
    cases hbid : s.catalogue.bids.get? id with
    | none => rfl
    | some bid =>
      obtain ⟨au, hau, -⟩ := h.bids id bid hbid
      exact hbid.symm.trans (hno au (Option.some.inj (hget.symm.trans hau)))
  | @sold id li hget =>
    have hre := (h.dropBid id).release hget get?_remove_self
    exact hre

theorem Filed.since (hf : Filed s o listed c) : Since s.catalogue c := by
  have hins : ∀ id l l' (n : ListingId), s.listings.get? id = some l → l'.seller = l.seller → l'.bundle = l.bundle →
      ∀ id' k', id'.toNat < n.toNat → (s.listings.insert id l').get? id' = some k' →
        ∃ k, s.listings.get? id' = some k ∧ k'.seller = k.seller ∧ k'.bundle = k.bundle := by
    intro id l l' n hget hse hbu id' k' _ hk'
    rcases get?_insert_eq_some.mp hk' with ⟨rfl, rfl⟩ | ⟨-, hold⟩
    · exact ⟨l, hget, hse, hbu⟩
    · exact ⟨k', hold, rfl, rfl⟩
  cases hf with
  | same | bid => exact ⟨Nat.le_refl _, (Since.refl s.catalogue).old⟩
  | published _ _ hx =>
    refine ⟨Nat.le_of_lt (Nat.lt_of_succ_le (Nat.le_of_eq hx)), fun id l' hid hget => ⟨l', ?_, rfl, rfl⟩⟩
    exact (get?_insert_ne fun heq => Nat.lt_irrefl _ (heq ▸ hid)).symm.trans hget
  | repriced p hget => exact ⟨Nat.le_refl _, hins _ _ _ _ hget rfl rfl⟩
  | lateBid close hget => exact ⟨Nat.le_refl _, hins _ _ _ _ hget rfl rfl⟩
  | removed | sold =>
    exact ⟨Nat.le_refl _, fun id l' _ hget => ⟨l', (get?_remove_eq_some.mp hget).2, rfl, rfl⟩⟩

def Stands (c₀ : Catalogue A) (s : State A) : Prop := Agrees s.catalogue ∧ Since c₀ s.catalogue

theorem Filed.stands {s' : State A} (hf : Filed s o listed s'.catalogue) (h : Stands c₀ s) :
    Stands c₀ s' := ⟨hf.agrees h.1, h.2.trans hf.since⟩

theorem step_stands [DecidableEq A] (cfg : Config A) (op : Op A) (h : Stands c₀ s) : Stands c₀ (step cfg s op) := by
  cases op with
  | call o call =>
    rw [step_call]
    exact Result.getD_cases (fun s₁ hc => (dispatch_trade_filed hc).2.stands h) h
  | onInitialize now =>
    rw [step_onInitialize]
    have hst : Stands c₀ (startClosing s now) := h
    exact execute_invariant (fun lid _ s₁ => (closeListing_closed cfg s₁ lid default []).2.stands) hst

end

theorem genesis_agrees (assets : GenericAsset.State A) : Agrees (State.genesis assets).catalogue := by
  refine ⟨fun cid id => ⟨fun hopn => ?_, fun ⟨l, hl, _⟩ => ?_⟩, fun _ _ hget => ?_, fun _ _ hget => ?_,
    fun _ _ hget => ?_⟩
  · cases hopn
  · cases hl
  · cases hget
  · cases hget
  · cases hget

section
variable [Inhabited A] [DecidableEq A]

/-- An id that is open twice in a run names one listing, open all the time between. -/
def IdsUsedOnce (cfg : Config A) (s : State A) (ops : List (Op A)) : Prop :=
  ∀ first later last, first <+: later → later <+: last → last <+: ops → ∀ id l l'',
    (execute (step cfg) s first).listings.get? id = some l →
    (execute (step cfg) s last).listings.get? id = some l'' →
    ∃ l', (execute (step cfg) s later).listings.get? id = some l' ∧ l'.seller = l.seller ∧ l'.bundle = l.bundle

theorem since_of_done (cfg : Config A) {s : State A} (h : Agrees s.catalogue)
    {ops ops' : List (Op A)} (hpr : ops <+: ops') :
    Agrees (execute (step cfg) s ops).catalogue ∧
      Since (execute (step cfg) s ops).catalogue (execute (step cfg) s ops').catalogue := by
  obtain ⟨rest, rfl⟩ := hpr
  have hops : Stands s.catalogue (execute (step cfg) s ops) :=
    execute_invariant (fun op _ _ => step_stands cfg op) ⟨h, Since.refl _⟩
  rw [execute_append]
  have hr : Stands _ (execute (step cfg) (execute (step cfg) s ops) rest) :=
    execute_invariant (fun op _ _ => step_stands cfg op) ⟨hops.1, Since.refl _⟩
  exact ⟨hops.1, hr.2⟩

/-- In every run of calls and the closing hook the records of the listings agree all along, and no id is used again. -/
theorem listing_records_agree (cfg : Config A) (assets : GenericAsset.State A) (ops : List (Op A)) :
    (∀ done, done <+: ops → Agrees (execute (step cfg) (.genesis assets) done).catalogue) ∧
      IdsUsedOnce cfg (.genesis assets) ops := by
  have hge := genesis_agrees assets
  refine ⟨fun done hdo => (since_of_done cfg hge hdo).1, ?_⟩
  intro first later last hfi hla _ id l l'' hl hl''
  obtain ⟨hagr, hsi⟩ := since_of_done cfg hge hfi
  have hid := hagr.ids id l hl
  obtain ⟨l', hl', -⟩ := (since_of_done cfg hge hla).2.old id l'' (Nat.lt_of_lt_of_le hid hsi.counter) hl''
  obtain ⟨l₀, hl₀, hs⟩ := hsi.old id l' hid hl'
  cases hl.symm.trans hl₀
  exact ⟨l', hl', hs⟩

end

end Nft
