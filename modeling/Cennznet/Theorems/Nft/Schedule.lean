import Cennznet.Theorems.Nft.Settle
import Cennznet.Theorems.Nft.Book

/-! # Every listing will be closed -/

namespace Nft

open Result StorageMap Steps

variable {A : Type}

/-- Each open listing closes after the current block, is scheduled at its closing block alone, and the blocks till then
can be computed. -/
def ClosesAhead (s : State A) : Prop :=
  ∀ lid li, s.listings.get? lid = some li → s.blockNumber.toNat < li.close.toNat ∧
    (∀ bl, s.listingEndSchedule.contains (bl, lid) = true ↔ bl = li.close) ∧
    (li.close - s.blockNumber).toNat = li.close.toNat - s.blockNumber.toNat

structure Scheduled (b : Book A) : Prop where
  ahead : ∀ lid li, b.listings.get? lid = some li → b.now.toNat < li.close.toNat
  placed : ∀ lid li, b.listings.get? lid = some li → ∀ bl, b.schedule.contains (bl, lid) = true ↔ bl = li.close
  listed : ∀ bl lid, b.schedule.contains (bl, lid) = true → ∃ li, b.listings.get? lid = some li
  ids : ∀ lid li, b.listings.get? lid = some li → lid.toNat < b.nextListing.toNat

section
variable {b b' : Book A} {lid : ListingId} {li : Listing A}

theorem closesAhead_of_scheduled {s : State A} (h : Scheduled s.book) : ClosesAhead s := by
  intro lid li hget
  have hah : s.blockNumber.toNat < li.close.toNat := h.ahead lid li hget
  exact ⟨hah, h.placed lid li hget, Word.toNat_sub_of_le (Nat.le_of_lt hah)⟩

theorem Scheduled.of_eq (h : Scheduled b) (hnow : b'.now = b.now) (hli : b'.listings = b.listings)
    (hsc : b'.schedule = b.schedule) (hx : b'.nextListing = b.nextListing) : Scheduled b' := by
  refine ⟨?_, ?_, ?_, ?_⟩
  · rw [hli, hnow]
    exact h.ahead
  · rw [hli, hsc]
    exact h.placed
  · rw [hli, hsc]
    exact h.listed
  · rw [hli, hx]
    exact h.ids

theorem Scheduled.fresh (h : Scheduled b) (bl : BlockNumber) : b.schedule.contains (bl, b.nextListing) = false := by
  cases hco : b.schedule.contains (bl, b.nextListing) with
  | false => rfl
  | true =>
    obtain ⟨li, hget⟩ := h.listed bl b.nextListing hco
    exact absurd (h.ids _ li hget) (Nat.lt_irrefl _)

theorem Scheduled.write (h : Scheduled b) (hnow : b'.now = b.now) (hli : b'.listings = b.listings.insert lid li)
    (hsc : ∀ bl id, b'.schedule.contains (bl, id) = true ↔
      if id = lid then bl = li.close else b.schedule.contains (bl, id) = true)
    (hx : b.nextListing.toNat ≤ b'.nextListing.toNat) (hid : lid.toNat < b'.nextListing.toNat)
    (hah : b.now.toNat < li.close.toNat) : Scheduled b' := by
  have hca : ∀ id l, b'.listings.get? id = some l → (id = lid ∧ li = l) ∨ (id ≠ lid ∧ b.listings.get? id = some l) := by
    intro id l hget
    rw [hli] at hget
    exact get?_insert_eq_some.mp hget
  refine ⟨fun id l hget => ?_, fun id l hget bl => ?_, fun bl id hco => ?_, fun id l hget => ?_⟩
  · rw [hnow]
    rcases hca id l hget with ⟨-, rfl⟩ | ⟨-, hold⟩
    · exact hah
    · exact h.ahead id l hold
  · rw [hsc]
    rcases hca id l hget with ⟨rfl, rfl⟩ | ⟨hne, hold⟩
    · rw [if_pos rfl]
    · rw [if_neg hne]
      exact h.placed id l hold bl
  · rw [hsc] at hco
    rw [hli]
    by_cases heq : id = lid
    · rw [heq]
      exact ⟨li, get?_insert_self⟩
    · rw [if_neg heq] at hco
      rw [get?_insert_ne heq]
      exact h.listed bl id hco
  · rcases hca id l hget with ⟨rfl, -⟩ | ⟨-, hold⟩
    · exact hid
    · exact Nat.lt_of_lt_of_le (h.ids id l hold) hx

theorem Scheduled.unlist (h : Scheduled b) (hget : b.listings.get? lid = some li) (hnow : b'.now = b.now)
    (hli : b'.listings = b.listings.remove lid)
    (hsc : b'.schedule = b.schedule.remove (li.close, lid))
    (hx : b'.nextListing = b.nextListing) : Scheduled b' := by
  have hk : ∀ id l, b'.listings.get? id = some l → id ≠ lid ∧ b.listings.get? id = some l := by
    intro id l hget
    rw [hli] at hget
    exact get?_remove_eq_some.mp hget
  -- the listing was on the schedule at its closing block only
  have hoth : ∀ bl id, b'.schedule.contains (bl, id) = true ↔ id ≠ lid ∧ b.schedule.contains (bl, id) = true := by
    intro bl id
    rw [hsc, contains_remove]
    refine and_congr_left fun hco => not_congr ⟨fun heq => congrArg Prod.snd heq, fun heq => ?_⟩
    subst heq
    rw [(h.placed id li hget bl).mp hco]
  refine ⟨fun id l hl => ?_, fun id l hl bl => ?_, fun bl id hco => ?_, fun id l hl => ?_⟩
  · rw [hnow]
    exact h.ahead id l (hk id l hl).2
  · obtain ⟨hne, hold⟩ := hk id l hl
    rw [hoth, and_iff_right hne]
    exact h.placed id l hold bl
  · obtain ⟨hne, hold⟩ := (hoth bl id).mp hco
    rw [hli, get?_remove_ne hne]
    exact h.listed bl id hold
  · rw [hx]
    exact h.ids id l (hk id l hl).2

end

def Call.isBid : Call A → Bool
  | .bid _ _ => true
  | _ => false

section
variable {cfg : Config A} {s : State A} {o : A} {call : Call A}
  {b : Book A} {lid : ListingId}

theorem Scheduled.publish (h : Scheduled b) {li : Listing A} {next : ListingId} {dur : BlockNumber}
    (hcl : li.close = Word.saturatingAdd b.now dur) (hx : b.nextListing.toNat + 1 = next.toNat)
    (hdu : dur ≠ 0) (hr : b.now.toNat + 1 < 2 ^ 32) : Scheduled (b.publish li next) := by
  have hah : b.now.toNat < li.close.toNat := by
    have hpos := Word.toNat_pos.mpr hdu
    rw [hcl, Word.toNat_saturatingAdd]
    omega
  refine h.write rfl rfl (fun bl id => ?_) (Nat.le_of_succ_le hx.le) hx.le hah
  unfold Book.publish
  rw [contains_insert, Prod.mk.injEq]
  by_cases heq : id = b.nextListing
  · subst heq
    rw [if_pos rfl, h.fresh bl]
    simp
  · simp [heq]

theorem Scheduled.postpone (h : Scheduled b) {au : AuctionListing A} {close : BlockNumber}
    (hget : b.listings.get? lid = some (.auction au)) (hah : b.now.toNat < close.toNat) :
    Scheduled (b.postpone lid au close) := by
  refine h.write rfl rfl (fun bl id => ?_) (Nat.le_refl _) (h.ids lid _ hget) hah
  unfold Book.postpone
  rw [contains_insert, contains_remove, Prod.mk.injEq, ne_eq, Prod.mk.injEq]
  by_cases heq : id = lid
  · subst heq
    have hpl := h.placed id _ hget bl
    have hold : bl = au.close ∨ b.schedule.contains (bl, id) ≠ true := by
      by_cases hcl : bl = au.close
      · exact Or.inl hcl
      · exact Or.inr fun hco => hcl (hpl.mp hco)
    rw [if_pos rfl]
    rcases hold with hold | hold <;> simp [hold, Listing.close]
  · simp [heq]

theorem Scheduled.extend (h : Scheduled b) {au : AuctionListing A} (hget : b.listings.get? lid = some (.auction au))
    (hr : b.now.toNat + auctionExtensionPeriod.toNat < 2 ^ 32) : Scheduled (b.extend lid au) := by
  unfold Book.extend
  split
  · refine h.postpone hget ?_
    rw [BitVec.toNat_add_of_lt hr]
    exact Nat.lt_add_of_pos_right (by decide)
  · exact h

theorem Scheduled.reprice (h : Scheduled b) {sale : FixedPriceListing A} {p : GenericAsset.Balance}
    (hget : b.listings.get? lid = some (.fixedPrice sale)) :
    Scheduled (b.relist lid (.fixedPrice { sale with fixedPrice := p })) := by
  have hah : b.now.toNat < sale.close.toNat := h.ahead lid _ hget
  refine h.write rfl rfl (fun bl id => ?_) (Nat.le_refl _) (h.ids lid _ hget) hah
  by_cases heq : id = lid
  · subst heq
    rw [if_pos rfl]
    exact h.placed id _ hget bl
  · rw [if_neg heq]
    exact Iff.rfl

variable [DecidableEq A]

theorem Trade.scheduled (ht : Trade cfg s o call b)
    (hopn : ∀ dur ∈ call.duration cfg, dur ≠ 0 ∧ s.blockNumber.toNat + 1 < 2 ^ 32)
    (hbid : call.isBid = true → s.blockNumber.toNat + auctionExtensionPeriod.toNat < 2 ^ 32) (h : Scheduled s.book) :
    Scheduled b := by
  cases ht with
  | same => exact h
  | opened hdu hcl hx =>
    obtain ⟨hpos, hr⟩ := hopn _ hdu
    exact h.publish hcl hx hpos hr
  | bought hget => exact h.unlist hget rfl rfl rfl rfl
  | bid hget =>
    refine Scheduled.extend ?_ hget (hbid rfl)
    exact h.of_eq rfl rfl rfl rfl
  | cancelled hget => exact h.unlist hget rfl rfl rfl rfl
  | repriced hget => exact h.reprice hget
  | offered | withdrawn | accepted => exact h.of_eq rfl rfl rfl rfl

/-! ### The closing hook -/

theorem Closure.removes (hc : Closure cfg s lid b) :
    (∀ id, b.listings.get? id = if id = lid then none else s.listings.get? id) ∧ b.now = s.blockNumber ∧
      b.schedule = s.listingEndSchedule ∧ b.nextListing = s.nextListingId := by
  cases hc with
  | absent hget =>
    refine ⟨fun id => ?_, rfl, rfl, rfl⟩
    by_cases heq : id = lid
    · rw [if_pos heq, heq]
      exact hget
    · rw [if_neg heq]
      rfl
  | unsold | settled | failed => exact ⟨fun id => get?_remove, rfl, rfl, rfl⟩

variable [Inhabited A]

theorem closed_listings (cfg : Config A) (s : State A) (ids : List ListingId) :
    (∀ id, (execute (closeListing cfg) s ids).listings.get? id = if id ∈ ids then none else s.listings.get? id) ∧
      (execute (closeListing cfg) s ids).blockNumber = s.blockNumber ∧
      (execute (closeListing cfg) s ids).listingEndSchedule = s.listingEndSchedule ∧
      (execute (closeListing cfg) s ids).nextListingId = s.nextListingId := by
  induction ids generalizing s with
  | nil => exact ⟨fun id => (if_neg List.not_mem_nil).symm, rfl, rfl, rfl⟩
  | cons first rest ih =>
    obtain ⟨hli, hnow, hsc, hx⟩ := (closeListing_closed cfg s first default []).1.removes
    obtain ⟨hli', hno', hsc', hne'⟩ := ih (closeListing cfg s first)
    refine ⟨fun id => ?_, hno'.trans hnow, hsc'.trans hsc, hne'.trans hx⟩
    have hfi : (closeListing cfg s first).listings.get? id = if id = first then none else s.listings.get? id := hli id
    rw [execute_cons, hli', hfi]
    by_cases hr : id ∈ rest <;> by_cases heq : id = first <;> simp [hr, heq]

theorem mem_scheduledAt {A : Type} {cfg : Config A} {s : State A} {now : BlockNumber} :
    lid ∈ scheduledAt cfg s now ↔ s.listingEndSchedule.contains (now, lid) = true := by
  unfold scheduledAt
  rw [List.mem_insertionSort, List.mem_map, contains_iff]
  constructor
  · rintro ⟨⟨id, v⟩, hmem, rfl⟩
    exact ⟨v, mem_iterPrefix.mp hmem⟩
  · rintro ⟨v, hget⟩
    exact ⟨(lid, v), mem_iterPrefix.mpr hget, rfl⟩

theorem Scheduled.closed_get? (h : Scheduled s.book) (now : BlockNumber) (l : Listing A) :
    (execute (closeListing cfg) (startClosing s now) (scheduledAt cfg s now)).listings.get? lid = some l ↔
      now ≠ l.close ∧ s.listings.get? lid = some l := by
  have hcl := (closed_listings cfg (startClosing s now) (scheduledAt cfg s now)).1 lid
  rw [hcl]
  constructor
  · intro hget
    split at hget
    case isTrue => cases hget
    case isFalse hnot =>
      exact ⟨fun heq => hnot (mem_scheduledAt.mpr ((h.placed lid l hget now).mpr heq)), hget⟩
  · rintro ⟨hne, hget⟩
    rw [if_neg (fun hmem => hne ((h.placed lid l hget now).mp (mem_scheduledAt.mp hmem)))]
    exact hget

theorem closed_schedule (cfg : Config A) (s : State A) (now bl : BlockNumber) :
    (execute (closeListing cfg) (startClosing s now) (scheduledAt cfg s now)).listingEndSchedule.contains
        (bl, lid) = true ↔ bl ≠ now ∧ s.listingEndSchedule.contains (bl, lid) = true := by
  rw [(closed_listings cfg (startClosing s now) (scheduledAt cfg s now)).2.2.1]
  unfold startClosing StorageMap.contains
  dsimp only
  rw [get?_removePrefix]
  by_cases heq : bl = now <;> simp [heq]

theorem Scheduled.onInitialize (h : Scheduled s.book) {now : BlockNumber} (hnow : now.toNat = s.blockNumber.toNat + 1) :
    Scheduled (execute (closeListing cfg) (startClosing s now) (scheduledAt cfg s now)).book := by
  obtain ⟨-, hbl, -, hx⟩ := closed_listings cfg (startClosing s now) (scheduledAt cfg s now)
  refine ⟨fun id l hget => ?_, fun id l hget bl => ?_, fun bl id hset => ?_, fun id l hget => ?_⟩
  · obtain ⟨hne, hold⟩ := (h.closed_get? now l).mp hget
    have hah : s.blockNumber.toNat < l.close.toNat := h.ahead id l hold
    have hla : now.toNat ≠ l.close.toNat := fun heq => hne (BitVec.eq_of_toNat_eq heq)
    have hlt : now.toNat < l.close.toNat := by omega
    exact lt_of_eq_of_lt (congrArg BitVec.toNat hbl) hlt
  · obtain ⟨hne, hold⟩ := (h.closed_get? now l).mp hget
    have hpl : s.listingEndSchedule.contains (bl, id) = true ↔ bl = l.close := h.placed id l hold bl
    refine (closed_schedule cfg s now bl).trans ?_
    rw [hpl]
    refine ⟨And.right, fun heq => ⟨?_, heq⟩⟩
    rw [heq]
    exact hne.symm
  · obtain ⟨hne, hold⟩ := (closed_schedule cfg s now bl).mp hset
    obtain ⟨l, hget⟩ := h.listed bl id hold
    refine ⟨l, (h.closed_get? now l).mpr ⟨?_, hget⟩⟩
    rw [← (h.placed id l hget bl).mp hold]
    exact hne.symm
  · have hlt : id.toNat < s.nextListingId.toNat := h.ids id l ((h.closed_get? now l).mp hget).2
    exact lt_of_lt_of_eq hlt (congrArg BitVec.toNat hx).symm

end

theorem genesis_scheduled (assets : GenericAsset.State A) : Scheduled (State.genesis assets).book := by
  refine ⟨fun id l hget => ?_, fun id l hget => ?_, fun bl id hset => ?_, fun id l hget => ?_⟩
  · cases hget
  · cases hget
  · cases hset
  · cases hget

section
variable [DecidableEq A] [Inhabited A] {cfg : Config A} {s : State A}

/-- A listing lasts at least one block and ends at a block number, and each hook is of the next block. -/
def ScheduleSafe (cfg : Config A) (s : State A) : Op A → Prop
  | .call _ call =>
    (∀ dur ∈ call.duration cfg, dur ≠ 0 ∧ s.blockNumber.toNat + 1 < 2 ^ 32) ∧
    (call.isBid = true → s.blockNumber.toNat + auctionExtensionPeriod.toNat < 2 ^ 32)
  | .onInitialize now => now.toNat = s.blockNumber.toNat + 1

-- the duration is read off the call: `inferInstance` alone would try all block numbers
instance (cfg : Config A) (s : State A) : ∀ op, Decidable (ScheduleSafe cfg s op)
  | .call _ call =>
    haveI : Decidable (∀ dur ∈ call.duration cfg, dur ≠ 0 ∧ s.blockNumber.toNat + 1 < 2 ^ 32) :=
      Option.decidableForallMem _
    inferInstanceAs (Decidable (_ ∧ (call.isBid = true → s.blockNumber.toNat + auctionExtensionPeriod.toNat < 2 ^ 32)))
  | .onInitialize now => inferInstanceAs (Decidable (now.toNat = s.blockNumber.toNat + 1))

theorem step_scheduled {op : Op A} (hsa : ScheduleSafe cfg s op) (h : Scheduled s.book) :
    Scheduled (step cfg s op).book := by
  cases op with
  | call o call =>
    rw [step_call]
    refine getD_cases (P := fun s : State A => Scheduled s.book) (fun s₁ hc => ?_) h
    exact (dispatch_trade_filed hc).1.scheduled hsa.1 hsa.2 h
  | onInitialize now =>
    rw [step_onInitialize]
    exact h.onInitialize hsa

theorem closesAhead_of_scheduleSafe (cfg : Config A) (assets : GenericAsset.State A) (ops : List (Op A))
    (hsafe : Each (step cfg) (ScheduleSafe cfg) (.genesis assets) ops) :
    ∀ done, done <+: ops → ClosesAhead (execute (step cfg) (.genesis assets) done) := by
  intro done hdo
  exact closesAhead_of_scheduled (hsafe.throughout (I := fun s : State A => Scheduled s.book)
    (fun _ _ => step_scheduled) (genesis_scheduled assets) hdo)

end

/-! ### A duration of zero -/

def auctionedFor (dur : BlockNumber) : List (Op Nat) := [
  .onInitialize 1,
  .call 1 (.createCollection [97] none),
  .call 1 (.mintSeries 0 2 none (.https [97]) none),
  .call 1 (.auctionBundle [(0, 0, 0)] 1 5 (some dur) none)]

/-- With no duration the auction is to end at block 1, whose hook has run. At block 2 it is open, and a bid on it stays
reserved. -/
theorem auction_for_no_block_stays_open :
    ∃ s, execute (step plainConfig) fundedBuyer (auctionedFor 0 ++ [.onInitialize 2, .call 2 (.bid 0 7)]) = s ∧
      s.blockNumber = 2 ∧
      (s.listings.get? 0).map (fun l => (l.close, (l.close - s.blockNumber).toNat)) = some (1, 2 ^ 32 - 1) ∧
      s.listingWinningBid.get? 0 = some (2, 7) ∧ s.listingEndSchedule.contains (1, 0) = true ∧ ¬ClosesAhead s := by
  obtain ⟨s, hrun, hbl, hli, hr⟩ : ∃ s,
      execute (step plainConfig) fundedBuyer (auctionedFor 0 ++ [.onInitialize 2, .call 2 (.bid 0 7)]) = s ∧
      s.blockNumber = 2 ∧
      (s.listings.get? 0).map (fun l => (l.close, (l.close - s.blockNumber).toNat)) = some (1, 2 ^ 32 - 1) ∧
      s.listingWinningBid.get? 0 = some (2, 7) ∧ s.listingEndSchedule.contains (1, 0) = true :=
    ⟨_, rfl, by decide⟩
  refine ⟨s, hrun, hbl, hli, hr.1, hr.2, fun hah => ?_⟩
  obtain ⟨li, hget, hcl⟩ := Option.map_eq_some_iff.mp hli
  have hla := (hah 0 li hget).1
  rw [(Prod.mk.inj hcl).1, hbl] at hla
  exact absurd hla (by decide)

theorem auction_closes_ahead : ∃ ops, ops = auctionedFor 3 ++ [.onInitialize 2, .call 2 (.bid 0 7), .onInitialize 3] ∧
      ((execute (step plainConfig) fundedBuyer ops).listings.get? 0).map Listing.close = some 42 ∧
      ∀ done, done <+: ops → ClosesAhead (execute (step plainConfig) fundedBuyer done) :=
  ⟨_, rfl, by decide, closesAhead_of_scheduleSafe plainConfig _ _ (by decide)⟩

end Nft
