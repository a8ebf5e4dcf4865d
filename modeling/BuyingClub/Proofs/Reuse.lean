import BuyingClub.Proofs.Command.Items
import BuyingClub.Proofs.Integrity

/-!
# Numbers after a restart

Runs, participants and lines are never given up, and neither are their numbers. A bid that is
retracted leaves its number, and when the desk is opened again while no stored bid has one as great,
the number is given out once more.
-/

namespace BuyingClub

/-! ## What a book never gives up -/

/-- What a participant is known by. -/
def Participation.row (p : Participation) : ParticipationId × RunId × UserId :=
  (p.id, p.run, p.user)

/-- What a line is known by. -/
def ShoppingItem.entry (item : ShoppingItem) : ItemId × RunId × ProductId :=
  (item.id, item.run, item.product)

/-- The later book is of the same run, with all its participants and lines. -/
structure OrderBook.IsKeptBy (book later : OrderBook) : Prop where
  run : later.run.id = book.run.id
  group : later.run.group = book.run.group
  store : later.run.store = book.run.store
  participants : book.participations.map (·.row) <+: later.participations.map (·.row)
  items : book.items.map (·.entry) <+: later.items.map (·.entry)

theorem OrderBook.IsKeptBy.refl (book : OrderBook) : book.IsKeptBy book :=
  ⟨rfl, rfl, rfl, List.prefix_refl _, List.prefix_refl _⟩

theorem OrderBook.IsKeptBy.trans {book later last : OrderBook} (h : book.IsKeptBy later)
    (h' : later.IsKeptBy last) : book.IsKeptBy last :=
  ⟨h'.run.trans h.run, h'.group.trans h.group, h'.store.trans h.store,
    h.participants.trans h'.participants, h.items.trans h'.items⟩

namespace Draft

variable {limits : Limits} {d after : Draft} {user : UserId} {action : Action} {reply : Reply}

theorem Follows.store {run : Run} (h : d.Follows run) : run.store = d.book.run.store := by
  cases h <;> rfl

theorem Gathers.rows {participations : List Participation} {next : Nat}
    (h : d.Gathers user participations next) :
    d.book.participations.map (·.row) <+: participations.map (·.row) := by
  cases h with
  | stays => exact List.prefix_refl _
  | joins unknown =>
    rw [List.map_append]
    exact List.prefix_append ..
  | marks keeps =>
    rw [map_updateFirst _ _ Participation.row fun p => by rw [keeps p]; rfl]

theorem ChangesItems.entries {items : List ShoppingItem}
    (h : d.ChangesItems limits action items) :
    d.book.items.map (·.entry) <+: items.map (·.entry) := by
  cases h with
  | stays noPurchase => exact List.prefix_refl _
  | lists empty =>
    rw [empty]
    exact List.nil_prefix
  | @buys product _ _ _ q each paid item reads finds =>
    obtain rfl := OrderBook.product_of_itemFor? finds
    have hsame : (d.book.updateItem item.product fun _ =>
        item.purchased q each paid (nextOrder d.book.items)).items.map (·.entry) =
          d.book.items.map (·.entry) := map_updateFirst_of_find? _ finds rfl
    rw [hsame]
  | @returns product item finds wasBought =>
    have hsame : (d.book.updateItem product (·.unpurchased)).items.map (·.entry) =
        d.book.items.map (·.entry) := map_updateFirst_of_find? _ finds rfl
    rw [hsame]
  | handsOut noPurchase handsOut =>
    rw [OrderBook.handOut_items handsOut _ fun _ _ => rfl]

theorem Outcome.isKeptBy (h : d.Outcome limits user action after reply) :
    d.book.IsKeptBy after.book where
  run := h.run_id
  group := h.follows.group
  store := h.follows.store
  participants := h.gathers.rows
  items := h.changesItems.entries

end Draft

/-! ## Bids -/

namespace Enters

variable {known : List ParticipationId} {count next next' : Nat} {rows rows' : List BidRow}

theorem isPrefix (h : Enters known next rows count next' rows') : rows <+: rows' := by
  induction h with
  | none => exact List.prefix_refl _
  | one _ isKnown isNew ih => exact ih.trans (List.prefix_append ..)

end Enters

namespace Draft

variable {d : Draft} {known : List ParticipationId} {bids : List Bid} {next : Nat} {row : BidRow}

theorem Bids.stays_or_gone (h : d.Bids known bids next) (distinct : (d.book.bids.map (·.id)).Nodup)
    (stored : row ∈ d.book.bids.map Bid.row) :
    row ∈ bids.map Bid.row ∨ row.1 ∉ bids.map (·.id) := by
  cases h with
  | enters few enters => exact .inl (enters.isPrefix.subset stored)
  | removes fewer =>
    by_cases stays : row ∈ bids.map Bid.row
    · exact .inl stays
    · refine .inr fun hid => stays ?_
      obtain ⟨b, hb, rfl⟩ := List.mem_map.mp stored
      obtain ⟨c, hc, hid⟩ := List.mem_map.mp hid
      obtain rfl := List.inj_on_of_nodup_map distinct (fewer.subset hc) hb hid
      exact List.mem_map_of_mem hc

end Draft

theorem AreNumberedApart.eq_of_mem {kind : Kind} {α : Type} {ids : α → List (Identifier kind)}
    {next : Nat} {xs : List α} {x y : α} {id : Identifier kind} (h : AreNumberedApart ids next xs)
    (hx : x ∈ xs) (hy : y ∈ xs) (inX : id ∈ ids x) (inY : id ∈ ids y) : x = y := by
  have : Std.Symm fun x y : α => (ids x).Disjoint (ids y) := ⟨fun _ _ => List.Disjoint.symm⟩
  by_contra hne
  exact h.apart.forall hx hy hne inX inY

namespace Store

variable {store : Store}

/-- Whether the bid is stored in the book of the run. -/
def HoldsBid (store : Store) (run : RunId) (row : BidRow) : Prop :=
  ∃ book, store.find? run = some book ∧ row ∈ book.bids.map Bid.row

/-- Whether any stored bid has the number. -/
def HasBid (store : Store) (id : BidId) : Prop :=
  ∃ run book, store.find? run = some book ∧ id ∈ book.bids.map (·.id)

theorem watermark_bid_lt_iff {bound : Nat} : store.watermark.bid < bound ↔
    0 < bound ∧ ∀ book ∈ store.books, watermark.greatest (book.bids.map (·.id.number)) < bound :=
  watermark_lt_iff rfl fun _ _ => rfl

end Store

theorem Counters.Cover.watermark_bid_lt {counters : Counters} {store : Store}
    (h : counters.Cover store) : store.watermark.bid + 1 < UInt64.size := by
  have hlt : store.watermark.bid < UInt64.size - 1 := by
    rw [Store.watermark_bid_lt_iff]
    refine ⟨by decide, fun book hbook => ?_⟩
    rw [Store.greatest_lt_iff, List.forall_mem_map]
    refine ⟨by decide, fun b hb => ?_⟩
    have hnotLast := (h.bids.each book hbook).notLast b.id (List.mem_map_of_mem hb)
    omega
  omega

/-! ## Steps -/

namespace Desk

variable {terms : Terms} {desk after : Desk} {turn : Turn} {run : RunId} {row : BidRow} {id : BidId}

/-- A number that was given to a bid and that no stored bid has any more. -/
structure HasDropped (desk : Desk) (id : BidId) : Prop where
  dropped : ¬ desk.repository.store.HasBid id
  below : id.number < desk.counters.bid

theorem Took.holdsBid (h : desk.Took terms turn after)
    (covers : desk.counters.Cover desk.repository.store)
    (rises : turn.isResume = true ∨ desk.counters ≤ after.counters)
    (holds : desk.repository.store.HoldsBid run row) :
    after.repository.store.HoldsBid run row ∨ after.HasDropped row.1 := by
  obtain ⟨book, finds, hrow⟩ := holds
  have hkept (stores : after.repository.store.find? run = desk.repository.store.find? run) :
      after.repository.store.HoldsBid run row := ⟨book, stores.trans finds, hrow⟩
  cases h with
  | created fresh stores counts =>
    refine .inl (hkept ?_)
    rw [stores]
    apply Store.find?_append_of_ne
    rintro rfl
    cases fresh.symm.trans finds
  | @handled other command now old d reply _ hfinds outcome serves stores counts =>
    have hid : d.book.run.id = other := outcome.run_id.trans (Store.id_of_find? hfinds)
    by_cases hrun : run = other
    · subst hrun
      obtain rfl : old = book := Option.some.inj (hfinds.symm.trans finds)
      have hafter : after.repository.store.find? run = some d.book := by
        rw [stores, ← hid]
        exact Store.find?_replace_self (by rw [hid]; exact finds)
      have hbook := Store.mem_of_find? finds
      rcases outcome.bids.stays_or_gone (covers.bids.each old hbook).nodup hrow with hstays | hgone
      · exact .inl ⟨d.book, hafter, hstays⟩
      · obtain ⟨b, hb, rfl⟩ := List.mem_map.mp hrow
        have hlt := (covers.bids.each old hbook).below b.id (List.mem_map_of_mem hb)
        refine .inr ⟨?_, Nat.lt_of_lt_of_le hlt (rises.resolve_left nofun).2.2.1⟩
        rintro ⟨another, found, hfound, hmem⟩
        by_cases hanother : another = run
        · subst hanother
          obtain rfl := Option.some.inj (hafter.symm.trans hfound)
          exact hgone hmem
        · rw [stores, Store.find?_replace_of_ne (by rw [hid]; exact hanother)] at hfound
          have hsame := covers.bids.eq_of_mem (Store.mem_of_find? hfound) hbook hmem
            (List.mem_map_of_mem hb)
          rw [hsame] at hfound
          exact hanother ((Store.id_of_find? hfound).symm.trans (Store.id_of_find? finds))
    · refine .inl (hkept ?_)
      rw [stores]
      exact Store.find?_replace_of_ne (by rw [hid]; exact hrun)
  | resumed stores counts => exact .inl (hkept (by rw [stores]))
  | kept stores serves counts => exact .inl (hkept (by rw [stores]))

theorem Took.old_or_new_bid (h : desk.Took terms turn after)
    (covers : desk.counters.Cover desk.repository.store)
    (rises : turn.isResume = true ∨ desk.counters ≤ after.counters)
    (stored : after.repository.store.HasBid id) :
    desk.repository.store.HasBid id ∨ desk.counters.bid ≤ id.number := by
  obtain ⟨run, book, finds, hid⟩ := stored
  cases h with
  | @created group store leader now _ fresh stores counts =>
    rw [stores] at finds
    by_cases hrun : run = (newBook desk.counters group store leader now).run.id
    · subst hrun
      rw [Store.find?_append_self fresh] at finds
      obtain rfl := Option.some.inj finds
      cases hid
    · rw [Store.find?_append_of_ne hrun] at finds
      exact .inl ⟨run, book, finds, hid⟩
  | @handled other command now old d reply _ hfinds outcome serves stores counts =>
    obtain rfl : d.book.run.id = other := outcome.run_id.trans (Store.id_of_find? hfinds)
    rw [stores] at finds
    by_cases hrun : run = d.book.run.id
    · subst hrun
      rw [Store.find?_replace_self hfinds] at finds
      obtain rfl := Option.some.inj finds
      have hbook := Store.mem_of_find? hfinds
      have hitems := (covers.items.each old hbook).length_lt
      rw [List.length_map] at hitems
      have hfew : max 1 old.items.length < UInt64.size := Nat.max_lt.mpr ⟨by decide, hitems⟩
      have hrises : desk.counters.bid ≤ d.counters.bid := by
        rw [counts] at rises
        exact (rises.resolve_left nofun).2.2.1
      rcases outcome.bids.advances.old_or_new hfew hrises id hid with hold | hnew
      · exact .inl ⟨_, old, hfinds, hold⟩
      · exact .inr hnew
    · rw [Store.find?_replace_of_ne hrun] at finds
      exact .inl ⟨run, book, finds, hid⟩
  | resumed stores counts =>
    rw [stores] at finds
    exact .inl ⟨run, book, finds, hid⟩
  | kept stores serves counts =>
    rw [stores] at finds
    exact .inl ⟨run, book, finds, hid⟩

/-- Unless the desk is opened again while all stored bids have lower numbers, a number that was
dropped is not given out again. -/
theorem Took.hasDropped (h : desk.Took terms turn after)
    (covers : desk.counters.Cover desk.repository.store)
    (rises : turn.isResume = true ∨ desk.counters ≤ after.counters)
    (remembers : turn.isResume = true → id.number ≤ desk.repository.store.watermark.bid)
    (dropped : desk.HasDropped id) : after.HasDropped id where
  dropped hstored := by
    rcases h.old_or_new_bid covers rises hstored with hold | hnew
    · exact dropped.dropped hold
    · exact Nat.not_le.mpr dropped.below hnew
  below := by
    rcases rises with hresume | hrises
    · cases h with
      | resumed stores counts =>
        have hfollowing : followingNumber desk.repository.store.watermark.bid =
            desk.repository.store.watermark.bid + 1 := Nat.mod_eq_of_lt covers.watermark_bid_lt
        rw [counts]
        show id.number < followingNumber desk.repository.store.watermark.bid
        rw [hfollowing]
        exact Nat.lt_succ_of_le (remembers hresume)
      | @kept turn _ stores serves counts =>
        cases turn with
        | resume now =>
          rw [counts now rfl]
          exact dropped.below
        | _ => cases hresume
      | _ => cases hresume
    · exact Nat.lt_of_lt_of_le dropped.below hrises.2.2.1

/-! ## Steps one after the other -/

/-- In these steps the desk is opened again while every stored bid has a lower number. -/
def Forgets (desk : Desk) (id : BidId) (steps : List (Terms × Turn)) : Prop :=
  ∃ before terms now rest, steps = before ++ (terms, .resume now) :: rest ∧
    (desk.takeEach before).repository.store.watermark.bid < id.number

theorem not_forgets_nil : ¬ desk.Forgets id [] := by
  rintro ⟨before, _, _, _, heq, _⟩
  cases before <;> cases heq

theorem forgets_cons_iff {steps : List (Terms × Turn)} :
    desk.Forgets id ((terms, turn) :: steps) ↔
      turn.isResume = true ∧ desk.repository.store.watermark.bid < id.number ∨
        (desk.take terms turn).Forgets id steps := by
  constructor
  · rintro ⟨before, terms', now, rest, heq, hlow⟩
    cases before with
    | nil =>
      obtain ⟨⟨rfl, rfl⟩, rfl⟩ := List.cons.inj heq |>.imp_left Prod.mk.inj
      exact .inl ⟨rfl, hlow⟩
    | cons first before =>
      obtain ⟨rfl, rfl⟩ := List.cons.inj heq
      exact .inr ⟨before, terms', now, rest, rfl, hlow⟩
  · rintro (⟨hresume, hlow⟩ | ⟨before, terms', now, rest, rfl, hlow⟩)
    · cases turn with
      | resume now => exact ⟨[], terms, now, steps, rfl, hlow⟩
      | _ => cases hresume
    · exact ⟨(terms, turn) :: before, terms', now, rest, rfl, hlow⟩

def decideForgets (desk : Desk) (id : BidId) :
    (steps : List (Terms × Turn)) → Decidable (desk.Forgets id steps)
  | [] => .isFalse not_forgets_nil
  | (terms, turn) :: rest =>
    have := decideForgets (desk.take terms turn) id rest
    decidable_of_iff' _ forgets_cons_iff

instance (steps : List (Terms × Turn)) : Decidable (desk.Forgets id steps) :=
  decideForgets desk id steps

theorem Forgets.append_left {before : List (Terms × Turn)} (h : desk.Forgets id before)
    (rest : List (Terms × Turn)) : desk.Forgets id (before ++ rest) := by
  obtain ⟨first, terms, now, last, rfl, hlow⟩ := h
  exact ⟨first, terms, now, last ++ rest, by simp, hlow⟩

theorem takeEach_append (steps more : List (Terms × Turn)) :
    desk.takeEach (steps ++ more) = (desk.takeEach steps).takeEach more := List.foldl_append

theorem Forgets.append_right {before rest : List (Terms × Turn)}
    (h : (desk.takeEach before).Forgets id rest) : desk.Forgets id (before ++ rest) := by
  obtain ⟨first, terms, now, last, rfl, hlow⟩ := h
  refine ⟨before ++ first, terms, now, last, by simp, ?_⟩
  rw [takeEach_append]
  exact hlow

theorem takeEach_hasDropped (unraced : desk.repository.IsUnraced)
    (covers : desk.counters.Cover desk.repository.store) {steps : List (Terms × Turn)}
    (lasts : desk.Lasts steps) (remembers : ¬ desk.Forgets id steps)
    (dropped : desk.HasDropped id) : (desk.takeEach steps).HasDropped id := by
  induction steps generalizing desk with
  | nil => exact dropped
  | cons step rest ih =>
    obtain ⟨terms, turn⟩ := step
    obtain ⟨hunraced, htook⟩ := take_took terms unraced turn
    rw [forgets_cons_iff, not_or] at remembers
    refine ih hunraced (htook.cover lasts.1 covers) lasts.2 remembers.2 ?_
    refine htook.hasDropped covers lasts.1 (fun hresume => ?_) dropped
    exact Nat.not_lt.mp fun hlow => remembers.1 ⟨hresume, hlow⟩

theorem takeEach_holdsBid (unraced : desk.repository.IsUnraced)
    (covers : desk.counters.Cover desk.repository.store) {steps : List (Terms × Turn)}
    (lasts : desk.Lasts steps) (remembers : ¬ desk.Forgets row.1 steps)
    (holds : desk.repository.store.HoldsBid run row) :
    (desk.takeEach steps).repository.store.HoldsBid run row ∨
      (desk.takeEach steps).HasDropped row.1 := by
  induction steps generalizing desk with
  | nil => exact .inl holds
  | cons step rest ih =>
    obtain ⟨terms, turn⟩ := step
    obtain ⟨hunraced, htook⟩ := take_took terms unraced turn
    have hcovers := htook.cover lasts.1 covers
    rw [forgets_cons_iff, not_or] at remembers
    rcases htook.holdsBid covers lasts.1 holds with hstays | hgone
    · exact ih hunraced hcovers lasts.2 remembers.2 hstays
    · exact .inr (takeEach_hasDropped hunraced hcovers lasts.2 remembers.2 hgone)

theorem holdsBid_throughout (unraced : desk.repository.IsUnraced)
    (covers : desk.counters.Cover desk.repository.store) {before rest : List (Terms × Turn)}
    (lasts : desk.Lasts (before ++ rest)) (remembers : ¬ desk.Forgets row.1 (before ++ rest))
    (holds : desk.repository.store.HoldsBid run row)
    (stored : (desk.takeEach (before ++ rest)).repository.store.HasBid row.1) :
    (desk.takeEach before).repository.store.HoldsBid run row := by
  obtain ⟨hbefore, hrest⟩ := lasts_append.mp lasts
  rcases takeEach_holdsBid unraced covers hbefore (fun h => remembers (h.append_left rest)) holds
    with hholds | hdropped
  · exact hholds
  · have hlast := takeEach_hasDropped (takeEach_unraced unraced before)
      (takeEach_cover unraced covers before hbefore) hrest (fun h => remembers h.append_right)
      hdropped
    rw [← takeEach_append] at hlast
    exact absurd stored hlast.dropped

theorem takeEach_isKeptBy {book : OrderBook} (unraced : desk.repository.IsUnraced)
    (finds : desk.repository.store.find? run = some book) (steps : List (Terms × Turn)) :
    ∃ later, (desk.takeEach steps).repository.store.find? run = some later ∧
      book.IsKeptBy later := by
  induction steps generalizing desk book with
  | nil => exact ⟨book, finds, .refl book⟩
  | cons step rest ih =>
    obtain ⟨hunraced, hturns⟩ := take_turns step.1 unraced step.2
    obtain ⟨next, hnext, hstep⟩ := hturns.find? finds
    obtain ⟨later, hlater, hkept⟩ := ih hunraced hnext
    refine ⟨later, hlater, .trans ?_ hkept⟩
    rcases hstep with rfl | ⟨_, _, _, _, d, _, houtcome, rfl⟩
    · exact .refl _
    · exact houtcome.isKeptBy

end Desk

namespace Counters.Cover

variable {counters : Counters} {store : Store} {book later other : OrderBook}

theorem eq_of_run_id (h : counters.Cover store) (hbook : book ∈ store.books)
    (hother : other ∈ store.books) (same : other.run.id = book.run.id) : other = book :=
  List.inj_on_of_nodup_map h.runs.nodup hother hbook same

theorem row_of_participation (h : counters.Cover store) (kept : book.IsKeptBy later)
    (hlater : later ∈ store.books) (hother : other ∈ store.books) {p q : Participation}
    (hp : p ∈ book.participations) (hq : q ∈ other.participations) (same : q.id = p.id) :
    other = later ∧ q.row = p.row := by
  obtain ⟨r, hr, hrow⟩ := List.mem_map.mp (kept.participants.subset (List.mem_map_of_mem hp))
  have hid : q.id = r.id := same.trans (congrArg Prod.fst hrow).symm
  have hinLater : q.id ∈ later.participations.map (·.id) := by
    rw [hid]
    exact List.mem_map_of_mem hr
  obtain rfl := h.participations.eq_of_mem hother hlater (List.mem_map_of_mem hq) hinLater
  obtain rfl := List.inj_on_of_nodup_map (h.participations.each other hother).nodup hq hr hid
  exact ⟨rfl, hrow⟩

theorem entry_of_item (h : counters.Cover store) (kept : book.IsKeptBy later)
    (hlater : later ∈ store.books) (hother : other ∈ store.books) {item line : ShoppingItem}
    (hitem : item ∈ book.items) (hline : line ∈ other.items) (same : line.id = item.id) :
    other = later ∧ line.entry = item.entry := by
  obtain ⟨found, hfound, hentry⟩ := List.mem_map.mp (kept.items.subset (List.mem_map_of_mem hitem))
  have hid : line.id = found.id := same.trans (congrArg Prod.fst hentry).symm
  have hinLater : line.id ∈ later.items.map (·.id) := by
    rw [hid]
    exact List.mem_map_of_mem hfound
  obtain rfl := h.items.eq_of_mem hother hlater (List.mem_map_of_mem hline) hinLater
  obtain rfl := List.inj_on_of_nodup_map (h.items.each other hother).nodup hline hfound hid
  exact ⟨rfl, hentry⟩

theorem row_of_bid (h : counters.Cover store) (finds : store.find? later.run.id = some later)
    (hother : other ∈ store.books) {b c : Bid} (holds : store.HoldsBid later.run.id b.row)
    (hc : c ∈ other.bids) (same : c.id = b.id) : other = later ∧ c.row = b.row := by
  obtain ⟨found, hfound, hrow⟩ := holds
  obtain rfl := Option.some.inj (finds.symm.trans hfound)
  obtain ⟨held, hheld, hrow⟩ := List.mem_map.mp hrow
  have hid : c.id = held.id := same.trans (congrArg Prod.fst hrow).symm
  have hinLater : c.id ∈ later.bids.map (·.id) := by
    rw [hid]
    exact List.mem_map_of_mem hheld
  obtain rfl := h.bids.eq_of_mem hother (Store.mem_of_find? finds) (List.mem_map_of_mem hc) hinLater
  obtain rfl := List.inj_on_of_nodup_map (h.bids.each other hother).nodup hc hheld hid
  exact ⟨rfl, hrow⟩

end Counters.Cover

/-- Whatever happens after a book was stored, its run stays stored with all its participants and
lines, and no other run, participant or line gets one of their numbers. Nor does another bid get the
number of one of its bids, and one that was retracted stays away, unless the desk was opened again
while every stored bid had a lower number. -/
theorem numbers_not_reused {steps more : List (Terms × Desk.Turn)}
    (lasts : Desk.opened.Lasts (steps ++ more)) {run : RunId} {book : OrderBook}
    (finds : (Desk.opened.takeEach steps).repository.store.find? run = some book) :
    ∃ later, (Desk.opened.takeEach (steps ++ more)).repository.store.find? run = some later ∧
      book.IsKeptBy later ∧
      ∀ other ∈ (Desk.opened.takeEach (steps ++ more)).repository.store.books,
        (other.run.id = run → other = later) ∧
        (∀ p ∈ book.participations, ∀ q ∈ other.participations, q.id = p.id →
          other = later ∧ q.row = p.row) ∧
        (∀ item ∈ book.items, ∀ line ∈ other.items, line.id = item.id →
          other = later ∧ line.entry = item.entry) ∧
        ∀ b ∈ book.bids, ∀ c ∈ other.bids, c.id = b.id →
          (Desk.opened.takeEach steps).Forgets b.id more ∨
            other = later ∧ c.row = b.row ∧
              ∀ before rest, more = before ++ rest →
                (Desk.opened.takeEach (steps ++ before)).repository.store.HoldsBid run b.row := by
  have hunraced : (Desk.opened.takeEach steps).repository.IsUnraced :=
    Desk.takeEach_unraced (Repository.isUnraced_ofStore _) steps
  obtain ⟨hsteps, hmore⟩ := Desk.lasts_append.mp lasts
  have hcovers := Desk.takeEach_cover (Repository.isUnraced_ofStore _) (.empty _) steps hsteps
  have hcovers' := Desk.takeEach_cover (Repository.isUnraced_ofStore _) (.empty _) _ lasts
  obtain ⟨later, hlater, hkept⟩ := Desk.takeEach_isKeptBy hunraced finds more
  rw [← Desk.takeEach_append] at hlater
  obtain rfl : later.run.id = run := Store.id_of_find? hlater
  have hmem := Store.mem_of_find? hlater
  refine ⟨later, hlater, hkept, fun other hother => ⟨hcovers'.eq_of_run_id hmem hother, ?_, ?_, ?_⟩⟩
  · exact fun p hp q hq => hcovers'.row_of_participation hkept hmem hother hp hq
  · exact fun item hitem line hline => hcovers'.entry_of_item hkept hmem hother hitem hline
  · intro b hb c hc hid
    by_cases forgets : (Desk.opened.takeEach steps).Forgets b.id more
    · exact .inl forgets
    have holds : (Desk.opened.takeEach steps).repository.store.HoldsBid later.run.id b.row :=
      ⟨book, finds, List.mem_map_of_mem hb⟩
    have hstored : (Desk.opened.takeEach (steps ++ more)).repository.store.HasBid b.id := by
      refine ⟨other.run.id, other, ?_, ?_⟩
      · exact find?_of_unique hother (decide_eq_true rfl) fun found hfound hsame =>
          hcovers'.eq_of_run_id hother hfound (of_decide_eq_true hsame)
      · rw [← hid]
        exact List.mem_map_of_mem hc
    rw [Desk.takeEach_append] at hstored
    have hall : ∀ before rest, more = before ++ rest →
        (Desk.opened.takeEach (steps ++ before)).repository.store.HoldsBid later.run.id b.row := by
      rintro before rest rfl
      rw [Desk.takeEach_append]
      exact Desk.holdsBid_throughout hunraced hcovers hmore forgets holds hstored
    have hend := hall more [] (List.append_nil more).symm
    obtain ⟨hsame, hrow⟩ := hcovers'.row_of_bid hlater hother hend hc hid
    exact .inr ⟨hsame, hrow, hall⟩

namespace Desk

/-- The second member bids, and so does the leader. -/
def bidSteps : List (Terms × Turn) :=
  [.create ⟨1⟩ ⟨1⟩ ⟨1⟩ (.ofSeconds 0),
    tripTurn 2 (.placeBid ⟨1⟩ (.ofInt 2) false none),
    tripTurn 1 (.placeBid ⟨1⟩ (.ofInt 4) false none)].map (tripTerms, ·)

/-- The user retracts a bid, the desk is opened again, and the user bids on another product. -/
def rebidSteps (user : Nat) : List (Terms × Turn) :=
  [tripTurn user (.retractBid ⟨1⟩), .resume (.ofSeconds 1),
    tripTurn user (.placeBid ⟨2⟩ (.ofInt 3) false none)].map (tripTerms, ·)

end Desk

/-- The second member retracts the first bid. The leader's bid has a greater number, and so the next
bid has a new one. -/
theorem numbers_not_reused_after_restart :
    ∃ book later : OrderBook,
      (Desk.opened.takeEach Desk.bidSteps).repository.store.find? ⟨1⟩ = some book ∧
      (Desk.opened.takeEach (Desk.bidSteps ++ Desk.rebidSteps 2)).repository.store.find? ⟨1⟩ =
        some later ∧
      book.IsKeptBy later ∧ later.bids.map (·.id.number) = [2, 3] ∧
      ∀ b ∈ book.bids, ∀ c ∈ later.bids, c.id = b.id → c.row = b.row := by
  have hfound : ((Desk.opened.takeEach Desk.bidSteps).repository.store.find? ⟨1⟩).any
      (fun book => book.bids.all fun b =>
        !(Desk.opened.takeEach Desk.bidSteps).Forgets b.id (Desk.rebidSteps 2)) = true := by
    decide +kernel
  have hnumbers :
      ((Desk.opened.takeEach (Desk.bidSteps ++ Desk.rebidSteps 2)).repository.store.find? ⟨1⟩).map
        (·.bids.map (·.id.number)) = some [2, 3] := by
    decide +kernel
  obtain ⟨book, finds, hbids⟩ := (Option.any_eq_true _ _).mp hfound
  have hlasts : Desk.opened.Lasts (Desk.bidSteps ++ Desk.rebidSteps 2) := by decide +kernel
  obtain ⟨later, hlater, hkept, hothers⟩ := numbers_not_reused hlasts finds
  obtain ⟨_, _, _, hkeepsBids⟩ := hothers later (Store.mem_of_find? hlater)
  rw [hlater] at hnumbers
  refine ⟨book, later, finds, hlater, hkept, Option.some.inj hnumbers, fun b hb c hc hid => ?_⟩
  have hremembers := List.all_eq_true.mp hbids b hb
  rw [Bool.not_eq_true', decide_eq_false_iff_not] at hremembers
  exact ((hkeepsBids b hb c hc hid).resolve_left hremembers).2.1

/-- The leader retracts the bid with the greatest number, and that number goes to a bid on another
product. -/
theorem bid_number_reused_after_restart :
    Desk.opened.Lasts (Desk.bidSteps ++ Desk.rebidSteps 1) ∧
      ∃ book later : OrderBook,
        (Desk.opened.takeEach Desk.bidSteps).repository.store.find? ⟨1⟩ = some book ∧
        (Desk.opened.takeEach (Desk.bidSteps ++ Desk.rebidSteps 1)).repository.store.find? ⟨1⟩ =
          some later ∧
        ∃ b ∈ book.bids, ∃ c ∈ later.bids, c.id = b.id ∧ c.product ≠ b.product := by
  refine ⟨by decide +kernel, ?_⟩
  have hbook : ((Desk.opened.takeEach Desk.bidSteps).repository.store.find? ⟨1⟩).any
      (fun book => ((Desk.opened.takeEach
        (Desk.bidSteps ++ Desk.rebidSteps 1)).repository.store.find? ⟨1⟩).any
          fun later => book.bids.any fun b => later.bids.any fun c =>
            c.id = b.id && c.product ≠ b.product) = true := by
    decide +kernel
  obtain ⟨book, finds, hbook⟩ := (Option.any_eq_true _ _).mp hbook
  obtain ⟨later, hlater, hbids⟩ := (Option.any_eq_true _ _).mp hbook
  obtain ⟨b, hb, hbids⟩ := List.any_eq_true.mp hbids
  obtain ⟨c, hc, hsame⟩ := List.any_eq_true.mp hbids
  rw [Bool.and_eq_true, decide_eq_true_eq, decide_eq_true_eq] at hsame
  exact ⟨book, later, finds, hlater, b, hb, c, hc, hsame⟩

end BuyingClub
