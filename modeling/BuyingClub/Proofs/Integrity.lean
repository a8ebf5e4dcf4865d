import BuyingClub.Proofs.Command.Rows
import BuyingClub.Proofs.Consistency
import BuyingClub.Proofs.Store.Watermark

/-!
# The integrity of the store

Every stored book is well formed, and no identifier is given out twice, in one book or across
books, whatever commands fail in between and however often the desk is opened again.
-/

namespace BuyingClub

/-! ## Books -/

/-- Who takes part in a run: one leads, nobody is removed, and no user takes part twice. -/
structure AreSeated (run : RunId) (participations : List Participation) : Prop where
  oneLeader : participations.countP (·.isLeader) = 1
  noneRemoved : ∀ p ∈ participations, p.isRemoved = false
  users : (participations.map (·.user)).Nodup
  ofRun : ∀ p ∈ participations, p.run = run

theorem OrderBook.activeParticipations_eq {book : OrderBook}
    (noneRemoved : ∀ p ∈ book.participations, p.isRemoved = false) :
    book.activeParticipations = book.participations := by
  refine List.filter_eq_self.mpr fun p hp => ?_
  rw [noneRemoved p hp]
  rfl

/-- What every command keeps of a book, whichever numbers it draws. -/
structure OrderBook.IsTidy (book : OrderBook) : Prop where
  seated : AreSeated book.run.id book.participations
  bidders : ∀ b ∈ book.bids, b.participation ∈ book.participations.map (·.id)
  oneBidEach : (book.bids.map fun b => (b.participation, b.product)).Nodup
  list : IsSoundList book.items
  linesOfRun : ∀ item ∈ book.items, item.run = book.run.id

structure OrderBook.IsWellFormed (book : OrderBook) : Prop extends book.IsTidy where
  participationsAscend : (book.participations.map (·.id)).Pairwise (· < ·)
  bidsAscend : (book.bids.map (·.id)).Pairwise (· < ·)

namespace Draft

variable {limits : Limits} {d after : Draft} {user : UserId} {action : Action} {reply : Reply}

theorem Gathers.areSeated {participations : List Participation} {next : Nat}
    (h : d.Gathers user participations next)
    (before : AreSeated d.book.run.id d.book.participations) :
    AreSeated d.book.run.id participations := by
  cases h with
  | stays => exact before
  | joins unknown =>
    refine ⟨?_, fun p hp => ?_, ?_, fun p hp => ?_⟩
    · rw [List.countP_append, before.oneLeader]
      rfl
    · rcases List.mem_append.mp hp with hp | hp
      · exact before.noneRemoved p hp
      · rw [List.mem_singleton.mp hp]
        rfl
    · rw [List.map_append]
      refine before.users.append (List.nodup_singleton _) (List.disjoint_singleton.mpr ?_)
      intro huser
      obtain ⟨p, hp, huser⟩ := List.mem_map.mp huser
      refine List.find?_eq_none.mp unknown p hp ?_
      rw [huser, before.noneRemoved p hp]
      simp [Participation.join]
    · rcases List.mem_append.mp hp with hp | hp
      · exact before.ofRun p hp
      · rw [List.mem_singleton.mp hp]
        rfl
  | @marks id f keeps =>
    refine ⟨?_, fun p hp => ?_, ?_, fun p hp => ?_⟩
    · have hleads := map_updateFirst (·.id = id) f (·.isLeader) (fun p => by rw [keeps p])
        d.book.participations
      have hcount := congrArg (List.countP fun leads => leads) hleads
      rw [List.countP_map, List.countP_map] at hcount
      exact hcount.trans before.oneLeader
    · rcases mem_updateFirst hp with hp | ⟨old, hold, rfl⟩
      · exact before.noneRemoved p hp
      · rw [keeps old]
        exact before.noneRemoved old (List.mem_of_find?_eq_some hold)
    · rw [map_updateFirst _ _ Participation.user fun p => by rw [keeps p]]
      exact before.users
    · rcases mem_updateFirst hp with hp | ⟨old, hold, rfl⟩
      · exact before.ofRun p hp
      · rw [keeps old]
        exact before.ofRun old (List.mem_of_find?_eq_some hold)

theorem Outcome.isTidy (h : d.Outcome limits user action after reply) (before : d.book.IsTidy) :
    after.book.IsTidy where
  seated := by
    rw [h.run_id]
    exact h.gathers.areSeated before.seated
  bidders := by
    obtain ⟨count, _, _, hids⟩ := h.gathers.ids
    have hknown : ∀ b ∈ d.book.bids, b.participation ∈ after.book.participations.map (·.id) := by
      intro b hb
      rw [hids]
      exact List.mem_append_left _ (before.bidders b hb)
    exact h.bids.mem_known hknown
  oneBidEach := h.bids.nodup_keys before.oneBidEach
  list := h.isSoundList before.list
  linesOfRun := by
    rw [h.run_id]
    exact h.lines.ofRun before.linesOfRun

end Draft

theorem OrderBook.IsNew.isTidy {book : OrderBook} (h : book.IsNew) : book.IsTidy := by
  have hlist := h.isConsistent.list
  obtain ⟨id, group, store, leader, participation, now, rfl⟩ := h
  refine ⟨⟨rfl, fun p hp => ?_, List.nodup_singleton _, fun p hp => ?_⟩, nofun, .nil, hlist, nofun⟩
  · rw [List.mem_singleton.mp hp]
    rfl
  · rw [List.mem_singleton.mp hp]
    rfl

theorem OrderBook.IsTidy.length_filter_le {β : Type} {book : OrderBook} (h : book.IsTidy)
    {test : Bid → Bool} {f : Bid → β} {known : List β}
    (same : ∀ b c, test b = true → test c = true → f b = f c →
      b.participation = c.participation ∧ b.product = c.product)
    (subset : ∀ b ∈ book.bids, f b ∈ known) : (book.bids.filter test).length ≤ known.length := by
  have hsame : ∀ b ∈ book.bids.filter test, ∀ c ∈ book.bids.filter test, f b = f c → b = c := by
    intro b hb c hc heq
    obtain ⟨hb, hbtest⟩ := List.mem_filter.mp hb
    obtain ⟨hc, hctest⟩ := List.mem_filter.mp hc
    obtain ⟨hparticipation, hproduct⟩ := same b c hbtest hctest heq
    exact List.inj_on_of_nodup_map h.oneBidEach hb hc (Prod.ext hparticipation hproduct)
  have hnodup : ((book.bids.filter test).map f).Nodup :=
    (h.oneBidEach.of_map.filter _).map_on hsame
  rw [← List.length_map f]
  refine (hnodup.subperm fun value hvalue => ?_).length_le
  obtain ⟨b, hb, rfl⟩ := List.mem_map.mp hvalue
  exact subset b (List.mem_filter.mp hb).1

/-! ## Books and counters -/

/-- The books in the order of their creation. -/
structure Store.IsWellFormed (store : Store) : Prop where
  books : ∀ book ∈ store.books, book.IsWellFormed
  runsAscend : (store.books.map (·.run.id)).Pairwise (· < ·)
  participations : (store.books.flatMap fun book => book.participations.map (·.id)).Nodup
  bids : (store.books.flatMap fun book => book.bids.map (·.id)).Nodup
  items : (store.books.flatMap fun book => book.items.map (·.id)).Nodup

namespace Counters

instance : LE Counters :=
  ⟨fun a b => a.run ≤ b.run ∧ a.participation ≤ b.participation ∧ a.bid ≤ b.bid ∧ a.item ≤ b.item⟩

instance (a b : Counters) : Decidable (a ≤ b) :=
  inferInstanceAs (Decidable (_ ≤ (_ : Nat) ∧ _ ≤ (_ : Nat) ∧ _ ≤ (_ : Nat) ∧ _ ≤ (_ : Nat)))

/-- The books are tidy, and all that is numbered in them was drawn from these counters. -/
structure Cover (counters : Counters) (store : Store) : Prop where
  tidy : ∀ book ∈ store.books, book.IsTidy
  runs : AreNumbered counters.run (store.books.map (·.run.id))
  participations : AreNumberedApart (fun book => book.participations.map (·.id))
    counters.participation store.books
  bids : AreNumberedApart (fun book => book.bids.map (·.id)) counters.bid store.books
  items : AreNumberedApart (fun book => book.items.map (·.id)) counters.item store.books

namespace Cover

variable {counters counters' : Counters} {store : Store}

theorem isWellFormed (h : counters.Cover store) : store.IsWellFormed where
  books book hbook :=
    { h.tidy book hbook with
      participationsAscend := (h.participations.each book hbook).ascend
      bidsAscend := (h.bids.each book hbook).ascend }
  runsAscend := h.runs.ascend
  participations := h.participations.nodup
  bids := h.bids.nodup
  items := h.items.nodup

theorem empty (counters : Counters) : counters.Cover .empty :=
  ⟨nofun, .nil, ⟨nofun, .nil⟩, ⟨nofun, .nil⟩, ⟨nofun, .nil⟩⟩

theorem mono (h : counters.Cover store) (rises : counters ≤ counters') : counters'.Cover store where
  tidy := h.tidy
  runs := h.runs.mono rises.1
  participations := h.participations.mono rises.2.1
  bids := h.bids.mono rises.2.2.1
  items := h.items.mono rises.2.2.2

theorem create (h : counters.Cover store) (group : GroupId) (market : StoreId) (leader : UserId)
    (now : Instant) (rises : counters ≤ counters.drawRun.2.drawParticipation.2) :
    counters.drawRun.2.drawParticipation.2.Cover
      ⟨store.books ++ [Desk.newBook counters group market leader now]⟩ where
  tidy book hbook := by
    rcases List.mem_append.mp hbook with hbook | hbook
    · exact h.tidy book hbook
    · rw [List.mem_singleton.mp hbook]
      exact (Desk.isNew_newBook ..).isTidy
  runs := by
    have hadvances : Advances 1 counters.run (store.books.map (·.run.id))
        (followingNumber counters.run) (store.books.map (·.run.id) ++ [⟨counters.run⟩]) :=
      ⟨_, 1, List.Sublist.refl _, Nat.le_refl _, rfl, rfl⟩
    rw [List.map_append]
    exact hadvances.areNumbered (by decide) rises.1 h.runs
  participations := by
    obtain ⟨hnumbered, hnew⟩ := @areNumbered_drawn .participation counters.participation 1
      (by decide) rises.2.1
    exact h.participations.append rises.2.1 hnumbered hnew
  bids := h.bids.append (Nat.le_refl _) .nil nofun
  items := h.items.append (Nat.le_refl _) .nil nofun

theorem handle {limits : Limits} {run : RunId} {book : OrderBook} {now : Instant} {user : UserId}
    {action : Action} {d : Draft} {reply : Reply} (h : counters.Cover store)
    (finds : store.find? run = some book)
    (outcome : (Draft.ofBook book counters now).Outcome limits user action d reply)
    (rises : counters ≤ d.counters) : d.counters.Cover (store.replace d.book) := by
  obtain rfl : d.book.run.id = run := outcome.run_id.trans (Store.id_of_find? finds)
  have hbook := Store.mem_of_find? finds
  -- A command enters no more rows of a kind than there are of another, and those are all numbered.
  have hitems := (h.items.each book hbook).length_lt
  have hbids := (h.bids.each book hbook).length_lt
  rw [List.length_map] at hitems hbids
  have hfew : max 1 book.items.length < UInt64.size := Nat.max_lt.mpr ⟨by decide, hitems⟩
  refine ⟨fun b hb => ?_, ?_, ?_, ?_, ?_⟩
  · rcases Store.mem_replace hb with hb | rfl
    · exact h.tidy b hb
    · exact outcome.isTidy (h.tidy book hbook)
  · have hruns : (store.replace d.book).books.map (·.run.id) = store.books.map (·.run.id) :=
      map_updateFirst_of_find? (·.run.id) finds outcome.run_id
    rw [hruns]
    exact h.runs.mono rises.1
  · exact h.participations.advance finds outcome.gathers.advances (by decide) rises.2.1
  · exact h.bids.advance finds outcome.bids.advances hfew rises.2.2.1
  · exact h.items.advance finds outcome.lines.advances hbids rises.2.2.2

theorem restart (h : counters.Cover store) :
    (Counters.startingAfter store.watermark).Cover store where
  tidy := h.tidy
  runs := by
    have hruns : ∀ book ∈ store.books, ∀ id ∈ [book.run.id], id.number + 1 < UInt64.size := by
      intro book hbook id hid
      rw [List.mem_singleton.mp hid]
      exact h.runs.notLast _ (List.mem_map_of_mem hbook)
    have hbelow := Store.lt_followingNumber_watermark (·.run) (fun book => [book.run.id]) rfl
      (fun _ _ => rfl) (fun book => (Nat.zero_max book.run.id.number).symm) hruns
    exact h.runs.lower
      (List.forall_mem_map.mpr fun book hbook => hbelow book hbook _ (List.mem_singleton_self _))
  participations := h.participations.lower
    (Store.lt_followingNumber_watermark (·.participation) _ rfl (fun _ _ => rfl)
      (fun _ => congrArg _ List.map_map.symm) fun book hbook =>
        (h.participations.each book hbook).notLast)
  bids := h.bids.lower
    (Store.lt_followingNumber_watermark (·.bid) _ rfl (fun _ _ => rfl)
      (fun _ => congrArg _ List.map_map.symm) fun book hbook => (h.bids.each book hbook).notLast)
  items := h.items.lower
    (Store.lt_followingNumber_watermark (·.item) _ rfl (fun _ _ => rfl)
      (fun _ => congrArg _ List.map_map.symm) fun book hbook => (h.items.each book hbook).notLast)

end Cover

end Counters

/-! ## Desks -/

namespace Desk

variable {terms : Terms} {desk after : Desk} {turn : Turn}

/-- Turns one after the other. They can be taken under other terms once the desk is opened again. -/
def takeEach (desk : Desk) (steps : List (Terms × Turn)) : Desk :=
  steps.foldl (fun desk step => desk.take step.1 step.2) desk

def Turn.isResume : Turn → Bool
  | .resume _ => true
  | _ => false

/-- No counter runs over in these steps. One that ran out of 64 bits would start over at zero, but
unless the desk is opened again none falls. -/
def Lasts (desk : Desk) : List (Terms × Turn) → Prop
  | [] => True
  | (terms, turn) :: rest =>
    (turn.isResume = true ∨ desk.counters ≤ (desk.take terms turn).counters) ∧
      Lasts (desk.take terms turn) rest

def decideLasts (desk : Desk) : (steps : List (Terms × Turn)) → Decidable (desk.Lasts steps)
  | [] => .isTrue trivial
  | (terms, turn) :: rest =>
    have := decideLasts (desk.take terms turn) rest
    inferInstanceAs (Decidable ((_ ∨ _) ∧ Lasts (desk.take terms turn) rest))

instance (steps : List (Terms × Turn)) : Decidable (desk.Lasts steps) := decideLasts desk steps

theorem lasts_append {steps more : List (Terms × Turn)} :
    desk.Lasts (steps ++ more) ↔ desk.Lasts steps ∧ (desk.takeEach steps).Lasts more := by
  induction steps generalizing desk with
  | nil => exact (true_and _).symm.to_iff
  | cons step rest ih => exact (and_congr_right fun _ => ih).trans and_assoc.symm

theorem Took.cover (h : desk.Took terms turn after)
    (rises : turn.isResume = true ∨ desk.counters ≤ after.counters)
    (before : desk.counters.Cover desk.repository.store) :
    after.counters.Cover after.repository.store := by
  cases h with
  | created fresh stores counts =>
    rw [counts] at rises ⊢
    rw [stores]
    exact before.create _ _ _ _ (rises.resolve_left nofun)
  | handled finds outcome serves stores counts =>
    rw [counts] at rises ⊢
    rw [stores]
    exact before.handle finds outcome (rises.resolve_left nofun)
  | resumed stores counts =>
    rw [stores, counts]
    exact before.restart
  | kept stores serves counts =>
    rw [stores]
    rcases rises with hresume | rises
    · cases turn with
      | resume now =>
        rw [counts now rfl]
        exact before
      | _ => cases hresume
    · exact before.mono rises

theorem takeEach_unraced (unraced : desk.repository.IsUnraced) (steps : List (Terms × Turn)) :
    (desk.takeEach steps).repository.IsUnraced := by
  induction steps generalizing desk with
  | nil => exact unraced
  | cons step rest ih => exact ih (take_turns step.1 unraced step.2).1

theorem takeEach_forall_books {motive : OrderBook → Prop} (unraced : desk.repository.IsUnraced)
    (before : ∀ book ∈ desk.repository.store.books, motive book)
    (new : ∀ book, book.IsNew → motive book)
    (kept : ∀ limits book later, motive book → book.Changes limits later → motive later)
    (steps : List (Terms × Turn)) :
    ∀ book ∈ (desk.takeEach steps).repository.store.books, motive book := by
  induction steps generalizing desk with
  | nil => exact before
  | cons step rest ih =>
    obtain ⟨hunraced, hturns⟩ := take_turns step.1 unraced step.2
    exact ih hunraced (hturns.forall_books before new (kept _))

theorem takeEach_cover (unraced : desk.repository.IsUnraced)
    (before : desk.counters.Cover desk.repository.store) (steps : List (Terms × Turn))
    (lasts : desk.Lasts steps) :
    (desk.takeEach steps).counters.Cover (desk.takeEach steps).repository.store := by
  induction steps generalizing desk with
  | nil => exact before
  | cons step rest ih =>
    obtain ⟨terms, turn⟩ := step
    obtain ⟨hunraced, htook⟩ := take_took terms unraced turn
    exact ih hunraced (htook.cover lasts.1 before) lasts.2

end Desk

/-- Wherever runs are created, commands handled and desks opened again, every stored book is well
formed, and no two things in the store have the same identifier. -/
theorem store_well_formed {steps : List (Terms × Desk.Turn)} (lasts : Desk.opened.Lasts steps) :
    (Desk.opened.takeEach steps).repository.store.IsWellFormed :=
  (Desk.takeEach_cover (Repository.isUnraced_ofStore _) (.empty _) steps lasts).isWellFormed

namespace Desk

/-- The terms with a third member in the group. -/
def widerTerms : Terms :=
  { tripTerms with
    directory := { tripTerms.directory with members := (⟨1⟩, ⟨3⟩) :: tripTerms.directory.members } }

/-- The bid with the greatest number is retracted, the desk is opened again, and the number is given
to a bid in another run. -/
def restartedSteps : List (Terms × Turn) :=
  [(tripTerms, .create ⟨1⟩ ⟨1⟩ ⟨1⟩ (.ofSeconds 0)),
    (tripTerms, tripTurn 2 (.placeBid ⟨1⟩ (.ofInt 2) false none)),
    (tripTerms, tripTurn 1 (.placeBid ⟨1⟩ (.ofInt 4) false none)),
    (tripTerms, tripTurn 1 (.retractBid ⟨1⟩)),
    (widerTerms, .resume (.ofSeconds 1)),
    (widerTerms, .create ⟨1⟩ ⟨1⟩ ⟨3⟩ (.ofSeconds 1)),
    (widerTerms, .handle ⟨2⟩ ⟨⟨3⟩, .placeBid ⟨1⟩ (.ofInt 1) false none⟩ (.ofSeconds 1))]

end Desk

theorem store_well_formed_after_restart :
    Desk.opened.Lasts Desk.restartedSteps ∧
      (Desk.opened.takeEach Desk.restartedSteps).repository.store.books.map
        (fun book => (book.run.id.number, book.bids.map (·.id.number))) = [(1, [1]), (2, [2])] ∧
      (Desk.opened.takeEach Desk.restartedSteps).repository.store.IsWellFormed := by
  have hlasts : Desk.opened.Lasts Desk.restartedSteps := by decide +kernel
  exact ⟨hlasts, by decide +kernel, store_well_formed hlasts⟩

end BuyingClub
