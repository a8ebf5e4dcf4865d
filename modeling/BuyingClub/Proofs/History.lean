import BuyingClub.Proofs.Reachability

/-!
# Histories

A history starts with planning, makes moves of the table only, and has led to the stage the run is
in. Commands append to it and never rewrite it, each entry has the time of the command that made
it, and the version counts the commands that succeeded.
-/

namespace BuyingClub

/-! ## Time -/

namespace Instant

/-- A leap second comes after the second that it follows. -/
instance : LE Instant :=
  ⟨fun a b => a.seconds < b.seconds ∨ a.seconds = b.seconds ∧ a.isLeap ≤ b.isLeap⟩

instance (a b : Instant) : Decidable (a ≤ b) :=
  inferInstanceAs (Decidable (_ < (_ : Int) ∨ _ = (_ : Int) ∧ _ ≤ (_ : Bool)))

end Instant

/-! ## One run -/

namespace Run

variable {run : Run} {new : Stage}

/-- The history has a first entry, for planning, and leads by moves of the table to the stage of the
run. -/
structure HasSoundHistory (run : Run) : Prop where
  starts : run.history.head?.map (·.stage) = some .planning
  moves : run.history.IsChain fun old new => old.stage.canMove new.stage = true
  ends : run.history.getLast?.map (·.stage) = some run.stage

theorem HasSoundHistory.ne_nil (h : run.HasSoundHistory) : run.history ≠ [] := by
  intro hnil
  have hstarts := h.starts
  rw [hnil] at hstarts
  cases hstarts

theorem hasSoundHistory_start (id : RunId) (group : GroupId) (store : StoreId) (now : Instant) :
    (start id group store now).HasSoundHistory :=
  ⟨rfl, .singleton _, rfl⟩

theorem HasSoundHistory.enter (h : run.HasSoundHistory) (allowed : run.stage.canMove new = true)
    (now : Instant) : (run.enter new now).HasSoundHistory where
  starts := by
    rw [Run.enter, List.head?_append_of_ne_nil _ h.ne_nil]
    exact h.starts
  moves := by
    refine List.isChain_append.mpr ⟨h.moves, .singleton _, fun last hlast first hfirst => ?_⟩
    have hstage : last.stage = run.stage := by
      have hends := h.ends
      rw [hlast] at hends
      exact Option.some.inj hends
    obtain rfl : ⟨new, now⟩ = first := Option.some.inj hfirst
    rw [hstage]
    exact allowed
  ends := by simp [Run.enter]

/-- When the stages were entered. -/
def times (run : Run) : List Instant := run.history.map (·.enteredAt)

end Run

/-! ## Commands -/

namespace Draft.Follows

variable {d : Draft} {run : Run}

theorem hasSoundHistory (h : d.Follows run) (before : d.book.run.HasSoundHistory) :
    run.HasSoundHistory := by
  cases h with
  | stays => exact ⟨before.starts, before.moves, before.ends⟩
  | moves allowed =>
    have hsound := before.enter allowed d.now
    exact ⟨hsound.starts, hsound.moves, hsound.ends⟩

theorem history_prefix (h : d.Follows run) : d.book.run.history <+: run.history := by
  cases h with
  | stays => exact List.prefix_refl _
  | moves allowed => exact List.prefix_append ..

theorem times_sublist (h : d.Follows run) : run.times.Sublist (d.book.run.times ++ [d.now]) := by
  cases h with
  | stays => exact List.sublist_append_left ..
  | moves allowed => simp [Run.times, Run.enter]

end Draft.Follows

namespace OrderBook

variable {limits : Limits} {book after : OrderBook}

theorem Reachable.hasSoundHistory (h : book.Reachable limits) : book.run.HasSoundHistory := by
  refine h.induct (motive := fun book => book.run.HasSoundHistory) ?_ ?_
  · rintro book ⟨id, group, store, leader, participation, now, rfl⟩
    exact Run.hasSoundHistory_start ..
  · intro book counters now user action d reply hsound houtcome
    exact houtcome.follows.hasSoundHistory hsound

theorem Changes.history_prefix (h : book.Changes limits after) :
    book.run.history <+: after.run.history := by
  obtain ⟨counters, now, user, action, d, reply, houtcome, rfl⟩ := h
  exact houtcome.follows.history_prefix

theorem history_prefix_of_changes (h : Relation.ReflTransGen (Changes limits) book after) :
    book.run.history <+: after.run.history := by
  induction h with
  | refl => exact List.prefix_refl _
  | tail _ hchanges ih => exact ih.trans hchanges.history_prefix

end OrderBook

/-! ## Versions -/

/-- The version of a run; none counts as zero. -/
def Store.versionOf (store : Store) (run : RunId) : Nat :=
  ((store.find? run).map (·.run.version)).getD 0

theorem Store.versionOf_of_find? {store : Store} {run : RunId} {book : OrderBook}
    (h : store.find? run = some book) : store.versionOf run = book.run.version := by
  rw [versionOf, h]
  rfl

theorem Store.versionOf_of_find?_eq_none {store : Store} {run : RunId}
    (h : store.find? run = none) : store.versionOf run = 0 := by
  rw [versionOf, h]
  rfl

namespace Desk

variable {terms : Terms} {desk after : Desk} {turn : Turn} {run : RunId} {book : OrderBook}

/-- The runs for which commands succeed in these turns, one after the other. -/
def served (terms : Terms) (desk : Desk) : List Turn → List RunId
  | [] => []
  | turn :: rest => (desk.served? terms turn).toList ++ served terms (desk.take terms turn) rest

theorem Took.versionOf (h : desk.Took terms turn after) (run : RunId) :
    after.repository.store.versionOf run =
      desk.repository.store.versionOf run + (desk.served? terms turn).toList.count run := by
  cases h with
  | @created group store leader now _ fresh stores counts =>
    rw [stores]
    let new := newBook desk.counters group store leader now
    by_cases hrun : run = new.run.id
    · subst hrun
      have hnone : desk.repository.store.versionOf new.run.id = 0 :=
        Store.versionOf_of_find?_eq_none fresh
      rw [Store.versionOf_of_find? (Store.find?_append_self fresh), hnone]
      rfl
    · rw [Store.versionOf, Store.find?_append_of_ne hrun]
      rfl
  | @handled id command now book d reply _ finds outcome serves stores counts =>
    rw [stores, serves]
    have hid : d.book.run.id = id := outcome.run_id.trans (Store.id_of_find? finds)
    subst hid
    by_cases hrun : run = d.book.run.id
    · subst hrun
      rw [Store.versionOf_of_find? (Store.find?_replace_self finds), Store.versionOf_of_find? finds,
        outcome.version]
      simp [Draft.ofBook]
    · rw [Store.versionOf, Store.find?_replace_of_ne hrun]
      simp [Store.versionOf, Ne.symm hrun]
  | resumed stores counts =>
    rw [stores]
    rfl
  | kept stores serves counts =>
    rw [stores, serves]
    rfl

theorem takeAll_versionOf (unraced : desk.repository.IsUnraced) (turns : List Turn)
    (run : RunId) :
    (desk.takeAll terms turns).repository.store.versionOf run =
      desk.repository.store.versionOf run + (desk.served terms turns).count run := by
  induction turns generalizing desk with
  | nil => rfl
  | cons turn rest ih =>
    obtain ⟨hunraced, htook⟩ := take_took terms unraced turn
    calc (desk.takeAll terms (turn :: rest)).repository.store.versionOf run
        = (desk.take terms turn).repository.store.versionOf run +
            ((desk.take terms turn).served terms rest).count run := ih hunraced
      _ = desk.repository.store.versionOf run + (desk.served terms (turn :: rest)).count run := by
        rw [htook.versionOf, served, List.count_append]
        omega

/-! ## The clock -/

/-- What the clock shows in a turn that reads it. -/
def Turn.time? : Turn → Option Instant
  | .create _ _ _ now => some now
  | .handle _ _ now => some now
  | _ => none

theorem Took.times {later : List Instant} (h : desk.Took terms turn after)
    (clock : (turn.time?.toList ++ later).Pairwise (· ≤ ·))
    (before : ∀ book ∈ desk.repository.store.books,
      (book.run.times ++ (turn.time?.toList ++ later)).Pairwise (· ≤ ·)) :
    ∀ book ∈ after.repository.store.books, (book.run.times ++ later).Pairwise (· ≤ ·) := by
  have hkept : ∀ book ∈ desk.repository.store.books,
      (book.run.times ++ later).Pairwise (· ≤ ·) := fun book hbook =>
    (before book hbook).sublist ((List.sublist_append_right ..).append_left _)
  intro book hbook
  cases h with
  | created fresh stores counts =>
    rw [stores] at hbook
    rcases List.mem_append.mp hbook with hbook | hbook
    · exact hkept book hbook
    · obtain rfl := List.mem_singleton.mp hbook
      exact clock
  | handled finds outcome serves stores counts =>
    rw [stores] at hbook
    rcases Store.mem_replace hbook with hbook | rfl
    · exact hkept book hbook
    · have hbefore := before _ (Store.mem_of_find? finds)
      rw [← List.append_assoc] at hbefore
      exact hbefore.sublist (outcome.follows.times_sublist.append_right _)
  | resumed stores counts =>
    rw [stores] at hbook
    exact hkept book hbook
  | kept stores serves counts =>
    rw [stores] at hbook
    exact hkept book hbook

theorem takeAll_times (unraced : desk.repository.IsUnraced) (turns : List Turn)
    (clock : (turns.filterMap Turn.time?).Pairwise (· ≤ ·))
    (before : ∀ book ∈ desk.repository.store.books,
      (book.run.times ++ turns.filterMap Turn.time?).Pairwise (· ≤ ·)) :
    ∀ book ∈ (desk.takeAll terms turns).repository.store.books,
      book.run.times.Pairwise (· ≤ ·) := by
  induction turns generalizing desk with
  | nil =>
    intro book hbook
    simpa using before book hbook
  | cons turn rest ih =>
    have hcons : (turn :: rest).filterMap Turn.time? =
        turn.time?.toList ++ rest.filterMap Turn.time? := by
      rw [List.filterMap_cons]
      cases turn.time? <;> rfl
    rw [hcons] at clock before
    obtain ⟨hunraced, htook⟩ := take_took terms unraced turn
    exact ih hunraced (clock.sublist (List.sublist_append_right ..)) (htook.times clock before)

end Desk

/-! ## The whole life of a run -/

/-- Wherever a desk has got to, the history of a stored run tells how it got to its stage. It stays
at the front of every later history, goes by the clock if the clock never goes back, and the
version is the number of commands that succeeded for the run. -/
theorem lifecycle_recorded {terms : Terms} {turns : List Desk.Turn} {run : RunId}
    {book : OrderBook}
    (finds : (Desk.opened.takeAll terms turns).repository.store.find? run = some book) :
    book.run.HasSoundHistory ∧
      (∀ more, ∃ later,
        (Desk.opened.takeAll terms (turns ++ more)).repository.store.find? run = some later ∧
          book.run.history <+: later.run.history) ∧
      ((turns.filterMap Desk.Turn.time?).Pairwise (· ≤ ·) →
        (book.run.history.map (·.enteredAt)).Pairwise (· ≤ ·)) ∧
      book.run.version = (Desk.opened.served terms turns).count run := by
  have hunraced : Desk.opened.repository.IsUnraced := Repository.isUnraced_ofStore _
  have hreachable : (Desk.opened.takeAll terms turns).Reachable terms := ⟨turns, rfl⟩
  refine ⟨?_, ?_, ?_, ?_⟩
  · exact (hreachable.book (Store.mem_of_find? finds)).hasSoundHistory
  · intro more
    obtain ⟨later, hlater, hchanges⟩ := Desk.takeAll_find? hreachable.isUnraced finds more
    refine ⟨later, ?_, OrderBook.history_prefix_of_changes hchanges⟩
    rw [Desk.takeAll, List.foldl_append]
    exact hlater
  · intro clock
    exact Desk.takeAll_times hunraced turns clock nofun book (Store.mem_of_find? finds)
  · have hversion := @Desk.takeAll_versionOf terms _ hunraced turns run
    rw [Store.versionOf_of_find? finds, Store.versionOf_of_find?_eq_none rfl] at hversion
    simpa using hversion

/-- The trip of two has gone through five stages with six commands. -/
theorem lifecycle_recorded_in_trip :
    ∃ book : OrderBook,
      (Desk.opened.takeAll Desk.tripTerms Desk.tripTurns).repository.store.find? ⟨1⟩ = some book ∧
      book.run.HasSoundHistory ∧ (book.run.history.map (·.enteredAt)).Pairwise (· ≤ ·) ∧
      book.run.version = 6 := by
  have hfound : ((Desk.opened.takeAll Desk.tripTerms Desk.tripTurns).repository.store.find?
      ⟨1⟩).isSome = true := by
    decide +kernel
  have hserved : (Desk.opened.served Desk.tripTerms Desk.tripTurns).count ⟨1⟩ = 6 := by
    decide +kernel
  obtain ⟨book, finds⟩ := Option.isSome_iff_exists.mp hfound
  obtain ⟨hsound, _, htimes, hversion⟩ := lifecycle_recorded finds
  exact ⟨book, finds, hsound, htimes (by decide +kernel), hversion.trans hserved⟩

end BuyingClub
