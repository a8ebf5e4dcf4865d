import BuyingClub.Proofs.Command.Frame
import BuyingClub.Proofs.Desk.Steps

/-!
# Handling a command

A command that is answered stores its draft, and one that is not stores nothing: `handle_ok` and
`handle_error`.
-/

namespace BuyingClub

/-- What becomes of a store when a draft is committed: a touched draft replaces the book it was
made of, and of another one only the move is made, in whatever book is stored by then. -/
inductive Draft.IsStored (d : Draft) (store : Store) : Store → Prop
  | whole {current : OrderBook} (touched : d.isTouched = true)
      (finds : store.find? d.book.run.id = some current)
      (version : current.run.version = d.loadedVersion)
      (stage : current.run.stage = d.loadedStage) :
      IsStored d store (store.replace { d.book with run.version := d.loadedVersion + 1 })
  | move {current : OrderBook} (untouched : d.isTouched = false) (moves : d.stage ≠ d.loadedStage)
      (finds : store.find? d.book.run.id = some current)
      (stage : current.run.stage = d.loadedStage) :
      IsStored d store (store.replace { current with
        run := { current.run.enter d.stage d.now with version := current.run.version + 1 } })
  | nothing (untouched : d.isTouched = false) (stays : d.stage = d.loadedStage) :
      IsStored d store store

namespace Desk

variable {terms : Terms} {desk after : Desk} {run : RunId} {command : Command} {now : Instant}
  {book : OrderBook} {d : Draft} {reply : Reply} {why : Interruption}

/-! ## Requests -/

theorem request_ok {α : Type} {ask : Repository → Except Breakdown α × Repository} {a : α}
    (h : (request ask).on desk = (.ok a, after)) :
    ∃ repository, ask desk.repository = (.ok a, repository) ∧ after = { desk with repository } := by
  rw [Work.on_request] at h
  rcases ha : ask desk.repository with ⟨(why | _) | b, repository⟩ <;> rw [ha] at h <;> cases h
  exact ⟨repository, rfl, rfl⟩

theorem request_error {α : Type} {method : Method} {run : Option RunId}
    {what : Store → Except StoreRefusal (α × Store)} (unraced : desk.repository.IsUnraced)
    (h : (request (Repository.ask method run now what)).on desk = (.error why, after)) :
    desk.Keeps after := by
  rw [Work.on_request] at h
  rcases ha : Repository.ask method run now what desk.repository with
    ⟨(why | _) | b, repository⟩ <;> rw [ha] at h
  · obtain ⟨hunraced, hstore⟩ := Repository.ask_error unraced ha
    cases h
    exact ⟨hunraced, hstore, rfl⟩
  · obtain ⟨hunraced, hstore⟩ := Repository.ask_error unraced ha
    cases h
    exact ⟨hunraced, hstore, rfl⟩
  · cases h

theorem on_discard {α : Type} (task : Work α) :
    (discard task).on desk =
      match task.on desk with
      | (.ok _, desk) => (.ok (), desk)
      | (.error why, desk) => (.error why, desk) := by
  have hdiscard : (discard task : Work Unit) = task >>= fun _ => pure () := by
    simp only [discard, Functor.discard, Functor.mapConst, Function.comp_def]
    rfl
  rw [hdiscard, Work.on_bind]
  rfl

/-! ## Committing -/

theorem commit_ok (unraced : desk.repository.IsUnraced)
    (h : (commit d).on desk = (.ok (), after)) :
    d.IsStored desk.repository.store after.repository.store ∧ after.repository.IsUnraced ∧
      after.counters = desk.counters ∧ after.journal = desk.journal := by
  unfold commit at h
  split at h
  · rename_i touched
    obtain ⟨repository, ha, rfl⟩ := request_ok h
    obtain ⟨hunraced, hcommit⟩ := Repository.ask_ok unraced ha
    obtain ⟨store, hcommit, heq⟩ := map_eq_ok_iff.mp hcommit
    obtain ⟨current, finds, version, stage, rfl⟩ := Store.commit_eq_ok_iff.mp hcommit
    have hstore : _ = repository.store := congrArg Prod.snd heq
    refine ⟨?_, hunraced, rfl, rfl⟩
    rw [← hstore]
    exact .whole touched finds version stage
  · rename_i untouched
    rw [Bool.not_eq_true] at untouched
    split at h
    · rename_i moves
      rw [on_discard] at h
      split at h <;> cases h
      rename_i hr
      obtain ⟨repository, ha, rfl⟩ := request_ok hr
      obtain ⟨hunraced, hmove⟩ := Repository.ask_ok unraced ha
      obtain ⟨current, finds, stage, rfl, hstore⟩ := Store.moveStage_eq_ok_iff.mp hmove
      refine ⟨?_, hunraced, rfl, rfl⟩
      rw [hstore]
      exact .move untouched moves finds stage
    · rename_i stays
      cases h
      exact ⟨.nothing untouched (Decidable.not_not.mp stays), unraced, rfl, rfl⟩

theorem commit_error (unraced : desk.repository.IsUnraced)
    (h : (commit d).on desk = (.error why, after)) : desk.Keeps after := by
  unfold commit at h
  split at h
  · exact request_error unraced h
  · split at h
    · rw [on_discard] at h
      split at h <;> cases h
      rename_i hr
      exact request_error unraced hr
    · cases h

/-! ## From loading to publishing -/

theorem handle_eq_ok_iff :
    (handle terms run command now).on desk = (.ok reply, after) ↔
      ∃ book loaded d executed committed,
        (loadFor terms run command.user now).on desk = (.ok book, loaded) ∧
          (execute terms command book now).on loaded = (.ok (d, reply), executed) ∧
          (commit d).on executed = (.ok (), committed) ∧
          (publish terms book.run.store d.events).on committed = (.ok (), after) := by
  unfold handle
  constructor
  · intro h
    obtain ⟨book, loaded, hload, h⟩ := Work.bind_on_eq_ok_iff.mp h
    obtain ⟨⟨d, answer⟩, executed, hexecute, h⟩ := Work.bind_on_eq_ok_iff.mp h
    obtain ⟨_, committed, hcommit, h⟩ := Work.bind_on_eq_ok_iff.mp h
    obtain ⟨_, published, hpublish, h⟩ := Work.bind_on_eq_ok_iff.mp h
    cases h
    exact ⟨book, loaded, d, executed, committed, hload, hexecute, hcommit, hpublish⟩
  · rintro ⟨book, loaded, d, executed, committed, hload, hexecute, hcommit, hpublish⟩
    refine Work.bind_on_eq_ok_iff.mpr ⟨book, loaded, hload, ?_⟩
    refine Work.bind_on_eq_ok_iff.mpr ⟨(d, reply), executed, hexecute, ?_⟩
    refine Work.bind_on_eq_ok_iff.mpr ⟨(), committed, hcommit, ?_⟩
    exact Work.bind_on_eq_ok_iff.mpr ⟨(), after, hpublish, rfl⟩

theorem store_of_isStored {store after : Store} {limits : Limits} {user : UserId} {action : Action}
    {counters : Counters} (finds : store.find? book.run.id = some book)
    (outcome : (Draft.ofBook book counters now).Outcome limits user action d reply)
    (h : d.IsStored store after) : after = store.replace d.book := by
  have hid : d.book.run.id = book.run.id := outcome.run_id
  cases h with
  | whole touched _ version stage =>
    have hversion : d.book.run.version = d.loadedVersion + 1 := by
      rw [outcome.version, outcome.loaded.1]
    rw [← hversion]
  | move untouched moves hfinds stage =>
    obtain ⟨new, allowed, rfl⟩ := outcome.eq_moved_of_isTouched_eq_false untouched
    rw [hid, finds] at hfinds
    cases hfinds
    rfl
  | nothing untouched stays =>
    obtain ⟨new, allowed, rfl⟩ := outcome.eq_moved_of_isTouched_eq_false untouched
    exact absurd stays (Stage.ne_of_canMove allowed)

/-- What comes of a command that is answered, which made this draft of this book. -/
structure Handled (terms : Terms) (run : RunId) (command : Command) (now : Instant) (reply : Reply)
    (desk after : Desk) (book : OrderBook) (d : Draft) : Prop where
  finds : desk.repository.store.find? run = some book
  outcome : (Draft.ofBook book desk.counters now).Outcome terms.limits command.user command.action d
    reply
  stores : after.repository.store = desk.repository.store.replace d.book
  unraced : after.repository.IsUnraced
  counts : after.counters = d.counters
  isMember : terms.directory.isMember book.run.group command.user = true
  gives : after.journal = desk.journal ++
    d.events.map (·.nameStore (terms.directory.stores.find? book.run.store))

theorem handle_ok (unraced : desk.repository.IsUnraced)
    (h : (handle terms run command now).on desk = (.ok reply, after)) :
    ∃ book d, Handled terms run command now reply desk after book d := by
  obtain ⟨book, loaded, d, executed, committed, hload, hexecute, hcommit, hpublish⟩ :=
    handle_eq_ok_iff.mp h
  obtain ⟨finds, isMember, hkeeps, hcounters⟩ := loadFor_ok unraced hload
  obtain ⟨outcome, rfl⟩ := execute_ok hexecute
  have hexecuted : desk.Keeps { loaded with counters := d.counters } :=
    hkeeps.trans ⟨hkeeps.unraced, rfl, rfl⟩
  obtain ⟨hstored, hunraced, hcommitted, hjournal⟩ := commit_ok hexecuted.unraced hcommit
  cases hpublish
  rw [hcounters] at outcome
  have hstored : d.IsStored desk.repository.store committed.repository.store := by
    rw [← hexecuted.store]
    exact hstored
  have hid := Store.id_of_find? finds
  exact ⟨book, d, {
    finds
    outcome
    stores := store_of_isStored (by rw [hid]; exact finds) outcome hstored
    unraced := hunraced
    counts := hcommitted
    isMember
    gives := by rw [← hexecuted.journal, ← hjournal] }⟩

theorem handle_ok_of_find? (unraced : desk.repository.IsUnraced)
    (finds : desk.repository.store.find? run = some book)
    (h : (handle terms run command now).on desk = (.ok reply, after)) :
    ∃ d, (Draft.ofBook book desk.counters now).Outcome terms.limits command.user command.action d
        reply ∧
      after.repository.store.find? run = some d.book := by
  obtain ⟨found, d, hfound, houtcome, hstore, _⟩ := handle_ok unraced h
  obtain rfl : found = book := Option.some.inj (hfound.symm.trans finds)
  have hid : d.book.run.id = run := houtcome.run_id.trans (Store.id_of_find? finds)
  have hstored : desk.repository.store.find? d.book.run.id = some found := by
    rw [hid]
    exact finds
  refine ⟨d, houtcome, ?_⟩
  rw [hstore, ← hid]
  exact Store.find?_replace_self hstored

theorem handle_error (unraced : desk.repository.IsUnraced)
    (h : (handle terms run command now).on desk = (.error why, after)) : desk.Keeps after := by
  unfold handle at h
  rcases Work.bind_on_eq_error_iff.mp h with h | ⟨book, loaded, hload, h⟩
  · exact loadFor_error unraced h
  obtain ⟨_, _, hloaded, _⟩ := loadFor_ok unraced hload
  rcases Work.bind_on_eq_error_iff.mp h with h | ⟨⟨d, answer⟩, executed, hexecute, h⟩
  · exact hloaded.trans (execute_error hloaded.unraced h)
  obtain ⟨_, rfl⟩ := execute_ok hexecute
  have hexecuted : desk.Keeps { loaded with counters := d.counters } :=
    hloaded.trans ⟨hloaded.unraced, rfl, rfl⟩
  rcases Work.bind_on_eq_error_iff.mp h with h | ⟨_, committed, _, h⟩
  · exact hexecuted.trans (commit_error hexecuted.unraced h)
  rcases Work.bind_on_eq_error_iff.mp h with h | ⟨_, published, _, h⟩
  · cases h
  · cases h

/-! ## Where nothing can happen -/

theorem loadFor_ofStore (store : Store) (counters : Counters) (journal : List Event)
    (user : UserId) :
    (loadFor terms run user now).on ⟨.ofStore store, counters, journal⟩ =
      (match store.find? run with
        | none => .error (.refused (.missing (.run run)))
        | some book =>
          if terms.directory.isMember book.run.group user then .ok book
          else .error (.refused (.forbidden (.notMember user book.run.group))),
      ⟨.ofStore store, counters, journal⟩) := by
  rw [loadFor, Work.on_bind, load, Work.on_bind, Work.on_attempt]
  cases finds : store.find? run with
  | none =>
    have hload : Repository.load run now (.ofStore store) =
        (.error (.refused (.unknown run)), .ofStore store) := by
      simp [Repository.load, Repository.ask, Repository.ask.answer, Repository.takeEffect,
        Repository.ofStore, Store.load, finds, Except.map]
    simp only [hload]
    rfl
  | some book =>
    have hload : Repository.load run now (.ofStore store) = (.ok book, .ofStore store) := by
      refine Repository.ask_ofStore ?_
      rw [Store.load_eq_ok_iff.mpr finds]
      rfl
    simp only [hload]
    show ((checkMember terms book.run.group user >>= fun _ => pure book : Work OrderBook).on _) = _
    rw [Work.on_bind, on_checkMember]
    cases terms.directory.isMember book.run.group user <;> rfl

theorem commit_ofStore {store after : Store} (counters : Counters) (journal : List Event)
    (h : d.IsStored store after) :
    (commit d).on ⟨.ofStore store, counters, journal⟩ =
      (.ok (), ⟨.ofStore after, counters, journal⟩) := by
  unfold commit
  cases h with
  | whole touched finds version stage =>
    have hcommit : Repository.commit d.book d.loadedVersion d.loadedStage d.now (.ofStore store) =
        (.ok (), .ofStore (store.replace { d.book with run.version := d.loadedVersion + 1 })) := by
      refine Repository.ask_ofStore ?_
      rw [Store.commit_eq_ok_iff.mpr ⟨_, finds, version, stage, rfl⟩]
      rfl
    rw [if_pos touched, Work.on_request]
    simp only [hcommit]
  | @move current untouched moves finds stage =>
    have hmove : Repository.moveStage d.book.run.id d.loadedStage d.stage d.now (.ofStore store) =
        (.ok { current.run.enter d.stage d.now with version := current.run.version + 1 },
          .ofStore (store.replace { current with
            run := { current.run.enter d.stage d.now with
              version := current.run.version + 1 } })) :=
      Repository.ask_ofStore (Store.moveStage_eq_ok_iff.mpr ⟨_, finds, stage, rfl, rfl⟩)
    rw [if_neg (by rw [untouched]; exact Bool.false_ne_true), if_pos moves, on_discard,
      Work.on_request]
    simp only [hmove]
  | nothing untouched stays =>
    rw [if_neg (by rw [untouched]; exact Bool.false_ne_true), if_neg (Decidable.not_not.mpr stays)]
    rfl

theorem isStored_of_outcome {store : Store} {limits : Limits} {user : UserId} {action : Action}
    {counters : Counters} (finds : store.find? book.run.id = some book)
    (outcome : (Draft.ofBook book counters now).Outcome limits user action d reply) :
    d.IsStored store (store.replace d.book) := by
  obtain ⟨hversion, hstage⟩ := outcome.loaded
  have hfinds : store.find? d.book.run.id = some book := by
    rw [outcome.run_id]
    exact finds
  cases touched : d.isTouched with
  | true =>
    have hbook : d.book = { d.book with run.version := d.loadedVersion + 1 } := by
      rw [hversion, ← outcome.version]
    rw [hbook]
    exact .whole touched hfinds hversion.symm hstage.symm
  | false =>
    obtain ⟨new, allowed, rfl⟩ := outcome.eq_moved_of_isTouched_eq_false touched
    exact .move touched (Stage.ne_of_canMove allowed) hfinds rfl

theorem on_handle_ofStore (store : Store) (counters : Counters) (journal : List Event) :
    (handle terms run command now).on ⟨.ofStore store, counters, journal⟩ =
      match store.find? run with
      | none => (.error (.refused (.missing (.run run))), ⟨.ofStore store, counters, journal⟩)
      | some book =>
        if terms.directory.isMember book.run.group command.user then
          match (Draft.ofBook book counters now).execute terms.limits command with
          | (.error why, drawn) => (.error (.refused why), ⟨.ofStore store, drawn, journal⟩)
          | (.ok (d, reply), drawn) =>
            (.ok reply, ⟨.ofStore (store.replace d.book), drawn, journal ++
              d.events.map (·.nameStore (terms.directory.stores.find? book.run.store))⟩)
        else
          (.error (.refused (.forbidden (.notMember command.user book.run.group))),
            ⟨.ofStore store, counters, journal⟩) := by
  have hload : (loadFor terms run command.user now).on ⟨.ofStore store, counters, journal⟩ = _ :=
    loadFor_ofStore store counters journal command.user
  cases finds : store.find? run with
  | none =>
    rw [finds] at hload
    exact Work.bind_on_eq_error_iff.mpr (.inl hload)
  | some book =>
    have hid := Store.id_of_find? finds
    rw [finds] at hload
    cases isMember : terms.directory.isMember book.run.group command.user with
    | false =>
      simp only [isMember, Bool.false_eq_true, if_false] at hload ⊢
      exact Work.bind_on_eq_error_iff.mpr (.inl hload)
    | true =>
      simp only [isMember, if_true] at hload ⊢
      rcases hexecute : (Draft.ofBook book counters now).execute terms.limits command with
        ⟨why | ⟨d, reply⟩, drawn⟩
      · have hrefuses : (execute terms command book now).on ⟨.ofStore store, counters, journal⟩ =
            (.error (.refused why), ⟨.ofStore store, drawn, journal⟩) := by
          simp only [execute, Work.on_bind, Work.on_get, hexecute, Work.on_set]
          rfl
        exact Work.bind_on_eq_error_iff.mpr
          (.inr ⟨book, _, hload, Work.bind_on_eq_error_iff.mpr (.inl hrefuses)⟩)
      · have hdoes : (execute terms command book now).on ⟨.ofStore store, counters, journal⟩ =
            (.ok (d, reply), ⟨.ofStore store, drawn, journal⟩) := by
          simp only [execute, Work.on_bind, Work.on_get, hexecute, Work.on_set]
          rfl
        have outcome := (Draft.execute_eq_ok_iff.mp hexecute).1
        have hcommit := commit_ofStore drawn journal
          (isStored_of_outcome (by rw [hid]; exact finds) outcome)
        exact handle_eq_ok_iff.mpr ⟨book, _, d, _, _, hload, hdoes, hcommit, rfl⟩

theorem handle_ofStore {store : Store} {counters : Counters} (journal : List Event)
    (finds : store.find? run = some book)
    (isMember : terms.directory.isMember book.run.group command.user = true)
    (outcome : (Draft.ofBook book counters now).Outcome terms.limits command.user command.action d
      reply) :
    ∃ after, (handle terms run command now).on ⟨.ofStore store, counters, journal⟩ =
      (.ok reply, after) ∧ after.repository = .ofStore (store.replace d.book) := by
  have hexecute : (Draft.ofBook book counters now).execute terms.limits command =
      (.ok (d, reply), d.counters) := Draft.execute_eq_ok_iff.mpr ⟨outcome, rfl⟩
  rw [on_handle_ofStore, finds]
  simp only [isMember, if_true, hexecute]
  exact ⟨_, rfl, rfl⟩

theorem handle_refused_ofStore {store : Store} {counters counters' : Counters} {refusal : Refusal}
    (journal : List Event) (finds : store.find? run = some book)
    (isMember : terms.directory.isMember book.run.group command.user = true)
    (refuses : (Draft.ofBook book counters now).execute terms.limits command =
      (.error refusal, counters')) :
    ∃ after, (handle terms run command now).on ⟨.ofStore store, counters, journal⟩ =
      (.error (.refused refusal), after) := by
  rw [on_handle_ofStore, finds]
  simp only [isMember, if_true, refuses]
  exact ⟨_, rfl⟩

end Desk

end BuyingClub
