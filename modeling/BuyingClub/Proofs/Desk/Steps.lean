import BuyingClub.Desk
import BuyingClub.Proofs.Command.Execution
import BuyingClub.Proofs.Store.Requests

/-!
# Steps at the desk

What loading, executing and committing give, as long as nobody else writes to the repository. A
step that fails leaves the store and the journal as they are.
-/

namespace BuyingClub

/-! ## Work in a chain -/

namespace Work

/-- What comes of work that is done at this desk. -/
def on {α : Type} (task : Work α) (desk : Desk) : Except Interruption α × Desk :=
  task.run.run desk

variable {α β : Type}

theorem on_get (desk : Desk) : (get : Work Desk).on desk = (.ok desk, desk) := rfl

theorem on_set (new desk : Desk) : (set new : Work PUnit).on desk = (.ok ⟨⟩, new) := rfl

theorem on_bind (task : Work α) (next : α → Work β) (desk : Desk) :
    (task >>= next).on desk =
      match task.on desk with
      | (.ok a, desk) => (next a).on desk
      | (.error why, desk) => (.error why, desk) := by
  simp only [on, ExceptT.run_bind, StateT.run_bind]
  rcases h : task.run.run desk with ⟨_ | _, _⟩ <;> rfl

theorem bind_on_eq_ok_iff {task : Work α} {next : α → Work β} {b : β} {desk after : Desk} :
    (task >>= next).on desk = (.ok b, after) ↔
      ∃ a between, task.on desk = (.ok a, between) ∧ (next a).on between = (.ok b, after) := by
  rw [on_bind]
  rcases task.on desk with ⟨why | a, between⟩
  · simp
  · constructor
    · exact fun h => ⟨a, between, rfl, h⟩
    · rintro ⟨_, _, ⟨⟩, h⟩
      exact h

theorem bind_on_eq_error_iff {task : Work α} {next : α → Work β} {why : Interruption}
    {desk after : Desk} :
    (task >>= next).on desk = (.error why, after) ↔
      task.on desk = (.error why, after) ∨
        ∃ a between, task.on desk = (.ok a, between) ∧
          (next a).on between = (.error why, after) := by
  rw [on_bind]
  rcases task.on desk with ⟨why' | a, between⟩
  · simp
  · constructor
    · exact fun h => .inr ⟨a, between, rfl, h⟩
    · rintro (⟨⟨⟩⟩ | ⟨_, _, ⟨⟩, h⟩)
      exact h

theorem on_attempt (ask : Repository → Except Breakdown α × Repository) (desk : Desk) :
    (Desk.attempt ask).on desk =
      match ask desk.repository with
      | (.ok a, repository) => (.ok (.ok a), { desk with repository })
      | (.error (.refused why), repository) => (.ok (.error why), { desk with repository })
      | (.error .crashed, repository) => (.error .crashed, { desk with repository }) := by
  rcases h : ask desk.repository with ⟨(why | _) | _, _⟩ <;>
    simp only [Desk.attempt, on_bind, on_get, on_set, h] <;> rfl

theorem on_request (ask : Repository → Except Breakdown α × Repository) (desk : Desk) :
    (Desk.request ask).on desk =
      match ask desk.repository with
      | (.ok a, repository) => (.ok a, { desk with repository })
      | (.error (.refused why), repository) =>
        (.error (.refused (.store why)), { desk with repository })
      | (.error .crashed, repository) => (.error .crashed, { desk with repository }) := by
  simp only [Desk.request, on_bind, on_attempt]
  rcases ask desk.repository with ⟨(why | _) | _, _⟩ <;> rfl

end Work

namespace Desk

variable {terms : Terms} {desk after : Desk} {run : RunId} {user : UserId} {command : Command}
  {now : Instant} {book : OrderBook} {d : Draft} {reply : Reply} {why : Interruption}

/-- The desk after work that stores nothing and gives no event out. -/
structure Keeps (desk after : Desk) : Prop where
  unraced : after.repository.IsUnraced
  store : after.repository.store = desk.repository.store
  journal : after.journal = desk.journal

theorem Keeps.refl (h : desk.repository.IsUnraced) : desk.Keeps desk := ⟨h, rfl, rfl⟩

theorem Keeps.trans {between : Desk} (h : desk.Keeps between) (h' : between.Keeps after) :
    desk.Keeps after :=
  ⟨h'.unraced, h'.store.trans h.store, h'.journal.trans h.journal⟩

/-! ## Loading -/

theorem load_ok (unraced : desk.repository.IsUnraced)
    (h : (load run now).on desk = (.ok book, after)) :
    desk.repository.store.find? run = some book ∧ desk.Keeps after ∧
      after.counters = desk.counters := by
  rw [load, Work.on_bind, Work.on_attempt] at h
  rcases ha : Repository.load run now desk.repository with ⟨(why | _) | found, repository⟩ <;>
    simp only [ha] at h
  · cases why <;> cases h
  · cases h
  · cases h
    obtain ⟨hunraced, hload⟩ := Repository.ask_ok unraced ha
    obtain ⟨found, hfound, heq⟩ := map_eq_ok_iff.mp hload
    obtain ⟨rfl, hstore⟩ := Prod.mk.inj heq
    exact ⟨Store.load_eq_ok_iff.mp hfound, ⟨hunraced, hstore.symm, rfl⟩, rfl⟩

theorem load_error (unraced : desk.repository.IsUnraced)
    (h : (load run now).on desk = (.error why, after)) : desk.Keeps after := by
  rw [load, Work.on_bind, Work.on_attempt] at h
  rcases ha : Repository.load run now desk.repository with ⟨(why | _) | found, repository⟩ <;>
    simp only [ha] at h
  · obtain ⟨hunraced, hstore⟩ := Repository.ask_error unraced ha
    cases why <;> cases h <;> exact ⟨hunraced, hstore, rfl⟩
  · obtain ⟨hunraced, hstore⟩ := Repository.ask_error unraced ha
    cases h
    exact ⟨hunraced, hstore, rfl⟩
  · cases h

theorem on_checkMember (group : GroupId) :
    (checkMember terms group user).on desk =
      if terms.directory.isMember group user then (.ok (), desk)
      else (.error (.refused (.forbidden (.notMember user group))), desk) := by
  unfold checkMember
  split <;> rfl

theorem loadFor_ok (unraced : desk.repository.IsUnraced)
    (h : (loadFor terms run user now).on desk = (.ok book, after)) :
    desk.repository.store.find? run = some book ∧
      terms.directory.isMember book.run.group user = true ∧ desk.Keeps after ∧
      after.counters = desk.counters := by
  obtain ⟨found, between, hload, h⟩ := Work.bind_on_eq_ok_iff.mp h
  obtain ⟨_, checked, hcheck, h⟩ := Work.bind_on_eq_ok_iff.mp h
  rw [on_checkMember] at hcheck
  split at hcheck
  · rename_i hmember
    cases hcheck
    cases h
    obtain ⟨hfound, hkeeps, hcounters⟩ := load_ok unraced hload
    exact ⟨hfound, hmember, hkeeps, hcounters⟩
  · cases hcheck

theorem loadFor_error (unraced : desk.repository.IsUnraced)
    (h : (loadFor terms run user now).on desk = (.error why, after)) : desk.Keeps after := by
  rcases Work.bind_on_eq_error_iff.mp h with h | ⟨found, between, hload, h⟩
  · exact load_error unraced h
  · obtain ⟨_, hkeeps, _⟩ := load_ok unraced hload
    rcases Work.bind_on_eq_error_iff.mp h with h | ⟨_, checked, _, h⟩
    · rw [on_checkMember] at h
      split at h <;> cases h
      exact hkeeps
    · cases h

/-! ## Executing -/

theorem execute_ok (h : (execute terms command book now).on desk = (.ok (d, reply), after)) :
    (Draft.ofBook book desk.counters now).Outcome terms.limits command.user command.action d reply ∧
      after = { desk with counters := d.counters } := by
  rw [execute, Work.on_bind, Work.on_get] at h
  rcases he : (Draft.ofBook book desk.counters now).execute terms.limits command with
    ⟨why | ⟨done, answer⟩, counters⟩ <;>
    simp only [he, Work.on_bind, Work.on_set] at h
  · cases h
  · cases h
    obtain ⟨houtcome, hcounters⟩ := Draft.execute_eq_ok_iff.mp he
    exact ⟨houtcome, by rw [hcounters]⟩

theorem execute_error (unraced : desk.repository.IsUnraced)
    (h : (execute terms command book now).on desk = (.error why, after)) : desk.Keeps after := by
  rw [execute, Work.on_bind, Work.on_get] at h
  rcases he : (Draft.ofBook book desk.counters now).execute terms.limits command with
    ⟨why | ⟨done, answer⟩, counters⟩ <;>
    simp only [he, Work.on_bind, Work.on_set] at h
  · cases h
    exact ⟨unraced, rfl, rfl⟩
  · cases h

end Desk

end BuyingClub
