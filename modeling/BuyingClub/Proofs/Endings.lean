import BuyingClub.Proofs.Journal

/-!
# The end of a run

Every command has a condition that a finished run does not meet, so such a run stays as it is stored
and nothing more is given out for it. Only a reply that says so ends a run.
-/

namespace BuyingClub

/-! ## Stages without a way on -/

theorem Stage.isTerminal_iff {stage : Stage} :
    stage.isTerminal = true ↔ stage = .completed ∨ stage = .cancelled := by
  cases stage <;> simp [isTerminal, next]

theorem Stage.isTerminal_of_isOpen {stage : Stage} (h : stage.isOpen = true) :
    stage.isTerminal = false := by
  cases stage <;> simp [isOpen, isTerminal, next] at h ⊢

namespace Draft

variable {limits : Limits} {d after : Draft} {user : UserId} {action : Action} {reply : Reply}

theorem Outcome.isLive (h : d.Outcome limits user action after reply) :
    d.stage.isTerminal = false := by
  cases h with
  | bidPlaced admits fits places moves => exact Stage.isTerminal_of_isOpen admits.isOpen
  | bidRetracted isOpen finds fits retracts moves => exact Stage.isTerminal_of_isOpen isOpen
  | readyToggled isActive finds moves => rw [isActive]; rfl
  | helperSet leads isLive finds => exact isLive
  | confirmed leads allowed => exact Stage.isTerminal_of_canMove allowed
  | shoppingStarted leads allowed drawsUp => exact Stage.isTerminal_of_canMove allowed
  | purchaseRecorded isShopping mayShop reads finds => rw [isShopping]; rfl
  | purchaseUndone isShopping mayShop finds wasBought => rw [isShopping]; rfl
  | shoppingBalanced leads allowed balanced handsOut => exact Stage.isTerminal_of_canMove allowed
  | shoppingUnbalanced leads isShopping unbalanced => rw [isShopping]; rfl
  | adjustingFinished leads isAdjusting balanced handsOut => rw [isAdjusting]; rfl
  | pickedUp isDistributing mayShop finds hasGoods => rw [isDistributing]; rfl
  | completed leads isDistributing isDone => rw [isDistributing]; rfl
  | cancelled leads allowed => exact Stage.isTerminal_of_canMove allowed

theorem Outcome.isFinal_eq (h : d.Outcome limits user action after reply) :
    reply.isFinal = after.stage.isTerminal := by
  have hlive := h.isLive
  cases h with
  | bidPlaced admits fits places moves =>
    subst moves
    rw [movedIf_stage, stage_bidPlaced admits places]
    split
    · rfl
    · exact hlive.symm
  | bidRetracted isOpen finds fits retracts moves =>
    obtain ⟨_, rfl⟩ := OrderBook.retractBid_eq_ok_iff.mp retracts
    subst moves
    rw [movedIf_stage]
    split
    · rfl
    · exact hlive.symm
  | readyToggled isActive finds moves =>
    subst moves
    rw [movedIf_stage]
    split
    · rfl
    · exact hlive.symm
  | helperSet leads isLive finds => exact hlive.symm
  | purchaseRecorded isShopping mayShop reads finds => exact hlive.symm
  | purchaseUndone isShopping mayShop finds wasBought => exact hlive.symm
  | pickedUp isDistributing mayShop finds hasGoods => exact hlive.symm
  | _ => rfl

end Draft

/-! ## Books that stay -/

def OrderBook.HasEnded (book : OrderBook) : Prop :=
  book.run.stage = .completed ∨ book.run.stage = .cancelled

namespace OrderBook

variable {limits : Limits} {book : OrderBook}

theorem HasEnded.not_outcome {counters : Counters} {now : Instant} {user : UserId} {action : Action}
    {d : Draft} {reply : Reply} (ended : book.HasEnded) :
    ¬ (Draft.ofBook book counters now).Outcome limits user action d reply := by
  intro houtcome
  have hlive : book.run.stage.isTerminal = false := houtcome.isLive
  rw [Stage.isTerminal_iff.mpr ended] at hlive
  cases hlive

end OrderBook

namespace Desk

variable {terms : Terms} {desk after : Desk} {turn : Turn} {run : RunId} {book : OrderBook}

/-- The book of a run and what was given out for it. -/
structure KeepsRun (desk : Desk) (run : RunId) (after : Desk) : Prop where
  find? : after.repository.store.find? run = desk.repository.store.find? run
  told : after.journal.filter (·.run = run) = desk.journal.filter (·.run = run)

theorem filter_journal_append {events : List Event} (other : ∀ e ∈ events, e.run ≠ run)
    (gives : after.journal = desk.journal ++ events) :
    after.journal.filter (·.run = run) = desk.journal.filter (·.run = run) := by
  have hnone : events.filter (·.run = run) = [] := by
    rw [List.filter_eq_nil_iff]
    intro e he
    simpa using other e he
  rw [gives, List.filter_append, hnone, List.append_nil]

theorem Took.keepsRun (h : desk.Took terms turn after)
    (finds : desk.repository.store.find? run = some book) (ended : book.HasEnded) :
    desk.KeepsRun run after := by
  cases h with
  | @created group store leader now _ fresh stores counts storeName gives =>
    have hrun : run ≠ ⟨desk.counters.run⟩ := by
      rintro rfl
      rw [fresh] at finds
      cases finds
    refine ⟨?_, filter_journal_append (fun e he => ?_) gives⟩
    · rw [stores]
      exact Store.find?_append_of_ne hrun
    · rw [List.mem_singleton.mp he]
      exact hrun.symm
  | @handled other command now found d reply _ hfinds outcome serves stores counts gives =>
    have hother : run ≠ other := by
      rintro rfl
      obtain rfl : found = book := Option.some.inj (hfinds.symm.trans finds)
      exact ended.not_outcome outcome
    have hid : found.run.id = other := Store.id_of_find? hfinds
    refine ⟨?_, filter_journal_append (fun e he => ?_) gives⟩
    · rw [stores]
      apply Store.find?_replace_of_ne
      rw [outcome.run_id]
      exact fun h => hother (h.trans hid)
    · rw [outcome.told] at he
      rw [run_of_mem_toldOf he, hid]
      exact hother.symm
  | resumed stores counts gives => exact ⟨by rw [stores], by rw [gives]⟩
  | kept stores serves counts gives => exact ⟨by rw [stores], by rw [gives]⟩

theorem takeEach_keepsRun (unraced : desk.repository.IsUnraced)
    (finds : desk.repository.store.find? run = some book) (ended : book.HasEnded)
    (steps : List (Terms × Turn)) : desk.KeepsRun run (desk.takeEach steps) := by
  induction steps generalizing desk with
  | nil => exact ⟨rfl, rfl⟩
  | cons step rest ih =>
    obtain ⟨terms, turn⟩ := step
    obtain ⟨hunraced, htook⟩ := take_took terms unraced turn
    have hkeeps := htook.keepsRun finds ended
    have hrest := ih hunraced (hkeeps.find?.trans finds)
    exact ⟨hrest.find?.trans hkeeps.find?, hrest.told.trans hkeeps.told⟩

theorem handle_of_hasEnded (unraced : desk.repository.IsUnraced)
    (finds : desk.repository.store.find? run = some book) (ended : book.HasEnded)
    (command : Command) (now : Instant) :
    ∃ why after, (handle terms run command now).on desk = (.error why, after) ∧
      after.repository.store = desk.repository.store ∧ after.journal = desk.journal := by
  rcases hhandle : (handle terms run command now).on desk with ⟨why | reply, after⟩
  · have hkeeps := handle_error unraced hhandle
    exact ⟨why, after, rfl, hkeeps.store, hkeeps.journal⟩
  · obtain ⟨d, houtcome, _⟩ := handle_ok_of_find? unraced finds hhandle
    exact absurd houtcome ended.not_outcome

end Desk

/-- In a run that was completed or cancelled, every command fails and leaves the store and the
journal. Whatever happens at the desk from then on, its book stays as it is, version and all, and no
event is given out for it. A command says that it ended the run just if it did. -/
theorem ended_run_frozen (steps : List (Terms × Desk.Turn)) :
    (∀ run book, (Desk.opened.takeEach steps).repository.store.find? run = some book →
        (book.run.stage = .completed ∨ book.run.stage = .cancelled) →
        (∀ terms command now, ∃ why after,
          (Desk.handle terms run command now).on (Desk.opened.takeEach steps) =
              (.error why, after) ∧
            after.repository.store = (Desk.opened.takeEach steps).repository.store ∧
            after.journal = (Desk.opened.takeEach steps).journal) ∧
        ∀ more,
          ((Desk.opened.takeEach steps).takeEach more).repository.store.find? run = some book ∧
            ((Desk.opened.takeEach steps).takeEach more).journal.filter (·.run = run) =
              (Desk.opened.takeEach steps).journal.filter (·.run = run)) ∧
      ∀ terms run command now reply after,
        (Desk.handle terms run command now).on (Desk.opened.takeEach steps) = (.ok reply, after) →
        ∃ later, after.repository.store.find? run = some later ∧
          (reply.isFinal = true ↔
            later.run.stage = .completed ∨ later.run.stage = .cancelled) := by
  have hunraced : (Desk.opened.takeEach steps).repository.IsUnraced :=
    Desk.takeEach_unraced (Repository.isUnraced_ofStore _) steps
  refine ⟨?_, ?_⟩
  · intro run book finds ended
    refine ⟨fun terms command now => Desk.handle_of_hasEnded hunraced finds ended command now,
      fun more => ?_⟩
    have hkeeps := Desk.takeEach_keepsRun hunraced finds ended more
    exact ⟨hkeeps.find?.trans finds, hkeeps.told⟩
  · intro terms run command now reply after hhandle
    obtain ⟨book, d, hhandled⟩ := Desk.handle_ok hunraced hhandle
    obtain ⟨d, houtcome, hstored⟩ := Desk.handle_ok_of_find? hunraced hhandled.finds hhandle
    refine ⟨d.book, hstored, ?_⟩
    rw [houtcome.isFinal_eq]
    exact Stage.isTerminal_iff

namespace Desk

/-- The trip of two, called off while they adjust. -/
def cancelledSteps : List (Terms × Turn) :=
  tripTurns.map (tripTerms, ·) ++ [(tripTerms, tripTurn 1 .cancel)]

end Desk

/-- The leader cannot cancel the trip twice, and a second trip leaves it alone. -/
theorem ended_run_frozen_after_cancel :
    ∃ book, (Desk.opened.takeEach Desk.cancelledSteps).repository.store.find? ⟨1⟩ = some book ∧
      book.run.stage = .cancelled ∧
      (∃ why after, (Desk.handle Desk.tripTerms ⟨1⟩ ⟨⟨1⟩, .cancel⟩ (.ofSeconds 60)).on
        (Desk.opened.takeEach Desk.cancelledSteps) = (.error why, after)) ∧
      ((Desk.opened.takeEach Desk.cancelledSteps).takeEach
        Desk.cancelledSteps).repository.store.find? ⟨1⟩ = some book := by
  have hbook : ((Desk.opened.takeEach Desk.cancelledSteps).repository.store.find? ⟨1⟩).any
      (·.run.stage = .cancelled) = true := by
    decide +kernel
  obtain ⟨book, finds, hcancelled⟩ := (Option.any_eq_true _ _).mp hbook
  have hstage : book.run.stage = .cancelled := of_decide_eq_true hcancelled
  obtain ⟨hfails, hstays⟩ := (ended_run_frozen Desk.cancelledSteps).1 ⟨1⟩ book finds (.inr hstage)
  obtain ⟨why, after, hhandle, _⟩ := hfails Desk.tripTerms ⟨⟨1⟩, .cancel⟩ (.ofSeconds 60)
  exact ⟨book, finds, hstage, ⟨why, after, hhandle⟩, (hstays Desk.cancelledSteps).1⟩

end BuyingClub
