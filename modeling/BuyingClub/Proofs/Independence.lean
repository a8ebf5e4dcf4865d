import BuyingClub.Proofs.Command.Renumbering
import BuyingClub.Proofs.Durability
import BuyingClub.Proofs.Pickup

/-!
# Runs do not depend on each other

All runs draw from the same counters and lie in the same store. Still, two commands for two runs can
be handled in either order: the numbers of what they enter are all that tells the orders apart.
-/

namespace BuyingClub

/-! ## Numbers that stay -/

section Fixes

variable {ρ : Renumbering} {book after : OrderBook}

theorem Counters.Cover.fixes {counters : Counters} {store : Store} (h : counters.Cover store)
    (hbook : book ∈ store.books) (later : Counters) :
    (Renumbering.shift counters later).Fixes book where
  participations _ hp :=
    shift_of_lt ((h.participations.each book hbook).below _ (List.mem_map_of_mem hp))
  bids _ hb := shift_of_lt ((h.bids.each book hbook).below _ (List.mem_map_of_mem hb))
  bidders b hb :=
    shift_of_lt ((h.participations.each book hbook).below _ ((h.tidy book hbook).bidders b hb))
  items _ hitem := shift_of_lt ((h.items.each book hbook).below _ (List.mem_map_of_mem hitem))

theorem Reply.AgreesWith.renumber {user : UserId} {reply : Reply}
    (h : reply.AgreesWith user book after) (fixes : ρ.Fixes book) (fixes' : ρ.Fixes after) :
    reply.renumber ρ = reply := by
  cases reply with
  | bidPlaced bid isNew stage =>
    have hbid := fixes'.renumber_bid (List.mem_of_find?_eq_some h.1)
    exact congrArg (Reply.bidPlaced · isNew stage) hbid
  | bidRetracted bid stage =>
    have hbid := fixes.renumber_bid (List.mem_of_find?_eq_some h.1)
    exact congrArg (Reply.bidRetracted · stage) hbid
  | helperSet p =>
    exact congrArg Reply.helperSet (fixes'.renumber_participation (List.mem_of_find?_eq_some h))
  | shoppingStarted items =>
    have hitems : items = after.items := h
    subst hitems
    exact congrArg Reply.shoppingStarted (congrArg OrderBook.items fixes'.renumber)
  | purchaseRecorded item =>
    exact congrArg Reply.purchaseRecorded (fixes'.renumber_item (List.mem_of_find?_eq_some h))
  | purchaseUndone item =>
    exact congrArg Reply.purchaseUndone (fixes'.renumber_item (List.mem_of_find?_eq_some h))
  | pickedUp bid =>
    exact congrArg Reply.pickedUp (fixes'.renumber_bid (List.mem_of_find?_eq_some h))
  | _ => rfl

end Fixes

/-! ## One command with other counters -/

namespace Draft

section Agree

variable {limits : Limits} {store : Store} {run : RunId} {book : OrderBook}
  {counters later : Counters} {now : Instant} {command : Command}
  {result result' : Except Refusal (Draft × Reply)}
  (executes : (ofBook book counters now).execute limits command =
    (ofBook book counters now).settle result)
  (executes' : (ofBook book later now).execute limits command =
    (ofBook book later now).settle result')

include executes executes'

theorem agree_of_isSame (cover : counters.Cover store) (finds : store.find? run = some book)
    (same : Agree ((ofBook book counters now).IsSame later) result result') :
    Agree (IsRenumbered (.shift counters later))
      ((ofBook book counters now).execute limits command).1
      ((ofBook book later now).execute limits command).1 := by
  rw [executes, executes', settle_fst, settle_fst]
  refine same.imp fun (d, reply) done' hresult _ ⟨hcounters, hdone'⟩ => ?_
  subst hresult hdone'
  have hkept : d.counters = counters := hcounters
  have outcome := (execute_eq_ok_iff.mp executes).1
  have hcover := cover.handle finds outcome (by
    rw [hkept]
    exact ⟨Nat.le_refl _, Nat.le_refl _, Nat.le_refl _, Nat.le_refl _⟩)
  rw [hkept] at hcover
  have htidy := cover.tidy book (Store.mem_of_find? finds)
  have hagrees := outcome.agreesWith fun _ => .of_nodup htidy.oneBidEach
  have hfixes := cover.fixes (Store.mem_of_find? finds) later
  have hfixes' := hcover.fixes (Store.mem_of_find? (Desk.find?_stored outcome finds)) later
  exact ⟨hfixes'.renumber.symm, (hagrees.renumber hfixes hfixes').symm⟩

theorem agree_of_draws {kind : Kind} (number : Counters → Nat)
    (mono : ∀ c c' : Counters, c ≤ c' → number c ≤ number c') {most : Nat}
    (few : most < UInt64.size) (le : counters ≤ later)
    (rises : counters ≤ ((ofBook book counters now).execute limits command).2)
    (rises' : later ≤ ((ofBook book later now).execute limits command).2)
    (draws : Agree (fun done done' => Draws
      (shift (number counters) (number later) : Identifier kind → Identifier kind) most
      (number counters) (number later) (number done.1.counters) (number done'.1.counters)
      (IsRenumbered (.shift counters later) done done')) result result') :
    Agree (IsRenumbered (.shift counters later))
      ((ofBook book counters now).execute limits command).1
      ((ofBook book later now).execute limits command).1 := by
  rw [executes] at rises
  rw [executes'] at rises'
  rw [executes, executes', settle_fst, settle_fst]
  refine draws.imp fun done done' hresult hresult' hdraws => ?_
  subst hresult hresult'
  exact hdraws.isMatch few (mono _ _ le) (mono _ _ rises) (mono _ _ rises')

end Agree

theorem execute_renumber {limits : Limits} {store : Store} {run : RunId} {book : OrderBook}
    {counters later : Counters} {now : Instant} {command : Command} (cover : counters.Cover store)
    (finds : store.find? run = some book) (le : counters ≤ later)
    (rises : counters ≤ ((ofBook book counters now).execute limits command).2)
    (rises' : later ≤ ((ofBook book later now).execute limits command).2) :
    Agree (IsRenumbered (.shift counters later))
      ((ofBook book counters now).execute limits command).1
      ((ofBook book later now).execute limits command).1 := by
  have hbook := Store.mem_of_find? finds
  have fixes := cover.fixes hbook later
  have inj := Identifier.injective_of_lt (Renumbering.shift_isMonotone counters later).participation
  have hbids := (cover.bids.each book hbook).length_lt
  have hitems := (cover.items.each book hbook).length_lt
  rw [List.length_map] at hbids hitems
  obtain ⟨user, action⟩ := command
  cases action with
  | placeBid product value interestedOnly comment =>
    exact placeBid_renumber (d := ofBook book counters now) inj fixes (shift_next le.2.1)
      (shift_next le.2.2.1) product value interestedOnly comment
  | retractBid product => exact agree_of_isSame rfl rfl cover finds (retractBid_recount product)
  | toggleReady => exact agree_of_isSame rfl rfl cover finds toggleReady_recount
  | setHelper helper isHelper =>
    exact agree_of_isSame rfl rfl cover finds (setHelper_recount helper isHelper)
  | forceConfirm => exact agree_of_isSame rfl rfl cover finds forceConfirm_recount
  | startShopping =>
    exact agree_of_draws rfl rfl (·.item) (fun _ _ h => h.2.2.2) hbids le rises rises'
      (startShopping_renumber (d := ofBook book counters now) fixes)
  | recordPurchase product quantity price total =>
    exact agree_of_isSame rfl rfl cover finds (recordPurchase_recount product quantity price total)
  | undoPurchase product =>
    exact agree_of_isSame rfl rfl cover finds (undoPurchase_recount product)
  | completeShopping =>
    exact agree_of_draws rfl rfl (·.bid) (fun _ _ h => h.2.2.1) hitems le rises rises'
      (completeShopping_renumber (d := ofBook book counters now) inj fixes)
  | finishAdjusting force =>
    exact agree_of_draws rfl rfl (·.bid) (fun _ _ h => h.2.2.1) hitems le rises rises'
      (finishAdjusting_renumber (d := ofBook book counters now) inj fixes force)
  | markPickedUp bid => exact agree_of_isSame rfl rfl cover finds (markPickedUp_recount bid)
  | completeDistribution => exact agree_of_isSame rfl rfl cover finds completeDistribution_recount
  | cancel => exact agree_of_isSame rfl rfl cover finds cancel_recount

end Draft

/-! ## One command at two desks -/

namespace Desk

variable {terms : Terms} {desk desk' : Desk} {run other : RunId} {command : Command} {now : Instant}

theorem take_handle_other (undisturbed : desk.IsUndisturbed) (command : Command) (now : Instant)
    (apart : other ≠ run) :
    (desk.take terms (.handle run command now)).IsUndisturbed ∧
      (desk.take terms (.handle run command now)).repository.store.find? other =
        desk.repository.store.find? other := by
  have htake : desk.take terms (.handle run command now) = ((handle terms run command now).on
      ⟨.ofStore desk.repository.store, desk.counters, desk.journal⟩).2 := by
    rw [← undisturbed.eq_ofStore]
    rfl
  rw [htake, on_handle_ofStore]
  cases finds : desk.repository.store.find? run with
  | none => exact ⟨⟨rfl, rfl⟩, rfl⟩
  | some book =>
    dsimp only
    split
    · rcases hexecute : (Draft.ofBook book desk.counters now).execute terms.limits command with
        ⟨why | ⟨d, reply⟩, drawn⟩
      · exact ⟨⟨rfl, rfl⟩, rfl⟩
      · have outcome := (Draft.execute_eq_ok_iff.mp hexecute).1
        have hid : d.book.run.id = run := outcome.run_id.trans (Store.id_of_find? finds)
        exact ⟨⟨rfl, rfl⟩, Store.find?_replace_of_ne (by rw [hid]; exact apart)⟩
    · exact ⟨⟨rfl, rfl⟩, rfl⟩

theorem handle_renumber (undisturbed : desk.IsUndisturbed) (undisturbed' : desk'.IsUndisturbed)
    (cover : desk.counters.Cover desk.repository.store)
    (same : desk'.repository.store.find? run = desk.repository.store.find? run)
    (le : desk.counters ≤ desk'.counters)
    (rises : desk.counters ≤ (desk.take terms (.handle run command now)).counters)
    (rises' : desk'.counters ≤ (desk'.take terms (.handle run command now)).counters) :
    Agree (fun reply reply' => reply' = reply.renumber (.shift desk.counters desk'.counters))
        ((handle terms run command now).on desk).1 ((handle terms run command now).on desk').1 ∧
      (desk'.take terms (.handle run command now)).repository.store.find? run =
        ((desk.take terms (.handle run command now)).repository.store.find? run).map
          (·.renumber (.shift desk.counters desk'.counters)) := by
  have htake : desk.take terms (.handle run command now) =
    ((handle terms run command now).on desk).2 := rfl
  have htake' : desk'.take terms (.handle run command now) =
    ((handle terms run command now).on desk').2 := rfl
  rw [htake] at rises ⊢
  rw [htake'] at rises' ⊢
  rw [undisturbed.eq_ofStore, on_handle_ofStore] at rises ⊢
  rw [undisturbed'.eq_ofStore, on_handle_ofStore, same] at rises' ⊢
  cases finds : desk.repository.store.find? run with
  | none =>
    refine ⟨.error _, ?_⟩
    show desk'.repository.store.find? run = (desk.repository.store.find? run).map _
    rw [same, finds]
    rfl
  | some book =>
    have hkept : desk'.repository.store.find? run =
        (desk.repository.store.find? run).map
          (·.renumber (.shift desk.counters desk'.counters)) := by
      rw [same, finds]
      exact congrArg some (cover.fixes (Store.mem_of_find? finds) _).renumber.symm
    rw [finds] at rises rises'
    dsimp only at rises rises' ⊢
    cases isMember : terms.directory.isMember book.run.group command.user with
    | false =>
      simp only [Bool.false_eq_true, if_false]
      exact ⟨.error _, hkept⟩
    | true =>
      simp only [isMember, if_true] at rises rises' ⊢
      rcases hexecute : (Draft.ofBook book desk.counters now).execute terms.limits command with
        ⟨result, drawn⟩
      rcases hexecute' : (Draft.ofBook book desk'.counters now).execute terms.limits command with
        ⟨result', drawn'⟩
      have hdrawn : desk.counters ≤
          ((Draft.ofBook book desk.counters now).execute terms.limits command).2 := by
        rw [hexecute] at rises ⊢
        cases result <;> exact rises
      have hdrawn' : desk'.counters ≤
          ((Draft.ofBook book desk'.counters now).execute terms.limits command).2 := by
        rw [hexecute'] at rises' ⊢
        cases result' <;> exact rises'
      have hresult := Draft.execute_renumber cover finds le hdrawn hdrawn'
      rw [hexecute, hexecute'] at hresult
      dsimp only at hresult
      cases hresult with
      | error why => exact ⟨.error _, hkept⟩
      | @ok done done' related =>
        obtain ⟨hbook, hreply⟩ := related
        refine ⟨.ok hreply, ?_⟩
        have outcome := (Draft.execute_eq_ok_iff.mp hexecute).1
        have outcome' := (Draft.execute_eq_ok_iff.mp hexecute').1
        show (desk'.repository.store.replace done'.1.book).find? run =
          ((desk.repository.store.replace done.1.book).find? run).map _
        rw [find?_stored outcome finds, find?_stored outcome' (same.trans finds), hbook]
        rfl

/-- One run in two orders of work: the answers are the same, and so is what the run comes to, with
new numbers for new rows that keep their order. -/
def AgreeOn (desk : Desk) (run : RunId) (answer answer' : Except Interruption Reply)
    (after after' : Desk) : Prop :=
  ∃ ρ : Renumbering, ρ.IsMonotone ∧
    (∀ book, desk.repository.store.find? run = some book → book.renumber ρ = book) ∧
    Agree (fun reply reply' => reply' = reply.renumber ρ) answer answer' ∧
    after'.repository.store.find? run =
      (after.repository.store.find? run).map (·.renumber ρ)

theorem agreeOn_of_ne {command' : Command} {now' : Instant} (undisturbed : desk.IsUndisturbed)
    (cover : desk.counters.Cover desk.repository.store) (apart : run ≠ other)
    (rises : desk.counters ≤ (desk.take terms (.handle run command now)).counters)
    (le : desk.counters ≤ (desk.take terms (.handle other command' now')).counters)
    (rises' : (desk.take terms (.handle other command' now')).counters ≤
      ((desk.take terms (.handle other command' now')).take terms
        (.handle run command now)).counters) :
    desk.AgreeOn run ((handle terms run command now).on desk).1
      ((handle terms run command now).on (desk.take terms (.handle other command' now'))).1
      ((desk.take terms (.handle run command now)).take terms (.handle other command' now'))
      ((desk.take terms (.handle other command' now')).take terms (.handle run command now)) := by
  obtain ⟨hundisturbed, _⟩ := take_handle_other undisturbed command now apart.symm
  obtain ⟨_, hkept⟩ := take_handle_other hundisturbed command' now' apart
  obtain ⟨hundisturbed', hsame⟩ := take_handle_other undisturbed command' now' apart
  obtain ⟨hanswers, hcomes⟩ :=
    handle_renumber undisturbed hundisturbed' cover hsame le rises rises'
  refine ⟨_, Renumbering.shift_isMonotone _ _, fun book finds => ?_, hanswers, ?_⟩
  · exact (cover.fixes (Store.mem_of_find? finds) _).renumber
  · rw [hcomes, hkept]

end Desk

/-- Let two commands for different runs be handled in either order, whenever that is. Each of them
gets the same answer or the same refusal, each of the runs comes to the same but for the numbers of
what is new in it, which stay in order, and every other run stays as it is. -/
theorem runs_independent {steps : List (Terms × Desk.Turn)} {terms : Terms} {run other : RunId}
    {command command' : Command} {now now' : Instant} (apart : run ≠ other)
    (undisturbed : (Desk.opened.takeEach steps).IsUndisturbed)
    (lasts : Desk.opened.Lasts (steps ++
      [(terms, .handle run command now), (terms, .handle other command' now')]))
    (lasts' : Desk.opened.Lasts (steps ++
      [(terms, .handle other command' now'), (terms, .handle run command now)])) :
    let desk := Desk.opened.takeEach steps
    let after := desk.take terms (.handle run command now)
    let after' := desk.take terms (.handle other command' now')
    let last := after.take terms (.handle other command' now')
    let last' := after'.take terms (.handle run command now)
    desk.AgreeOn run ((Desk.handle terms run command now).on desk).1
        ((Desk.handle terms run command now).on after').1 last last' ∧
      desk.AgreeOn other ((Desk.handle terms other command' now').on desk).1
        ((Desk.handle terms other command' now').on after).1 last' last ∧
      ∀ third, third ≠ run → third ≠ other →
        last.repository.store.find? third = desk.repository.store.find? third ∧
          last'.repository.store.find? third = desk.repository.store.find? third := by
  intro desk after after' last last'
  obtain ⟨hsteps, hlasts⟩ := Desk.lasts_append.mp lasts
  obtain ⟨_, hlasts'⟩ := Desk.lasts_append.mp lasts'
  have hcover := Desk.takeEach_cover (Repository.isUnraced_ofStore _) (.empty _) steps hsteps
  have hrises : desk.counters ≤ after.counters := hlasts.1.resolve_left nofun
  have hrises' : desk.counters ≤ after'.counters := hlasts'.1.resolve_left nofun
  have hlast : after.counters ≤ last.counters := hlasts.2.1.resolve_left nofun
  have hlast' : after'.counters ≤ last'.counters := hlasts'.2.1.resolve_left nofun
  refine ⟨Desk.agreeOn_of_ne undisturbed hcover apart hrises hrises' hlast',
    Desk.agreeOn_of_ne undisturbed hcover apart.symm hrises' hrises hlast, ?_⟩
  intro third hrun hother
  obtain ⟨hafter, hkept⟩ := Desk.take_handle_other undisturbed command now hrun
  obtain ⟨hafter', hkept'⟩ := Desk.take_handle_other undisturbed command' now' hother
  obtain ⟨_, hthird⟩ := Desk.take_handle_other hafter command' now' hother
  obtain ⟨_, hthird'⟩ := Desk.take_handle_other hafter' command now hrun
  exact ⟨hthird.trans hkept, hthird'.trans hkept'⟩

namespace Desk

def twoRuns : List (Terms × Turn) :=
  [(widerTerms, .create ⟨1⟩ ⟨1⟩ ⟨1⟩ (.ofSeconds 0)),
    (widerTerms, .create ⟨1⟩ ⟨1⟩ ⟨3⟩ (.ofSeconds 1))]

/-- Someone asks for two of a product. -/
def joining : Command := ⟨⟨2⟩, .placeBid ⟨1⟩ (.ofInt 2) false none⟩

/-- The numbers of the participants and of the bids in a run. -/
def numbers (desk : Desk) (run : RunId) : Option (List Nat × List Nat) :=
  (desk.repository.store.find? run).map fun book =>
    (book.participations.map (·.id.number), book.bids.map (·.id.number))

end Desk

/-- Someone joins two runs, one after the other. -/
theorem runs_independent_of_joining :
    let terms := Desk.widerTerms
    let desk := Desk.opened.takeEach Desk.twoRuns
    let after := desk.take terms (.handle ⟨1⟩ Desk.joining (.ofSeconds 2))
    let after' := desk.take terms (.handle ⟨2⟩ Desk.joining (.ofSeconds 3))
    let last := after.take terms (.handle ⟨2⟩ Desk.joining (.ofSeconds 3))
    let last' := after'.take terms (.handle ⟨1⟩ Desk.joining (.ofSeconds 2))
    last.numbers ⟨1⟩ = some ([1, 3], [1]) ∧ last'.numbers ⟨1⟩ = some ([1, 4], [2]) ∧
      desk.AgreeOn ⟨1⟩ ((Desk.handle terms ⟨1⟩ Desk.joining (.ofSeconds 2)).on desk).1
        ((Desk.handle terms ⟨1⟩ Desk.joining (.ofSeconds 2)).on after').1 last last' := by
  have apart : (⟨1⟩ : RunId) ≠ ⟨2⟩ := by decide
  have undisturbed : (Desk.opened.takeEach Desk.twoRuns).IsUndisturbed := by decide +kernel
  have lasts : Desk.opened.Lasts (Desk.twoRuns ++
      [(Desk.widerTerms, .handle ⟨1⟩ Desk.joining (.ofSeconds 2)),
        (Desk.widerTerms, .handle ⟨2⟩ Desk.joining (.ofSeconds 3))]) := by
    decide +kernel
  have lasts' : Desk.opened.Lasts (Desk.twoRuns ++
      [(Desk.widerTerms, .handle ⟨2⟩ Desk.joining (.ofSeconds 3)),
        (Desk.widerTerms, .handle ⟨1⟩ Desk.joining (.ofSeconds 2))]) := by
    decide +kernel
  exact ⟨by decide +kernel, by decide +kernel,
    (runs_independent apart undisturbed lasts lasts').1⟩

end BuyingClub
