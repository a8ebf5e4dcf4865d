import BuyingClub.Proofs.MemberBids
import BuyingClub.Proofs.Pickup

/-!
# Who is ready

While a run is planned or active, someone who takes part is not ready. So the toggle that confirms
an active run is that of the only one who was not.
-/

namespace BuyingClub

namespace OrderBook

variable {book : OrderBook}

def areAllReady (book : OrderBook) : Bool := book.activeParticipations.all (·.isReady)

/-- As long as the run is not confirmed, someone has to be waited for. -/
def AwaitsReadiness (book : OrderBook) : Prop :=
  book.run.stage = .planning ∨ book.run.stage = .active → book.areAllReady = false

theorem areAllReady_eq_all (book : OrderBook) :
    book.areAllReady = book.participations.all fun p => p.isRemoved || p.isReady := by
  simp [areAllReady, activeParticipations, List.all_filter]

theorem areAllReady_eq_false_iff :
    book.areAllReady = false ↔ ∃ p ∈ book.activeParticipations, p.isReady = false := by
  simp [areAllReady]

theorem mem_activeParticipations {user : UserId} {p : Participation}
    (finds : book.participationOf? user = some p) : p ∈ book.activeParticipations := by
  have htest := List.find?_some finds
  simp only [Bool.and_eq_true] at htest
  exact List.mem_filter.mpr ⟨List.mem_of_find?_eq_some finds, htest.2⟩

theorem areAllReady_toggled_iff {p : Participation} {toggle : Participation → Participation}
    (distinct : (book.participations.map (·.id)).Nodup) (hp : p ∈ book.activeParticipations)
    (toggles : toggle p = { p with isReady := !p.isReady }) :
    (book.updateParticipation p.id toggle).areAllReady = true ↔
      ∀ q ∈ book.activeParticipations, q.isReady = false ↔ q = p := by
  obtain ⟨hmem, hactive⟩ := List.mem_filter.mp hp
  have hremoved : p.isRemoved = false := by simpa using hactive
  have hfound : book.participations.find? (·.id = p.id) = some p := find?_of_nodup distinct hmem
  -- Apart from the one who toggles, the others are as they were.
  let others := book.participations.eraseP (·.id = p.id)
  have hperm : book.participations.Perm (p :: others) := perm_cons_eraseP hfound
  have hother : ∀ q ∈ others, q ≠ p := by
    have hids := (hperm.map (·.id)).nodup_iff.mp distinct
    rintro q hq rfl
    exact (List.nodup_cons.mp hids).1 (List.mem_map_of_mem hq)
  have hafter : (book.updateParticipation p.id toggle).areAllReady = true ↔
      p.isReady = false ∧ ∀ q ∈ others, q.isRemoved = true ∨ q.isReady = true := by
    rw [areAllReady_eq_all, updateParticipation, (perm_updateFirst toggle hfound).all_eq]
    simp [toggles, hremoved, others]
  rw [hafter]
  constructor
  · rintro ⟨hunready, hothers⟩ q hq
    obtain ⟨hq, hqactive⟩ := List.mem_filter.mp hq
    rcases List.mem_cons.mp (hperm.mem_iff.mp hq) with rfl | hq
    · simp [hunready]
    · have hready := (hothers q hq).resolve_left (by simpa using hqactive)
      simp [hready, hother q hq]
  · intro honly
    refine ⟨(honly p hp).mpr rfl, fun q hq => ?_⟩
    by_contra! hleft
    have hqactive : q ∈ book.activeParticipations :=
      List.mem_filter.mpr ⟨hperm.mem_iff.mpr (List.mem_cons_of_mem _ hq), by simp [hleft.1]⟩
    exact hother q hq ((honly q hqactive).mp (by simpa using hleft.2))

theorem IsNew.awaitsReadiness (h : book.IsNew) : book.AwaitsReadiness := by
  obtain ⟨id, group, store, leader, participation, now, rfl⟩ := h
  exact fun _ => rfl

end OrderBook

namespace Draft

variable {limits : Limits} {d after : Draft} {user : UserId} {action : Action} {reply : Reply}

/-! ## Commands -/

theorem stage_of_movedIf_awaits {changed : Draft} {c : Bool} {new : Stage}
    (stays : changed.stage = d.stage)
    (moves : c = true → d.stage = .planning ∨ d.stage = .active)
    (hstage : (changed.movedIf c new).stage = .planning ∨
      (changed.movedIf c new).stage = .active) :
    d.stage = .planning ∨ d.stage = .active := by
  cases c with
  | true => exact moves rfl
  | false => rwa [← stays]

theorem areAllReady_movedIf (c : Bool) (new : Stage) :
    (d.movedIf c new).book.areAllReady = d.book.areAllReady := by
  cases c <;> rfl

theorem Admits.areAllReady {value : Binary64} {participation : ParticipationId}
    {quantity : Quantity} {admitted : Draft}
    (h : d.Admits limits user value participation quantity admitted)
    (before : d.book.areAllReady = false) : admitted.book.areAllReady = false := by
  cases h with
  | participant => exact before
  | newcomer isOpen reads unknown =>
    rw [OrderBook.areAllReady_eq_all] at before ⊢
    rw [joined, List.all_append, before]
    rfl

theorem Outcome.awaitsReadiness (h : d.Outcome limits user action after reply)
    (before : d.book.AwaitsReadiness) : after.book.AwaitsReadiness := by
  intro hstage
  cases h with
  | @bidPlaced _ _ _ _ _ _ admitted _ placed admits fits places moves =>
    subst moves
    have hbefore := stage_of_movedIf_awaits (stage_bidPlaced admits places)
      (fun hc => .inl (of_decide_eq_true (Bool.and_eq_true_iff.mp hc).1)) hstage
    have hplaced : placed.book.areAllReady = admitted.book.areAllReady := by
      rw [OrderBook.areAllReady_eq_all, (OrderBook.placeBid_frame places).2.1,
        ← OrderBook.areAllReady_eq_all]
    rw [areAllReady_movedIf]
    exact hplaced.trans (admits.areAllReady (before hbefore))
  | @bidRetracted product _ _ book _ isOpen finds fits retracts moves =>
    obtain ⟨_, hbook⟩ := OrderBook.retractBid_eq_ok_iff.mp retracts
    subst moves
    have hstays : (d.bidRetracted user product book).stage = d.stage := by
      rw [hbook]
      rfl
    have hbefore := stage_of_movedIf_awaits hstays
      (fun hc => .inr (of_decide_eq_true (Bool.and_eq_true_iff.mp hc).1)) hstage
    rw [areAllReady_movedIf, hbook]
    exact before hbefore
  | @readyToggled p _ isActive finds moves =>
    -- Had everyone been ready after the toggle, the run would have been confirmed.
    subst moves
    rw [areAllReady_movedIf]
    by_contra hall
    rw [Bool.not_eq_false] at hall
    rw [← OrderBook.areAllReady, hall] at hstage
    exact hstage.elim nofun nofun
  | @helperSet _ isHelper p leads isLive finds =>
    have hmarks := map_updateFirst (·.id = (d.identified p).id) (fun q => { q with isHelper })
      (fun q => q.isRemoved || q.isReady) (fun _ => rfl) d.book.participations
    have hall := congrArg (List.all · id) hmarks
    rw [List.all_map, List.all_map] at hall
    have hunready := before hstage
    rw [OrderBook.areAllReady_eq_all] at hunready ⊢
    exact hall.trans hunready
  | purchaseRecorded isShopping mayShop reads finds => exact before hstage
  | purchaseUndone isShopping mayShop finds wasBought => exact before hstage
  | pickedUp isDistributing mayShop finds hasGoods => exact before hstage
  | _ => exact hstage.elim nofun nofun

theorem identified_eq {p : Participation} (distinct : (d.book.participations.map (·.id)).Nodup)
    (finds : d.book.participationOf? user = some p) : d.identified p = p := by
  have hidentified : d.identified p ∈ d.book.participations :=
    List.mem_of_find?_eq_some (identified_spec finds)
  exact List.inj_on_of_nodup_map distinct hidentified (List.mem_of_find?_eq_some finds)
    (identified_id finds)

theorem Outcome.confirmed_iff {p : Participation}
    (h : d.Outcome limits user .toggleReady after reply)
    (distinct : (d.book.participations.map (·.id)).Nodup)
    (finds : d.book.participationOf? user = some p) :
    reply = .readyToggled (!p.isReady) after.stage ∧
      (after.stage = .confirmed ∨ after.stage = .active) ∧
      (after.stage = .confirmed ↔
        ∀ q ∈ d.book.activeParticipations, q.isReady = false ↔ q = p) := by
  cases h with
  | @readyToggled p' _ isActive finds' moves =>
    obtain rfl : p = p' := Option.some.inj (finds.symm.trans finds')
    rw [identified_eq distinct finds] at moves ⊢
    have htoggled : (d.readyToggled user p).book.areAllReady = true ↔
        ∀ q ∈ d.book.activeParticipations, q.isReady = false ↔ q = p :=
      OrderBook.areAllReady_toggled_iff distinct (OrderBook.mem_activeParticipations finds) rfl
    have hstage : after.stage =
        if (d.readyToggled user p).book.areAllReady then .confirmed else .active := by
      rw [moves, movedIf_stage, ← isActive]
      rfl
    rw [hstage, ← htoggled]
    cases (d.readyToggled user p).book.areAllReady <;> simp

end Draft

/-- While a stored run is planned or active, someone who takes part in it is not ready. Whoever
takes part in an active one can toggle, and unless a counter has run over this confirms it exactly
if just that one was not ready, and leaves it active otherwise. -/
theorem unanimity_confirms {steps : List (Terms × Desk.Turn)} {run : RunId} {book : OrderBook}
    (finds : (Desk.opened.takeEach steps).repository.store.find? run = some book) :
    (book.run.stage = .planning ∨ book.run.stage = .active →
        ∃ p ∈ book.activeParticipations, p.isReady = false) ∧
      (book.run.stage = .active → Desk.opened.Lasts steps →
        ∀ (terms : Terms) (user : UserId) (p : Participation) (now : Instant),
          book.participationOf? user = some p →
          ((Desk.opened.takeEach steps).IsUndisturbed →
            terms.directory.isMember book.run.group user = true →
            ∃ reply after, (Desk.handle terms run ⟨user, .toggleReady⟩ now).on
              (Desk.opened.takeEach steps) = (.ok reply, after)) ∧
          ∀ reply after, (Desk.handle terms run ⟨user, .toggleReady⟩ now).on
              (Desk.opened.takeEach steps) = (.ok reply, after) →
            ∃ later, after.repository.store.find? run = some later ∧
              reply = .readyToggled (!p.isReady) later.run.stage ∧
              (later.run.stage = .confirmed ∨ later.run.stage = .active) ∧
              (later.run.stage = .confirmed ↔
                ∀ q ∈ book.activeParticipations, q.isReady = false ↔ q = p)) := by
  have hstored := Store.mem_of_find? finds
  constructor
  · intro hstage
    have hawaits : book.AwaitsReadiness := by
      refine Desk.takeEach_forall_books (Repository.isUnraced_ofStore _) (by rintro _ ⟨⟩)
        (fun book isNew => isNew.awaitsReadiness) ?_ steps book hstored
      rintro limits book _ hawaits ⟨counters, now, user, action, d, reply, houtcome, rfl⟩
      exact houtcome.awaitsReadiness hawaits
    exact OrderBook.areAllReady_eq_false_iff.mp (hawaits hstage)
  · intro isActive lasts terms user p now hp
    have hunraced : (Desk.opened.takeEach steps).repository.IsUnraced :=
      Desk.takeEach_unraced (Repository.isUnraced_ofStore _) steps
    have hcover := Desk.takeEach_cover (Repository.isUnraced_ofStore _) (.empty _) steps lasts
    have hdistinct := (hcover.participations.each book hstored).nodup
    refine ⟨fun undisturbed isMember => ?_, fun reply after hhandle => ?_⟩
    · have houtcome : (Draft.ofBook book (Desk.opened.takeEach steps).counters now).Outcome
          terms.limits user .toggleReady _ _ := .readyToggled isActive hp rfl
      have hmember : terms.directory.isMember book.run.group
          (Command.mk user .toggleReady).user = true := isMember
      obtain ⟨after, hhandle, _⟩ :=
        Desk.handle_ofStore (Desk.opened.takeEach steps).journal finds hmember houtcome
      rw [← undisturbed.eq_ofStore] at hhandle
      exact ⟨_, after, hhandle⟩
    · obtain ⟨d, houtcome, hlater⟩ := Desk.handle_ok_of_find? hunraced finds hhandle
      exact ⟨d.book, hlater, houtcome.confirmed_iff hdistinct hp⟩

namespace Desk

/-- Both ask for something, and the one who does not lead is ready. -/
def halfReadySteps : List (Terms × Turn) :=
  [(tripTerms, .create ⟨1⟩ ⟨1⟩ ⟨1⟩ (.ofSeconds 0)),
    (tripTerms, tripTurn 1 (.placeBid ⟨1⟩ (.ofInt 4) false none)),
    (tripTerms, tripTurn 2 (.placeBid ⟨1⟩ (.ofInt 2) true none)),
    (tripTerms, tripTurn 2 .toggleReady)]

end Desk

/-- The leader is the one to be waited for. The toggle of the other one leaves the run active. -/
theorem unanimity_confirms_when_half_ready :
    ∃ book, (Desk.opened.takeEach Desk.halfReadySteps).repository.store.find? ⟨1⟩ = some book ∧
      (∃ p ∈ book.activeParticipations, p.isReady = false) ∧
      (∃ reply after later, (Desk.handle Desk.tripTerms ⟨1⟩ ⟨⟨1⟩, .toggleReady⟩ (.ofSeconds 1)).on
          (Desk.opened.takeEach Desk.halfReadySteps) = (.ok reply, after) ∧
        after.repository.store.find? ⟨1⟩ = some later ∧ later.run.stage = .confirmed) ∧
      ∃ reply after later, (Desk.handle Desk.tripTerms ⟨1⟩ ⟨⟨2⟩, .toggleReady⟩ (.ofSeconds 1)).on
          (Desk.opened.takeEach Desk.halfReadySteps) = (.ok reply, after) ∧
        after.repository.store.find? ⟨1⟩ = some later ∧ later.run.stage = .active := by
  have hbook : ((Desk.opened.takeEach Desk.halfReadySteps).repository.store.find? ⟨1⟩).any
      (fun b => b.run.stage = .active ∧
        (∀ user ∈ [⟨1⟩, ⟨2⟩], Desk.tripTerms.directory.isMember b.run.group user = true) ∧
        (b.participationOf? ⟨1⟩).any (fun p => ∀ q ∈ b.activeParticipations,
          q.isReady = false ↔ q = p) ∧
        (b.participationOf? ⟨2⟩).any (fun p => ∃ q ∈ b.activeParticipations,
          ¬(q.isReady = false ↔ q = p))) = true := by
    decide +kernel
  obtain ⟨book, finds, hbook⟩ := (Option.any_eq_true _ _).mp hbook
  obtain ⟨isActive, isMember, hleader, hother⟩ := of_decide_eq_true hbook
  obtain ⟨leader, hleader, honly⟩ := (Option.any_eq_true _ _).mp hleader
  obtain ⟨other, hother, hwaits⟩ := (Option.any_eq_true _ _).mp hother
  obtain ⟨unready, htoggle⟩ := unanimity_confirms finds
  have htoggle := htoggle isActive (by decide +kernel) Desk.tripTerms
  refine ⟨book, finds, unready (.inr isActive), ?_, ?_⟩
  · obtain ⟨hanswered, hconfirms⟩ := htoggle ⟨1⟩ leader (.ofSeconds 1) hleader
    obtain ⟨reply, after, hhandle⟩ := hanswered (by decide +kernel) (isMember _ (by simp))
    obtain ⟨later, hlater, _, _, hiff⟩ := hconfirms reply after hhandle
    exact ⟨reply, after, later, hhandle, hlater, hiff.mpr (of_decide_eq_true honly)⟩
  · obtain ⟨hanswered, hconfirms⟩ := htoggle ⟨2⟩ other (.ofSeconds 1) hother
    obtain ⟨reply, after, hhandle⟩ := hanswered (by decide +kernel) (isMember _ (by simp))
    obtain ⟨later, hlater, _, hstage, hiff⟩ := hconfirms reply after hhandle
    obtain ⟨q, hq, hnot⟩ := of_decide_eq_true hwaits
    exact ⟨reply, after, later, hhandle, hlater,
      hstage.resolve_left fun hconfirmed => hnot (hiff.mp hconfirmed q hq)⟩

end BuyingClub
