import BuyingClub.Proofs.History
import BuyingClub.Proofs.Limits.Books
import BuyingClub.Proofs.Reconciliation

/-!
# How much a bid asks for

A bid is within the limit until the goods are handed out. From then on a bid of the leader can be
beyond it, and only on a product of which there was a surplus, as some reply told.
-/

namespace BuyingClub

/-- A bid of the leader on a product of which a surplus was handed out. -/
structure Bid.HoldsSurplus (book : OrderBook) (replies : List Reply) (b : Bid) : Prop where
  distributed : .distributing ∈ book.run.history.map (·.stage)
  leads : book.leader?.any (·.id = b.participation) = true
  surplus : ∃ reply ∈ replies, ∃ a ∈ reply.allocations, a.product = b.product ∧
    ∃ toLeader, a.split = .surplus toLeader

structure Bid.IsCapped (limits : Limits) (book : OrderBook) (replies : List Reply) (b : Bid) :
    Prop where
  nonneg : 0 ≤ b.quantity
  capped : b.quantity ≤ limits.maxBidQuantity ∨ b.HoldsSurplus book replies

theorem Bid.IsCapped.of_checkBid {limits : Limits} {book : OrderBook} {replies : List Reply}
    {b : Bid} (h : limits.checkBid b.quantity = .ok ()) : b.IsCapped limits book replies := by
  obtain ⟨hnonneg, hle⟩ := Limits.checkBid_eq_ok_iff.mp h
  exact ⟨hnonneg, .inl hle⟩

/-! ## Handing out -/

/-- A bid while its book is split: within the limit, or with a surplus of one of these
allocations. -/
def Bid.IsSplit (limits : Limits) (leader : ParticipationId) (allocations : List Allocation)
    (b : Bid) : Prop :=
  0 ≤ b.quantity ∧ (b.quantity ≤ limits.maxBidQuantity ∨
    (b.participation = leader ∧ ∃ a ∈ allocations, a.product = b.product ∧
      ∃ toLeader, a.split = .surplus toLeader))

theorem takesSurplus_isSplit {limits : Limits} {leader : ParticipationId}
    {allocations : List Allocation} {now : Instant} {a : Allocation} {surplus : Quantity}
    (ha : a ∈ allocations) (hsplit : a.split = .surplus surplus) (hpositive : 0 < surplus) :
    TakesSurplus (Bid.IsSplit limits leader allocations) leader now a.product surplus := by
  have hnonneg : 0 ≤ surplus := Int.le_of_lt hpositive
  constructor
  · rintro b ⟨hb, _⟩ hof
    obtain ⟨hleader, hproduct⟩ := Bid.isOf_iff.mp hof
    exact ⟨Bid.absorb_nonneg hb hnonneg, .inr ⟨hleader, a, ha, hproduct.symm, surplus, hsplit⟩⟩
  · intro id
    exact ⟨hnonneg, .inr ⟨rfl, a, ha, rfl, surplus, hsplit⟩⟩

theorem OrderBook.handOut_isSplit {limits : Limits} {book after : OrderBook} {now : Instant}
    {counters counters' : Counters} {allocations : List Allocation}
    (h : book.handOut now counters = .ok (allocations, after, counters'))
    (before : ∀ b ∈ book.bids, limits.checkBid b.quantity = .ok ()) :
    ∃ leader, book.leader? = some leader ∧
      ∀ b ∈ after.bids, b.IsSplit limits leader.id allocations := by
  obtain ⟨leader, hleader, hall⟩ := handOut_eq_ok_iff.mp h
  have hforall := @handOutAll_forall (Bid.IsSplit limits leader.id allocations) leader.id now
    counters book.purchases book (fun _ _ _ => Iff.rfl)
  rw [hall] at hforall
  refine ⟨leader, hleader, hforall ?_ ?_⟩
  · intro a ha surplus hsplit hpositive
    exact takesSurplus_isSplit ha hsplit hpositive
  · intro b hb
    obtain ⟨hnonneg, hle⟩ := Limits.checkBid_eq_ok_iff.mp (before b hb)
    exact ⟨hnonneg, .inl hle⟩

/-! ## Commands -/

namespace Draft

variable {limits : Limits} {d after : Draft} {user : UserId} {action : Action} {reply : Reply}
  {replies : List Reply}

theorem Outcome.distributing_of_mem_allocations (h : d.Outcome limits user action after reply)
    {a : Allocation} (ha : a ∈ reply.allocations) :
    .distributing ∈ after.book.run.history.map (·.stage) := by
  cases h with
  | shoppingBalanced leads allowed balanced handsOut => simp [movedWith, Run.enter]
  | adjustingFinished leads isAdjusting balanced handsOut => simp [movedWith, Run.enter]
  | _ => cases ha

theorem Outcome.isCapped_of_same (h : d.Outcome limits user action after reply) {b c : Bid}
    (before : b.IsCapped limits d.book replies) (hquantity : c.quantity = b.quantity)
    (hparticipation : c.participation = b.participation) (hproduct : c.product = b.product) :
    c.IsCapped limits after.book (replies ++ [reply]) := by
  refine ⟨by rw [hquantity]; exact before.nonneg, ?_⟩
  rw [hquantity]
  refine before.capped.imp_right fun holds => ⟨?_, ?_, ?_⟩
  · exact (h.follows.history_prefix.map (·.stage)).subset holds.distributed
  · have hleader := congrArg (Option.any (· = b.participation))
      (h.map_leader? (·.id) fun _ _ _ => rfl)
    have hsame : after.book.leader?.any (·.id = b.participation) =
        d.book.leader?.any (·.id = b.participation) := by
      simpa [Option.any_map, Function.comp_def] using hleader
    rw [hparticipation, hsame]
    exact holds.leads
  · obtain ⟨told, htold, hsurplus⟩ := holds.surplus
    rw [hproduct]
    exact ⟨told, List.mem_append_left _ htold, hsurplus⟩

theorem Outcome.isCapped (h : d.Outcome limits user action after reply)
    (within : d.stage.isBeforeHandout = true →
      ∀ b ∈ d.book.bids, limits.checkBid b.quantity = .ok ())
    (before : ∀ b ∈ d.book.bids, b.IsCapped limits d.book replies) :
    ∀ b ∈ after.book.bids, b.IsCapped limits after.book (replies ++ [reply]) := by
  have hsame (b : Bid) (hb : b ∈ d.book.bids) : b.IsCapped limits after.book (replies ++ [reply]) :=
    h.isCapped_of_same (before b hb) rfl rfl rfl
  intro b hb
  have hchanges := h.changesBids
  generalize hbids : after.book.bids = bids, hallocations : reply.allocations = allocations
    at hchanges hb
  cases hchanges with
  | stays => exact hsame b hb
  | places isOpen staysOpen sameBids reads fits places =>
    have hchecked := OrderBook.placeBid_eq_ok_iff.mp places
    rw [← sameBids] at hsame
    rcases hchecked.2 with ⟨previous, finds, rfl⟩ | ⟨unknown, _, rfl⟩
    · rcases mem_updateFirst hb with hb | ⟨_, _, rfl⟩
      · exact hsame b hb
      · exact .of_checkBid hchecked.1
    · rcases List.mem_append.mp hb with hb | hb
      · exact hsame b hb
      · rw [List.mem_singleton.mp hb]
        exact .of_checkBid hchecked.1
  | retracts isOpen staysOpen fits => exact hsame b (List.mem_of_mem_eraseP hb)
  | handsOut bought distributes handsOut =>
    have hbefore : d.stage.isBeforeHandout = true := by
      rcases bought with hstage | hstage <;> rw [hstage] <;> rfl
    obtain ⟨leader, hleader, hsplit⟩ := OrderBook.handOut_isSplit handsOut (within hbefore)
    obtain ⟨hnonneg, hle | ⟨hof, a, ha, hproduct, hsurplus⟩⟩ := hsplit b hb
    · exact ⟨hnonneg, .inl hle⟩
    · rw [← hallocations] at ha
      refine ⟨hnonneg, .inr ⟨h.distributing_of_mem_allocations ha, ?_, reply,
        List.mem_append_right _ (List.mem_singleton_self _), a, ha, hproduct, hsurplus⟩⟩
      have hmap := h.map_leader? (·.id) fun _ _ _ => rfl
      rw [hleader, Option.map_some, ← hof] at hmap
      obtain ⟨p, hp, hid⟩ := Option.map_eq_some_iff.mp hmap
      rw [hp]
      exact decide_eq_true hid
  | marks isDistributing finds =>
    rcases mem_updateFirst hb with hb | ⟨_, _, rfl⟩
    · exact hsame b hb
    · exact h.isCapped_of_same (before _ (List.mem_of_find?_eq_some finds)) rfl rfl rfl

end Draft

/-! ## Desks -/

namespace Desk

variable {terms : Terms} {desk after : Desk} {run : RunId} {replies : List Reply}

/-- What is replied to a command on the run in a turn. -/
def answer? (terms : Terms) (run : RunId) (desk : Desk) : Turn → Option Reply
  | .handle target command now =>
    if target = run then ((Desk.handle terms target command now).on desk).1.toOption else none
  | _ => none

/-- What was replied to commands on the run, oldest first. -/
def answers (terms : Terms) (run : RunId) (desk : Desk) : List Turn → List Reply
  | [] => []
  | turn :: rest =>
    (desk.answer? terms run turn).toList ++ (desk.take terms turn).answers terms run rest

/-- The bids of a run are capped, given what was replied on it. -/
def CapsBids (limits : Limits) (desk : Desk) (run : RunId) (replies : List Reply) : Prop :=
  ∀ book, desk.repository.store.find? run = some book →
    ∀ b ∈ book.bids, b.IsCapped limits book replies

theorem CapsBids.take (unraced : desk.repository.IsUnraced)
    (reachable : ∀ book ∈ desk.repository.store.books, book.Reachable terms.limits)
    (before : desk.CapsBids terms.limits run replies) (turn : Turn) :
    (desk.take terms turn).CapsBids terms.limits run
      (replies ++ (desk.answer? terms run turn).toList) := by
  have hkept {after : Desk} (stores : after.repository.store = desk.repository.store) :
      after.CapsBids terms.limits run (replies ++ []) := by
    rw [List.append_nil]
    intro book finds
    rw [stores] at finds
    exact before book finds
  cases turn with
  | handle target command now =>
    rcases hhandle : (Desk.handle terms target command now).on desk with ⟨why | reply, after⟩
    · have htake : desk.take terms (.handle target command now) = after := congrArg Prod.snd hhandle
      have hanswer : desk.answer? terms run (.handle target command now) = none := by
        simp only [answer?, hhandle]
        split <;> rfl
      rw [htake, hanswer]
      exact hkept (handle_error unraced hhandle).store
    · have htake : desk.take terms (.handle target command now) = after := congrArg Prod.snd hhandle
      obtain ⟨book, d, hhandled⟩ := handle_ok unraced hhandle
      rw [htake]
      by_cases htarget : target = run
      · have hanswer : desk.answer? terms run (.handle target command now) = some reply := by
          simp only [answer?, hhandle, if_pos htarget]
          rfl
        rw [hanswer]
        subst htarget
        intro later finds
        obtain ⟨d, houtcome, hstored⟩ := handle_ok_of_find? unraced hhandled.finds hhandle
        obtain rfl : d.book = later := Option.some.inj (hstored.symm.trans finds)
        have hwithin := (reachable book (Store.mem_of_find? hhandled.finds)).isWithin
        exact houtcome.isCapped hwithin.bids (before book hhandled.finds)
      · have hanswer : desk.answer? terms run (.handle target command now) = none := by
          simp only [answer?, if_neg htarget]
        have hid : d.book.run.id = target :=
          hhandled.outcome.run_id.trans (Store.id_of_find? hhandled.finds)
        have hother : after.repository.store.find? run = desk.repository.store.find? run := by
          rw [hhandled.stores]
          apply Store.find?_replace_of_ne
          rw [hid]
          exact Ne.symm htarget
        rw [hanswer, Option.toList_none, List.append_nil]
        intro later finds
        exact before later (hother.symm.trans finds)
  | create group store leader now =>
    obtain ⟨_, htook⟩ := take_took terms unraced (.create group store leader now)
    generalize desk.take terms (.create group store leader now) = after at htook
    show after.CapsBids terms.limits run (replies ++ [])
    cases htook with
    | created fresh stores counts gives =>
      rw [List.append_nil]
      intro book finds b hb
      rw [stores] at finds
      by_cases hrun : run = ⟨desk.counters.run⟩
      · subst hrun
        have hnew : Store.find? ⟨desk.repository.store.books ++
            [newBook desk.counters group store leader now]⟩ ⟨desk.counters.run⟩ =
              some (newBook desk.counters group store leader now) :=
          Store.find?_append_self fresh
        rw [hnew] at finds
        cases finds
        cases hb
      · have hold := (Store.find?_append_of_ne hrun).symm.trans finds
        exact before book hold b hb
    | kept stores serves counts gives => exact hkept stores
  | disturb isClosed disturbances unraced => exact hkept rfl
  | resume now => exact hkept (take_resume unraced now).2.1

theorem CapsBids.takeAll (unraced : desk.repository.IsUnraced)
    (reachable : ∀ book ∈ desk.repository.store.books, book.Reachable terms.limits)
    (before : desk.CapsBids terms.limits run replies) (turns : List Turn) :
    (desk.takeAll terms turns).CapsBids terms.limits run
      (replies ++ desk.answers terms run turns) := by
  induction turns generalizing desk replies with
  | nil =>
    rw [answers, List.append_nil]
    exact before
  | cons turn rest ih =>
    obtain ⟨hunraced, hturns⟩ := take_turns terms unraced turn
    have hrest := ih hunraced (hturns.reachable reachable) (before.take unraced reachable turn)
    rw [List.append_assoc] at hrest
    exact hrest

end Desk

/-- Whatever happens at a desk, a stored run has no more products and participants than the limits
allow, and its purchases are within them. So is every bid, unless it is the leader's and holds a
surplus that was handed out. -/
theorem limits_hold {terms : Terms} {turns : List Desk.Turn} {run : RunId} {book : OrderBook}
    (finds : (Desk.opened.takeAll terms turns).repository.store.find? run = some book) :
    book.products.length ≤ terms.limits.maxProducts ∧
      book.participations.length ≤ max 1 terms.limits.maxMembers ∧
      (∀ b ∈ book.bids, 0 ≤ b.quantity ∧
        (b.quantity ≤ terms.limits.maxBidQuantity ∨
          .distributing ∈ book.run.history.map (·.stage) ∧
            book.leader?.any (·.id = b.participation) = true ∧
            ∃ reply ∈ Desk.opened.answers terms run turns, ∃ a ∈ reply.allocations,
              a.product = b.product ∧ ∃ toLeader, a.split = .surplus toLeader)) ∧
      ∀ item ∈ book.items,
        (∀ quantity, item.purchasedQuantity = some quantity →
          0 ≤ quantity ∧ quantity ≤ terms.limits.maxPurchaseQuantity) ∧
        (∀ price, item.purchasedPrice = some price → 0 ≤ price ∧ price ≤ terms.limits.maxPrice) ∧
        ∀ total, item.purchasedTotal = some total →
          ∃ largest, terms.limits.maxPrice.times terms.limits.maxPurchaseQuantity = .ok largest ∧
            0 ≤ total ∧ total ≤ largest := by
  have hreachable : (Desk.opened.takeAll terms turns).Reachable terms := ⟨turns, rfl⟩
  have hkeeps := (hreachable.book (Store.mem_of_find? finds)).keepsLimits
  have hopened : Desk.opened.CapsBids terms.limits run [] := nofun
  have hempty : ∀ book ∈ Desk.opened.repository.store.books, book.Reachable terms.limits := by
    intro book hbook
    cases hbook
  have hcaps := hopened.takeAll (Repository.isUnraced_ofStore _) hempty turns book finds
  rw [List.nil_append] at hcaps
  refine ⟨hkeeps.products, hkeeps.participations, fun b hb => ?_, fun item hitem => ?_⟩
  · obtain ⟨hnonneg, hcapped⟩ := hcaps b hb
    exact ⟨hnonneg, hcapped.imp_right fun h => ⟨h.distributed, h.leads, h.surplus⟩⟩
  · obtain ⟨hquantity, hprice, htotal⟩ := hkeeps.items item hitem
    exact ⟨hquantity, hprice, htotal⟩

namespace Desk

/-- The terms of the trip, but nobody may ask for more than four of a product. -/
def tightTerms : Terms :=
  { tripTerms with limits := { tripTerms.limits with maxBidQuantity := .units 4 } }

/-- The trip of two, if ten are bought and nobody adjusts. -/
def surplusTurns : List Turn :=
  tripTurns.take 5 ++
    [tripTurn 1 (.recordPurchase ⟨1⟩ (.ofInt 10) (.ofInt 1) none),
      tripTurn 1 .completeShopping,
      tripTurn 1 (.finishAdjusting true)]

end Desk

/-- Ten were bought of six. The leader's bid of two takes four more and is beyond the limit, which
a reply has told. -/
theorem limits_hold_in_surplus :
    ∃ book, (Desk.opened.takeAll Desk.tightTerms Desk.surplusTurns).repository.store.find? ⟨1⟩ =
        some book ∧
      book.bids.map (·.quantity) = [.units 6, .units 4] ∧ book.products.length ≤ 100 ∧
      ∃ reply ∈ Desk.opened.answers Desk.tightTerms ⟨1⟩ Desk.surplusTurns,
        ∃ a ∈ reply.allocations, ∃ toLeader, a.split = .surplus toLeader := by
  have hbook : ((Desk.opened.takeAll Desk.tightTerms Desk.surplusTurns).repository.store.find?
      ⟨1⟩).any (fun b => b.bids.map (·.quantity) = [.units 6, .units 4]) = true := by
    decide +kernel
  obtain ⟨book, finds, hbook⟩ := (Option.any_eq_true _ _).mp hbook
  have hquantities : book.bids.map (·.quantity) = [.units 6, .units 4] := of_decide_eq_true hbook
  obtain ⟨hproducts, _, hbids, _⟩ := limits_hold finds
  have hmem : Quantity.units 6 ∈ book.bids.map (·.quantity) := by
    rw [hquantities]
    exact List.mem_cons_self
  obtain ⟨b, hb, hquantity⟩ := List.mem_map.mp hmem
  refine ⟨book, finds, hquantities, hproducts, ?_⟩
  rcases (hbids b hb).2 with hle | ⟨_, _, reply, hreply, a, ha, _, hsplit⟩
  · rw [hquantity] at hle
    exact absurd hle (by decide)
  · exact ⟨reply, hreply, a, ha, hsplit⟩

end BuyingClub
