import BuyingClub.Proofs.Adjusting

/-!
# How adjusting ends

A run is adjusting because other quantities were bought than the list asks for. List and purchases
stay as they are until the goods are handed out, so shopping cannot be completed once more.
-/

namespace BuyingClub

/-! ## What is out of balance -/

namespace OrderBook

theorem imbalanceOf?_eq_none_iff {item : ShoppingItem} {requested : Quantity} :
    imbalanceOf? item requested = none ↔
      ∀ bought, item.bought? = some bought → bought = requested := by
  unfold imbalanceOf?
  cases item.bought? with
  | none => simp
  | some bought => simp

theorem imbalances_eq_nil_iff {book : OrderBook} :
    book.imbalances = [] ↔
      ∀ item ∈ book.items, ∀ bought, item.bought? = some bought →
        bought = book.demand item.product := by
  unfold imbalances
  simp only [List.filterMap_eq_nil_iff, imbalanceOf?_eq_none_iff]

theorem imbalances_eq_nil_iff_of_isSoundList {book : OrderBook} (list : IsSoundList book.items) :
    book.imbalances = [] ↔
      ∀ item ∈ book.items, item.isPurchased = true →
        item.purchasedQuantity = some (book.demand item.product) := by
  rw [imbalances_eq_nil_iff]
  refine forall₂_congr fun item hitem => ?_
  unfold ShoppingItem.bought?
  cases hpurchased : item.isPurchased with
  | false => simp
  | true =>
    obtain ⟨quantity, _, hquantity, _⟩ := list.priced item hitem hpurchased
    simp [hquantity]

end OrderBook

/-! ## Single commands -/

namespace Draft

variable {limits : Limits} {d after : Draft} {user : UserId} {action : Action} {reply : Reply}

theorem execute_isOk_iff :
    (d.execute limits ⟨user, action⟩).1.isOk = true ↔
      ∃ after reply, d.Outcome limits user action after reply := by
  rcases he : d.execute limits ⟨user, action⟩ with ⟨why | ⟨after, reply⟩, counters⟩
  · refine iff_of_false Bool.false_ne_true ?_
    rintro ⟨after, reply, houtcome⟩
    rw [execute_eq_ok_iff.mpr ⟨houtcome, rfl⟩] at he
    cases he
  · exact iff_of_true rfl ⟨after, reply, (execute_eq_ok_iff.mp he).1⟩

theorem Outcome.listImbalances_ne_nil (h : d.Outcome limits user action after reply)
    (adjusting : after.stage = .adjusting)
    (before : d.stage = .adjusting → d.book.listImbalances ≠ []) :
    after.book.listImbalances ≠ [] := by
  rcases h.stage_cases with hsame | hmove
  · have hstage : d.stage = .adjusting := hsame.symm.trans adjusting
    unfold OrderBook.listImbalances
    rw [(h.adjusts hstage adjusting).items]
    exact before hstage
  · -- Only from shopping can a run come to be adjusting.
    rw [adjusting] at hmove
    have hshopping := Stage.eq_shopping_of_canMove hmove
    have hstays : after.stage ≠ d.stage := by
      rw [adjusting, hshopping]
      decide
    cases h with
    | bidPlaced admits fits places moves =>
      have hopen := admits.isOpen
      rw [hshopping] at hopen
      cases hopen
    | bidRetracted isOpen finds fits retracts moves =>
      rw [hshopping] at isOpen
      cases isOpen
    | readyToggled isActive finds moves =>
      rw [hshopping] at isActive
      cases isActive
    | helperSet leads isLive finds => exact absurd rfl hstays
    | purchaseRecorded isShopping mayShop reads finds => exact absurd rfl hstays
    | purchaseUndone isShopping mayShop finds wasBought => exact absurd rfl hstays
    | shoppingUnbalanced leads isShopping unbalanced => exact unbalanced
    | pickedUp isDistributing mayShop finds hasGoods => exact absurd rfl hstays
    | _ => cases adjusting

theorem Outcome.ends_adjusting (h : d.Outcome limits user action after reply)
    (adjusting : d.stage = .adjusting) (unsettled : d.book.listImbalances ≠ [])
    (ends : after.stage ≠ .adjusting) :
    d.book.leader?.any (·.user = user) = true ∧
      (action = .cancel ∨ ∃ force, action = .finishAdjusting force) := by
  cases h with
  | bidPlaced admits fits places moves =>
    subst moves
    rw [movedIf_stage, stage_bidPlaced admits places, adjusting] at ends
    exact absurd rfl ends
  | bidRetracted isOpen finds fits retracts moves =>
    obtain ⟨_, rfl⟩ := OrderBook.retractBid_eq_ok_iff.mp retracts
    subst moves
    rw [movedIf_stage, adjusting] at ends
    exact absurd adjusting ends
  | readyToggled isActive finds moves =>
    rw [adjusting] at isActive
    cases isActive
  | helperSet leads isLive finds => exact absurd adjusting ends
  | confirmed leads allowed =>
    rw [adjusting] at allowed
    cases allowed
  | shoppingStarted leads allowed drawsUp =>
    rw [adjusting] at allowed
    cases allowed
  | purchaseRecorded isShopping mayShop reads finds => exact absurd adjusting ends
  | purchaseUndone isShopping mayShop finds wasBought => exact absurd adjusting ends
  | shoppingBalanced leads allowed balanced handsOut => exact absurd balanced unsettled
  | shoppingUnbalanced leads isShopping unbalanced => exact absurd rfl ends
  | adjustingFinished leads isAdjusting balanced handsOut => exact ⟨leads, .inr ⟨_, rfl⟩⟩
  | pickedUp isDistributing mayShop finds hasGoods => exact absurd adjusting ends
  | completed leads isDistributing isDone =>
    rw [adjusting] at isDistributing
    cases isDistributing
  | cancelled leads allowed => exact ⟨leads, .inl rfl⟩

theorem not_outcome_completeShopping (adjusting : d.stage = .adjusting)
    (unsettled : d.book.listImbalances ≠ []) :
    ¬ d.Outcome limits user .completeShopping after reply := by
  intro h
  cases h with
  | shoppingBalanced leads allowed balanced handsOut => exact unsettled balanced
  | shoppingUnbalanced leads isShopping unbalanced =>
    rw [adjusting] at isShopping
    cases isShopping

theorem finishAdjusting_isOk_iff (adjusting : d.stage = .adjusting)
    (leads : d.book.leader?.any (·.user = user) = true) :
    (d.execute limits ⟨user, .finishAdjusting false⟩).1.isOk = true ↔ d.book.imbalances = [] := by
  rw [execute_isOk_iff]
  constructor
  · rintro ⟨after, reply, houtcome⟩
    cases houtcome with
    | adjustingFinished _ _ balanced _ => exact balanced rfl
  · intro balanced
    obtain ⟨leader, hleader, _⟩ := (Option.any_eq_true _ _).mp leads
    exact ⟨_, _, .adjustingFinished leads adjusting (fun _ => balanced)
      (OrderBook.handOut_eq_ok_iff.mpr ⟨leader, hleader, rfl⟩)⟩

end Draft

/-! ## Every reachable book -/

theorem OrderBook.Reachable.listImbalances_ne_nil {limits : Limits} {book : OrderBook}
    (h : book.Reachable limits) :
    book.run.stage = .adjusting → book.listImbalances ≠ [] := by
  refine h.induct (motive := fun book => book.run.stage = .adjusting → book.listImbalances ≠ [])
    (fun book isNew adjusting => ?_) fun book counters now user action d reply before houtcome => ?_
  · obtain ⟨id, group, store, leader, participation, now, rfl⟩ := isNew
    cases adjusting
  · exact fun adjusting => houtcome.listImbalances_ne_nil adjusting before

/-- Let a stored run be adjusting. Although the table of stages has a move to distributing, nobody
can complete the shopping: that fails and stores nothing. Only its leader ends the adjusting, by
finishing it or by cancelling the run, and finishes it without force exactly if the committed total
of every purchased product is what was bought. -/
theorem adjusting_not_bypassed {terms : Terms} {desk : Desk} {run : RunId} {book : OrderBook}
    (h : desk.Reachable terms) (finds : desk.repository.store.find? run = some book)
    (adjusting : book.run.stage = .adjusting) :
    book.run.stage.canMove .distributing = true ∧
      (∀ user now, ∃ why after,
        (Desk.handle terms run ⟨user, .completeShopping⟩ now).on desk = (.error why, after) ∧
          after.repository.store = desk.repository.store ∧ after.journal = desk.journal) ∧
      (∀ command now reply after later,
        (Desk.handle terms run command now).on desk = (.ok reply, after) →
          after.repository.store.find? run = some later → later.run.stage ≠ .adjusting →
            book.leader?.any (·.user = command.user) = true ∧
              (command.action = .cancel ∨ ∃ force, command.action = .finishAdjusting force)) ∧
      ∀ user counters now, book.leader?.any (·.user = user) = true →
        (((Draft.ofBook book counters now).execute terms.limits
            ⟨user, .finishAdjusting false⟩).1.isOk = true ↔
          ∀ item ∈ book.items, item.isPurchased = true →
            item.purchasedQuantity = some (book.demand item.product)) := by
  have hreachable := h.book (Store.mem_of_find? finds)
  have hunsettled := hreachable.listImbalances_ne_nil adjusting
  refine ⟨by rw [adjusting]; rfl, fun user now => ?_, ?_, fun user counters now leads => ?_⟩
  · rcases hhandle : (Desk.handle terms run ⟨user, .completeShopping⟩ now).on desk with
      ⟨why | reply, after⟩
    · have hkeeps := Desk.handle_error h.isUnraced hhandle
      exact ⟨why, after, rfl, hkeeps.store, hkeeps.journal⟩
    · obtain ⟨d, houtcome, _⟩ := Desk.handle_ok_of_find? h.isUnraced finds hhandle
      exact absurd houtcome (Draft.not_outcome_completeShopping adjusting hunsettled)
  · intro command now reply after later hhandle hlater hends
    obtain ⟨d, houtcome, hstored⟩ := Desk.handle_ok_of_find? h.isUnraced finds hhandle
    obtain rfl : d.book = later := Option.some.inj (hstored.symm.trans hlater)
    exact houtcome.ends_adjusting adjusting hunsettled hends
  · rw [Draft.finishAdjusting_isOk_iff (d := .ofBook book counters now) adjusting leads]
    exact OrderBook.imbalances_eq_nil_iff_of_isSoundList hreachable.isConsistent.list

/-- Five were bought of six. The leader can neither complete the shopping nor finish without
force. -/
theorem adjusting_not_bypassed_in_trip :
    ∃ book : OrderBook,
      (Desk.opened.takeAll Desk.tripTerms Desk.tripTurns).repository.store.find? ⟨1⟩ = some book ∧
      book.run.stage = .adjusting ∧
      (∃ why after,
        (Desk.handle Desk.tripTerms ⟨1⟩ ⟨⟨1⟩, .completeShopping⟩ (.ofSeconds 60)).on
            (Desk.opened.takeAll Desk.tripTerms Desk.tripTurns) = (.error why, after) ∧
          after.repository.store.find? ⟨1⟩ = some book) ∧
      ((Draft.ofBook book .start (.ofSeconds 60)).execute Desk.tripTerms.limits
        ⟨⟨1⟩, .finishAdjusting false⟩).1.isOk = false := by
  have hfound : ((Desk.opened.takeAll Desk.tripTerms Desk.tripTurns).repository.store.find?
      ⟨1⟩).any (fun b => b.run.stage = .adjusting ∧ b.leader?.any (·.user = ⟨1⟩) ∧
        b.items.any fun item => item.isPurchased ∧
          item.purchasedQuantity ≠ some (b.demand item.product)) = true := by
    decide +kernel
  obtain ⟨book, finds, hbook⟩ := (Option.any_eq_true _ _).mp hfound
  simp only [decide_eq_true_eq, List.any_eq_true] at hbook
  obtain ⟨adjusting, leads, item, hitem, hpurchased, hquantity⟩ := hbook
  obtain ⟨_, hcomplete, _, hfinish⟩ := adjusting_not_bypassed ⟨Desk.tripTurns, rfl⟩ finds adjusting
  obtain ⟨why, after, hhandle, hstore, _⟩ := hcomplete ⟨1⟩ (.ofSeconds 60)
  refine ⟨book, finds, adjusting, ⟨why, after, hhandle, by rw [hstore]; exact finds⟩, ?_⟩
  rw [← Bool.not_eq_true, hfinish ⟨1⟩ .start (.ofSeconds 60) leads]
  exact fun hall => hquantity (hall item hitem hpurchased)

end BuyingClub
