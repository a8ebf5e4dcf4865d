import BuyingClub.Proofs.Command.Frame
import BuyingClub.Proofs.OrderBook.Sharing
import BuyingClub.Proofs.OrderBook.ShoppingList

/-!
# The rows that commands enter

Whatever a command does, it enters participants, bids and lines at the end of the book, with
numbers from the counters. Only a retraction removes a row, and it enters none.
-/

namespace BuyingClub

namespace Draft

variable {limits : Limits} {d after : Draft} {user : UserId} {action : Action} {reply : Reply}

/-! ## Participants -/

theorem Gathers.ids {participations : List Participation} {next : Nat}
    (h : d.Gathers user participations next) :
    ∃ count ≤ 1, next = followingNumber^[count] d.counters.participation ∧
      participations.map (·.id) =
        d.book.participations.map (·.id) ++
          drawn .participation d.counters.participation count := by
  cases h with
  | stays => exact ⟨0, Nat.zero_le _, rfl, by simp [drawn]⟩
  | joins unknown => exact ⟨1, Nat.le_refl _, rfl, by simp [drawn, Participation.join]⟩
  | marks keeps =>
    refine ⟨0, Nat.zero_le _, rfl, ?_⟩
    rw [map_updateFirst _ _ Participation.id fun p => by rw [keeps p]]
    simp [drawn]

theorem Gathers.map_participation? {β : Type} {participations : List Participation} {next : Nat}
    {book : OrderBook} {id : ParticipationId} (h : d.Gathers user participations next)
    (same : book.participations = participations)
    (known : id ∈ d.book.participations.map (·.id)) (f : Participation → β)
    (keeps : ∀ p isReady isHelper, f { p with isReady, isHelper } = f p) :
    (book.participation? id).map f = (d.book.participation? id).map f := by
  have hsome : (d.book.participations.find? (·.id = id)).isSome = true := by
    obtain ⟨p, hp, rfl⟩ := List.mem_map.mp known
    exact List.find?_isSome.mpr ⟨p, hp, decide_eq_true rfl⟩
  unfold OrderBook.participation?
  rw [same]
  cases h with
  | stays => rfl
  | joins unknown => rw [List.find?_append, Option.or_of_isSome hsome]
  | marks marks =>
    refine map_find?_updateFirst f (fun p => by rw [marks p]) fun p => ?_
    rw [marks p]
    exact keeps p _ _

theorem Gathers.advances {participations : List Participation} {next : Nat}
    (h : d.Gathers user participations next) :
    Advances 1 d.counters.participation (d.book.participations.map (·.id)) next
      (participations.map (·.id)) := by
  obtain ⟨count, hcount, hnext, hids⟩ := h.ids
  exact ⟨_, count, List.Sublist.refl _, hcount, hnext, hids⟩

/-! ## Bids -/

/-- What may become of the bids and of their counter: some are entered, or some are removed. -/
inductive Bids (d : Draft) (known : List ParticipationId) : List Bid → Nat → Prop
  | enters {count next : Nat} {bids : List Bid} (few : count ≤ max 1 d.book.items.length)
      (enters : Enters known d.counters.bid (d.book.bids.map Bid.row) count next
        (bids.map Bid.row)) :
      Bids d known bids next
  | removes {bids : List Bid} (fewer : bids.Sublist d.book.bids) : Bids d known bids d.counters.bid

namespace Bids

variable {known : List ParticipationId} {bids : List Bid} {next : Nat}

theorem same : d.Bids known d.book.bids d.counters.bid :=
  .enters (Nat.zero_le _) .none

theorem advances (h : d.Bids known bids next) :
    Advances (max 1 d.book.items.length) d.counters.bid (d.book.bids.map (·.id)) next
      (bids.map (·.id)) := by
  cases h with
  | enters few enters =>
    obtain ⟨hnext, hids⟩ := enters.ids
    rw [List.map_map, List.map_map] at hids
    exact ⟨_, _, List.Sublist.refl _, few, hnext, hids⟩
  | removes fewer => exact .of_sublist (fewer.map _)

theorem mem_known (h : d.Bids known bids next)
    (before : ∀ b ∈ d.book.bids, b.participation ∈ known) :
    ∀ b ∈ bids, b.participation ∈ known := by
  cases h with
  | enters few enters =>
    have hrows : ∀ row ∈ d.book.bids.map Bid.row, row.2.1 ∈ known :=
      List.forall_mem_map.mpr before
    exact fun b hb => enters.mem_known hrows b.row (List.mem_map_of_mem hb)
  | removes fewer => exact fun b hb => before b (fewer.subset hb)

theorem nodup_keys (h : d.Bids known bids next)
    (before : (d.book.bids.map fun b => (b.participation, b.product)).Nodup) :
    (bids.map fun b => (b.participation, b.product)).Nodup := by
  cases h with
  | enters few enters =>
    have hkeys := enters.nodup_keys (by rw [List.map_map]; exact before)
    rw [List.map_map] at hkeys
    exact hkeys
  | removes fewer => exact before.sublist (fewer.map _)

end Bids

theorem bids_of_handOut {allocations : List Allocation} {book : OrderBook} {counters : Counters}
    {now : Instant}
    (handsOut : d.book.handOut now d.counters = .ok (allocations, book, counters)) :
    d.Bids (book.participations.map (·.id)) book.bids counters.bid := by
  obtain ⟨count, hcount, henters⟩ := OrderBook.handOut_enters handsOut
  rw [OrderBook.handOut_participations handsOut]
  exact .enters (Nat.le_trans hcount (Nat.le_max_right ..)) henters

theorem Outcome.bids (h : d.Outcome limits user action after reply) :
    d.Bids (after.book.participations.map (·.id)) after.book.bids after.counters.bid := by
  cases h with
  | @bidPlaced product _ _ _ participation _ admitted _ placed admits fits places moves =>
    subst moves
    rw [movedIf_participations, movedIf_bids, movedIf_counters]
    have hknown : participation ∈ admitted.book.participations.map (·.id) := by
      cases admits with
      | participant isOpen reads finds =>
        exact List.mem_map_of_mem (List.mem_of_find?_eq_some finds)
      | newcomer =>
        exact List.mem_map_of_mem (List.mem_append_right _ (List.mem_singleton_self _))
    have hcounter : admitted.counters.bid = d.counters.bid := by
      cases admits <;> rfl
    obtain ⟨count, hcount, henters⟩ := OrderBook.placeBid_enters places hknown
    rw [admits.frame.2.1, hcounter, ← (OrderBook.placeBid_frame places).2.1] at henters
    exact .enters (Nat.le_trans hcount (Nat.le_max_left ..)) henters
  | bidRetracted isOpen finds fits retracts moves =>
    obtain ⟨_, rfl⟩ := OrderBook.retractBid_eq_ok_iff.mp retracts
    subst moves
    rw [movedIf_participations, movedIf_bids, movedIf_counters]
    exact .removes List.eraseP_sublist
  | readyToggled isActive finds moves =>
    subst moves
    rw [movedIf_participations, movedIf_bids, movedIf_counters]
    exact .same
  | shoppingStarted leads allowed drawsUp =>
    obtain ⟨_, rfl, rfl⟩ := OrderBook.drawUpList_eq_ok_iff.mp drawsUp
    show d.Bids _ d.book.bids (itemsToBuy _ _ _).2.bid
    rw [(itemsToBuy_enters ..).2]
    exact .same
  | shoppingBalanced leads allowed balanced handsOut =>
    have hbids := bids_of_handOut handsOut
    exact hbids
  | adjustingFinished leads isAdjusting balanced handsOut =>
    have hbids := bids_of_handOut handsOut
    exact hbids
  | @pickedUp bid b isDistributing mayShop finds hasGoods =>
    have hid := OrderBook.id_of_bid? finds
    subst hid
    have hrows : (d.pickedUp user b).book.bids.map Bid.row = d.book.bids.map Bid.row :=
      map_updateFirst_of_find? Bid.row finds rfl
    refine .enters (Nat.zero_le _) ?_
    rw [hrows]
    exact .none
  | _ => exact .same

/-! ## Lines -/

/-- What may become of the lines and of their counter: some are entered, no more than there are
bids. -/
def Lines (d : Draft) (items : List ShoppingItem) (next : Nat) : Prop :=
  ∃ count ≤ d.book.bids.length, next = followingNumber^[count] d.counters.item ∧
    items.map (·.row) = d.book.items.map (·.row) ++
      (drawn .item d.counters.item count).map fun id => (id, d.book.run.id)

namespace Lines

variable {items : List ShoppingItem} {next : Nat}

theorem of_eq (h : items.map (·.row) = d.book.items.map (·.row)) : d.Lines items d.counters.item :=
  ⟨0, Nat.zero_le _, rfl, by simp [drawn, h]⟩

theorem same : d.Lines d.book.items d.counters.item := .of_eq rfl

theorem advances (h : d.Lines items next) :
    Advances d.book.bids.length d.counters.item (d.book.items.map (·.id)) next
      (items.map (·.id)) := by
  obtain ⟨count, hcount, hnext, hrows⟩ := h
  have hids := congrArg (List.map (·.1)) hrows
  rw [List.map_append, List.map_map, List.map_map, List.map_map] at hids
  refine ⟨_, count, List.Sublist.refl _, hcount, hnext, hids.trans ?_⟩
  exact congrArg _ (List.map_id _)

theorem ofRun (h : d.Lines items next) (before : ∀ item ∈ d.book.items, item.run = d.book.run.id) :
    ∀ item ∈ items, item.run = d.book.run.id := by
  obtain ⟨count, _, _, hrows⟩ := h
  have hbefore : ∀ row ∈ d.book.items.map (·.row), row.2 = d.book.run.id :=
    List.forall_mem_map.mpr before
  have hafter : ∀ row ∈ items.map (·.row), row.2 = d.book.run.id := by
    rw [hrows]
    exact List.forall_mem_append.mpr ⟨hbefore, List.forall_mem_map.mpr fun _ _ => rfl⟩
  exact fun item hitem => hafter item.row (List.mem_map_of_mem hitem)

end Lines

theorem lines_of_handOut {allocations : List Allocation} {book : OrderBook} {counters : Counters}
    {now : Instant}
    (handsOut : d.book.handOut now d.counters = .ok (allocations, book, counters)) :
    d.Lines book.items counters.item := by
  rw [OrderBook.handOut_counters handsOut]
  exact .of_eq (OrderBook.handOut_items handsOut (·.row) fun _ _ => rfl)

theorem Outcome.lines (h : d.Outcome limits user action after reply) :
    d.Lines after.book.items after.counters.item := by
  cases h with
  | @bidPlaced _ _ _ _ _ _ admitted _ placed admits fits places moves =>
    subst moves
    rw [movedIf_items, movedIf_counters]
    show d.Lines placed.book.items placed.counters.item
    rw [(admits.frame_placed places).2, OrderBook.placeBid_counters places]
    cases admits <;> exact .same
  | bidRetracted isOpen finds fits retracts moves =>
    obtain ⟨_, rfl⟩ := OrderBook.retractBid_eq_ok_iff.mp retracts
    subst moves
    rw [movedIf_items, movedIf_counters]
    exact .same
  | readyToggled isActive finds moves =>
    subst moves
    rw [movedIf_items, movedIf_counters]
    exact .same
  | shoppingStarted leads allowed drawsUp =>
    obtain ⟨hnone, rfl, rfl⟩ := OrderBook.drawUpList_eq_ok_iff.mp drawsUp
    obtain ⟨hrows, hcounters⟩ := itemsToBuy_enters d.book.run.id
      (d.book.demands.filter fun entry => 0 < entry.2) d.counters
    refine ⟨_, Nat.le_trans (List.length_filter_le ..) d.book.length_demands_le,
      congrArg Counters.item hcounters, ?_⟩
    rw [hnone]
    exact hrows
  | purchaseRecorded isShopping mayShop reads finds =>
    have hproduct := OrderBook.product_of_itemFor? finds
    subst hproduct
    exact .of_eq (map_updateFirst_of_find? ShoppingItem.row finds rfl)
  | purchaseUndone isShopping mayShop finds wasBought =>
    exact .of_eq (map_updateFirst_of_find? ShoppingItem.row finds rfl)
  | shoppingBalanced leads allowed balanced handsOut =>
    have hlines := lines_of_handOut handsOut
    exact hlines
  | adjustingFinished leads isAdjusting balanced handsOut =>
    have hlines := lines_of_handOut handsOut
    exact hlines
  | _ => exact .same

end Draft

end BuyingClub
