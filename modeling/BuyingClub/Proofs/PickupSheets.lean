import BuyingClub.Proofs.Endings
import BuyingClub.Proofs.History
import BuyingClub.Proofs.Limits.Amounts
import BuyingClub.Proofs.OrderBook.PickupSheet

/-!
# Pickup sheets of stored runs

The sheet of a stored run can be drawn up at any time. It is empty until goods are handed out, and
from then on it shows all that was bought, also when the run is cancelled later.
-/

namespace BuyingClub

/-! ## When goods were handed out -/

theorem Stage.isAfterHandout_of_canMove {old new : Stage} (h : old.canMove new = true)
    (hnew : new.isAfterHandout = true) (hne : new ≠ .distributing) : old.isAfterHandout = true := by
  cases old <;> cases new <;> simp_all [canMove, next, isAfterHandout]

theorem Stage.eq_cancelled {stage : Stage} (notBefore : ¬ stage.isBeforeHandout = true)
    (notAfter : stage.isAfterHandout = false) : stage = .cancelled := by
  cases stage <;> simp_all [isBeforeHandout, isAfterHandout]

/-- The run has distributed, whatever became of it. -/
def OrderBook.HasDistributed (book : OrderBook) : Prop :=
  .distributing ∈ book.run.history.map (·.stage)

instance (book : OrderBook) : Decidable book.HasDistributed :=
  inferInstanceAs (Decidable (_ ∈ _))

namespace Draft

variable {limits : Limits} {d after : Draft} {user : UserId} {action : Action} {reply : Reply}

theorem Follows.hasDistributed_iff {run : Run} (h : d.Follows run) :
    .distributing ∈ run.history.map (·.stage) ↔
      d.book.HasDistributed ∨ d.stage ≠ .distributing ∧ run.stage = .distributing := by
  cases h with
  | stays =>
    have hstage : d.stage = d.book.run.stage := rfl
    refine ⟨.inl, fun h => h.resolve_right fun hmoved => hmoved.1 hmoved.2⟩
  | @moves new allowed =>
    have hne : new = .distributing → d.stage ≠ .distributing := by
      rintro rfl hstage
      rw [hstage] at allowed
      cases allowed
    simp only [Run.enter, List.map_append, List.mem_append, List.map_cons, List.map_nil,
      List.mem_singleton, OrderBook.HasDistributed]
    refine or_congr_right ⟨fun h => ⟨hne h.symm, h.symm⟩, fun h => h.2.symm⟩

theorem Outcome.frame_of_cancelled (h : d.Outcome limits user action after reply)
    (cancels : after.stage = .cancelled) :
    after.book.bids = d.book.bids ∧ after.book.items = d.book.items := by
  have hfinal := h.isFinal_eq
  rw [cancels] at hfinal
  cases h with
  | cancelled leads allowed => exact ⟨rfl, rfl⟩
  | completed leads isDistributing isDone => cases cancels
  | _ => cases hfinal

theorem Follows.stage {run : Run} (h : d.Follows run) :
    run.stage = d.stage ∨ d.stage.canMove run.stage = true := by
  cases h with
  | stays => exact .inl rfl
  | moves allowed => exact .inr allowed

end Draft

namespace OrderBook

variable {limits : Limits} {book after : OrderBook}

theorem IsShared.congr (h : book.IsShared) (bids : after.bids = book.bids)
    (items : after.items = book.items) : after.IsShared := by
  have hpurchases : after.purchases = book.purchases := by rw [purchases_eq, purchases_eq, items]
  refine ⟨?_, ?_⟩
  · rw [hpurchases, bids]
    exact h.purchases
  · rw [hpurchases, bids]
    exact h.others

/-- Either goods were handed out, and all that was bought is shared, or nobody has any. -/
inductive IsHandedOutOrNot (book : OrderBook) : Prop
  | handedOut (has : book.HasDistributed) (stage : book.run.stage.isBeforeHandout = false)
      (shared : book.IsShared)
  | not (hasNot : ¬ book.HasDistributed) (stage : book.run.stage.isAfterHandout = false)
      (emptyHanded : ∀ b ∈ book.bids, b.IsEmptyHanded)

theorem Reachable.isHandedOutOrNot (h : book.Reachable limits) : book.IsHandedOutOrNot := by
  induction h with
  | new isNew =>
    obtain ⟨id, group, store, leader, participation, now, rfl⟩ := isNew
    exact .not (by simp [HasDistributed, start, Run.start]) rfl (List.forall_mem_nil _)
  | @changed book after before changes ih =>
    have hconsistent := (before.changed changes).isConsistent
    obtain ⟨counters, now, user, action, d, reply, houtcome, rfl⟩ := changes
    have hhas : d.book.HasDistributed ↔
        book.HasDistributed ∨ book.run.stage ≠ .distributing ∧ d.book.run.stage = .distributing :=
      houtcome.follows.hasDistributed_iff
    have hstage : d.book.run.stage = book.run.stage ∨
        book.run.stage.canMove d.book.run.stage = true := houtcome.follows.stage
    cases ih with
    | handedOut has stage shared =>
      have hnotBefore : d.book.run.stage.isBeforeHandout = false := by
        refine Bool.eq_false_iff.mpr fun hbefore => ?_
        have hold : book.run.stage.isBeforeHandout = true := by
          rcases hstage with hsame | hmoved
          · exact hsame ▸ hbefore
          · exact Stage.isBeforeHandout_of_canMove hmoved hbefore
        rw [stage] at hold
        cases hold
      refine .handedOut (hhas.mpr (.inl has)) hnotBefore ?_
      by_cases hafter : d.book.run.stage.isAfterHandout = true
      · exact hconsistent.shared hafter
      · have hcancelled := Stage.eq_cancelled (by rw [hnotBefore]; exact Bool.false_ne_true)
          (Bool.eq_false_iff.mpr hafter)
        obtain ⟨hbids, hitems⟩ := houtcome.frame_of_cancelled hcancelled
        exact shared.congr hbids hitems
    | not hasNot stage emptyHanded =>
      by_cases hdistributing : d.book.run.stage = .distributing
      · have hnot : book.run.stage ≠ .distributing := by
          intro heq
          rw [heq] at stage
          cases stage
        refine .handedOut (hhas.mpr (.inr ⟨hnot, hdistributing⟩)) ?_ (hconsistent.shared ?_) <;>
          rw [hdistributing] <;> rfl
      · have hnotAfter : d.book.run.stage.isAfterHandout = false := by
          refine Bool.eq_false_iff.mpr fun hafter => ?_
          have hold : book.run.stage.isAfterHandout = true := by
            rcases hstage with hsame | hmoved
            · exact hsame ▸ hafter
            · exact Stage.isAfterHandout_of_canMove hmoved hafter hdistributing
          rw [stage] at hold
          cases hold
        refine .not (fun has => (hhas.mp has).elim hasNot fun hmoved => hdistributing hmoved.2)
          hnotAfter ?_
        by_cases hbefore : d.book.run.stage.isBeforeHandout = true
        · exact fun b hb => ((hconsistent.waiting hbefore).each b hb).emptyHanded
        · rw [(houtcome.frame_of_cancelled (Stage.eq_cancelled hbefore hnotAfter)).1]
          exact emptyHanded

/-! ## The sheet at any time -/

theorem IsTidy.isSome_bidder? (h : book.IsTidy) {b : Bid} (hb : b ∈ book.bids) :
    (book.bidder? b).isSome = true := by
  obtain ⟨p, hp, hid⟩ := List.mem_map.mp (h.bidders b hb)
  unfold bidder? participation?
  rw [Option.isSome_map]
  exact List.find?_isSome.mpr ⟨p, hp, decide_eq_true hid⟩

theorem IsPickupSheet.eq_nil {products : Names .product} {users : Names .user}
    {rows : List PickupRow} (h : book.IsPickupSheet products users rows)
    (emptyHanded : ∀ b ∈ book.bids, b.IsEmptyHanded) : rows = [] := by
  have hnone : book.bids.filter (·.isHandedOut) = [] := by
    refine List.filter_eq_nil_iff.mpr fun b hb hhanded => ?_
    rw [Bid.isHandedOut, (emptyHanded b hb).quantity, Option.isSome_none, Bool.and_false] at hhanded
    cases hhanded
  have hlines := h.lines
  rw [hnone] at hlines
  refine List.eq_nil_iff_forall_not_mem.mpr fun row hrow => (h.each row hrow).hasLines ?_
  have hflat : rows.flatMap (·.lines) = [] := List.map_eq_nil_iff.mp hlines.eq_nil
  exact List.flatMap_eq_nil_iff.mp hflat row hrow

/-- What the lines of a product cost together is what was paid for it, but for half a cent each. -/
def CostsWhatWasPaid (rows : List PickupRow) (item : ShoppingItem) : Prop :=
  ∀ quantity, item.bought? = some quantity → 0 < quantity →
    ∃ price, item.purchasedPrice = some price ∧
      let lines := (rows.flatMap (·.lines)).filter (·.product = item.product)
      (100 * (lines.map PickupLine.subtotal).sum.cents -
        price.cents * quantity.hundredths).natAbs ≤ 50 * lines.length

theorem Reachable.costsWhatWasPaid (h : book.Reachable limits) (has : book.HasDistributed)
    {products : Names .product} {users : Names .user} {rows : List PickupRow}
    (sheet : book.pickupSheet products users = .ok rows) :
    ∀ item ∈ book.items, CostsWhatWasPaid rows item := by
  intro item hitem quantity hquantity hpositive
  obtain ⟨_, price, _, hprice⟩ := h.isConsistent.list.priced item hitem
    (ShoppingItem.bought?_eq_some_iff.mp hquantity).1
  have hnonneg := ((h.keepsLimits.items item hitem).price price hprice).1
  have hbought : ⟨item.product, quantity, price⟩ ∈ book.purchases :=
    mem_purchases_iff.mpr ⟨item, hitem, quantity, hquantity, hpositive, by rw [hprice]; rfl⟩
  cases h.isHandedOutOrNot with
  | not hasNot => exact absurd has hasNot
  | handedOut _ _ shared =>
    have hnear := shared.subtotals_near (fun b hb => h.keepsLimits.tidy.isSome_bidder? hb) sheet
      hbought hnonneg
    exact ⟨price, hprice, hnear⟩

end OrderBook

/-- The sheet of a stored run is drawn up, under the default limits, whatever things and people are
called. It has a row for each user to whom something was handed out, and a line for each bid that
was handed something, in their order. It is empty until the run distributes. From then on the lines
of each product that was bought cost together what was paid for it, but for half a cent each. -/
theorem pickup_sheet_complete {terms : Terms} {desk : Desk} (h : desk.Reachable terms)
    (limits : terms.limits = .default) {run : RunId} {book : OrderBook}
    (finds : desk.repository.store.find? run = some book) (products : Names .product)
    (users : Names .user) :
    ∃ rows, book.pickupSheet products users = .ok rows ∧ book.IsPickupSheet products users rows ∧
      (¬ book.HasDistributed → rows = []) ∧
      (book.HasDistributed → ∀ item ∈ book.items, OrderBook.CostsWhatWasPaid rows item) := by
  have hreachable := h.book (Store.mem_of_find? finds)
  have fit : terms.limits.FitAmounts := limits ▸ Limits.fitAmounts_default
  obtain ⟨rows, _, hrows⟩ := (hreachable.computesInRange fit).sheet products users
  have hsheet := OrderBook.pickupSheet_isPickupSheet
    (fun b hb => hreachable.keepsLimits.tidy.isSome_bidder? hb) hrows
  refine ⟨rows, hrows, hsheet, fun hasNot => ?_, fun has => ?_⟩
  · cases hreachable.isHandedOutOrNot with
    | handedOut has => exact absurd has hasNot
    | not _ _ emptyHanded => exact hsheet.eq_nil emptyHanded
  · exact hreachable.costsWhatWasPaid has hrows

/-- Five are bought of six, and nothing is handed out yet. The sheet is empty. -/
theorem sheet_costs_nothing_before_handout :
    ∃ book rows, (Desk.opened.takeAll Desk.tripTerms
        (Desk.tripTurns.take 6)).repository.store.find? ⟨1⟩ = some book ∧
      book.pickupSheet [] [] = .ok rows ∧
      ∃ item ∈ book.items, ¬ OrderBook.CostsWhatWasPaid rows item := by
  have hfound : ((Desk.opened.takeAll Desk.tripTerms
      (Desk.tripTurns.take 6)).repository.store.find? ⟨1⟩).any (fun book =>
        (book.pickupSheet [] []).toOption.any (·.isEmpty) &&
          book.items.any fun item =>
            item.bought? = some (.units 5) && item.purchasedPrice = some ⟨100⟩) = true := by
    decide +kernel
  obtain ⟨book, finds, hbook⟩ := (Option.any_eq_true _ _).mp hfound
  obtain ⟨hsheet, hitems⟩ := Bool.and_eq_true_iff.mp hbook
  obtain ⟨rows, hrows, hempty⟩ := (Option.any_eq_true _ _).mp hsheet
  obtain ⟨item, hitem, hbought⟩ := List.any_eq_true.mp hitems
  simp only [Bool.and_eq_true, decide_eq_true_eq] at hbought
  obtain rfl := List.isEmpty_iff.mp hempty
  refine ⟨book, [], finds, ?_, item, hitem, fun hcosts => ?_⟩
  · cases h : book.pickupSheet [] [] with
    | error why =>
      rw [h] at hrows
      cases hrows
    | ok rows =>
      rw [h] at hrows
      cases hrows
      rfl
  · obtain ⟨price, hprice, hnear⟩ := hcosts _ hbought.1 (by decide)
    obtain rfl := Option.some.inj (hbought.2.symm.trans hprice)
    simp [Quantity.units] at hnear

/-- In a shortage of one in six, what the two get costs together what was paid for it. -/
theorem pickup_sheet_complete_in_shortage :
    ∃ book rows, (Desk.opened.takeAll Desk.tripTerms
        (Desk.tripTurns ++ [Desk.tripTurn 1 (.finishAdjusting true)])).repository.store.find? ⟨1⟩ =
          some book ∧
      book.pickupSheet [(⟨1⟩, "Rice")] [] = .ok rows ∧
      book.IsPickupSheet [(⟨1⟩, "Rice")] [] rows ∧
      ∀ item ∈ book.items, OrderBook.CostsWhatWasPaid rows item := by
  have hfound : ((Desk.opened.takeAll Desk.tripTerms
      (Desk.tripTurns ++ [Desk.tripTurn 1 (.finishAdjusting true)])).repository.store.find?
        ⟨1⟩).any (fun book => decide book.HasDistributed) = true := by decide +kernel
  obtain ⟨book, finds, has⟩ := (Option.any_eq_true _ _).mp hfound
  obtain ⟨rows, hrows, hsheet, _, hcosts⟩ :=
    pickup_sheet_complete ⟨_, rfl⟩ rfl finds [(⟨1⟩, "Rice")] []
  exact ⟨book, rows, finds, hrows, hsheet, hcosts (of_decide_eq_true has)⟩

end BuyingClub
