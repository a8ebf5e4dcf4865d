import BuyingClub.Proofs.Numbering
import BuyingClub.Proofs.OrderBook.Operations

/-!
# How rows are entered

Bids and lines are entered at the end of a book, with numbers that are drawn one after the other.
What a row is known by stays as it was entered.
-/

namespace BuyingClub

/-! ## Bids -/

abbrev BidRow := BidId × ParticipationId × ProductId

/-- What a bid is known by. -/
def Bid.row (b : Bid) : BidRow := (b.id, b.participation, b.product)

variable {known : List ParticipationId} {next next' : Nat} {rows rows' : List BidRow}
  {bids : List Bid} {participation : ParticipationId} {product : ProductId}

theorem mem_keys_iff :
    (participation, product) ∈ (bids.map Bid.row).map (·.2) ↔
      ∃ b ∈ bids, b.isOf participation product = true := by
  simp [Bid.row, Bid.isOf]

/-- Bids are entered one after the other, each for one of the known participations, on a product on
which it has no bid yet. -/
inductive Enters (known : List ParticipationId) (next : Nat) (rows : List BidRow) :
    Nat → Nat → List BidRow → Prop
  | none : Enters known next rows 0 next rows
  | one {count next' : Nat} {rows' : List BidRow} {participation : ParticipationId}
      {product : ProductId} (before : Enters known next rows count next' rows')
      (isKnown : participation ∈ known) (isNew : (participation, product) ∉ rows'.map (·.2)) :
      Enters known next rows (count + 1) (followingNumber next')
        (rows' ++ [(⟨next'⟩, participation, product)])

namespace Enters

variable {count : Nat}

theorem trans {count' next'' : Nat} {rows'' : List BidRow}
    (h : Enters known next rows count next' rows')
    (h' : Enters known next' rows' count' next'' rows'') :
    Enters known next rows (count + count') next'' rows'' := by
  induction h' with
  | none => exact h
  | one _ isKnown isNew ih => exact .one ih isKnown isNew

theorem ids (h : Enters known next rows count next' rows') :
    next' = followingNumber^[count] next ∧
      rows'.map (·.1) = rows.map (·.1) ++ drawn .bid next count := by
  induction h with
  | none => exact ⟨rfl, by simp [drawn]⟩
  | one before isKnown isNew ih =>
    obtain ⟨rfl, hids⟩ := ih
    refine ⟨(Function.iterate_succ_apply' ..).symm, ?_⟩
    rw [List.map_append, hids, List.append_assoc, drawn_succ]
    rfl

theorem nodup_keys (h : Enters known next rows count next' rows')
    (before : (rows.map (·.2)).Nodup) : (rows'.map (·.2)).Nodup := by
  induction h with
  | none => exact before
  | one _ isKnown isNew ih =>
    rw [List.map_append]
    exact ih.append (List.nodup_singleton _) (List.disjoint_singleton.mpr isNew)

theorem mem_known (h : Enters known next rows count next' rows')
    (before : ∀ row ∈ rows, row.2.1 ∈ known) : ∀ row ∈ rows', row.2.1 ∈ known := by
  induction h with
  | none => exact before
  | one _ isKnown isNew ih =>
    intro row hrow
    rcases List.mem_append.mp hrow with hrow | hrow
    · exact ih row hrow
    · rw [List.mem_singleton.mp hrow]
      exact isKnown

end Enters

namespace OrderBook

variable {book after : OrderBook} {counters counters' : Counters} {now : Instant}

/-! ### Placing bids -/

theorem placeBid_counters {limits : Limits} {request : BidRequest} {placed : PlacedBid}
    (h : book.placeBid limits request now counters = .ok placed) :
    placed.counters = { counters with bid := placed.counters.bid } := by
  rcases (placeBid_eq_ok_iff.mp h).2 with ⟨_, _, rfl⟩ | ⟨_, _, rfl⟩ <;> rfl

theorem placeBid_enters {limits : Limits} {request : BidRequest} {placed : PlacedBid}
    (h : book.placeBid limits request now counters = .ok placed)
    (isKnown : request.participation ∈ known) :
    ∃ count ≤ 1, Enters known counters.bid (book.bids.map Bid.row) count placed.counters.bid
      (placed.book.bids.map Bid.row) := by
  rcases (placeBid_eq_ok_iff.mp h).2 with ⟨previous, _, rfl⟩ | ⟨unknown, _, rfl⟩
  · have hrows := map_updateFirst (·.isOf request.participation request.product)
      (request.revise now) Bid.row (fun _ => rfl) book.bids
    refine ⟨0, Nat.zero_le _, ?_⟩
    rw [hrows]
    exact .none
  · refine ⟨1, Nat.le_refl _, ?_⟩
    rw [List.map_append]
    refine .one .none isKnown fun hmem => ?_
    obtain ⟨b, hb, hof⟩ := mem_keys_iff.mp hmem
    exact List.find?_eq_none.mp unknown b hb hof

end OrderBook

/-! ### The handout -/

theorem map_prorate {β : Type} (f : Bid → β)
    (keeps : ∀ b quantity price, f (b.handedOut quantity price) = f b) (bought : Purchase)
    (requested remaining : Quantity) (bids : List Bid) :
    (prorate bought requested remaining bids).map f = bids.map f := by
  induction bids generalizing remaining with
  | nil => rfl
  | cons b rest ih =>
    unfold prorate
    split
    · rw [List.map_cons, List.map_cons, ih, keeps]
    · rw [List.map_cons, List.map_cons, ih]

theorem map_fulfil {β : Type} (f : Bid → β)
    (keeps : ∀ b quantity price, f (b.handedOut quantity price) = f b) (bought : Purchase)
    (bids : List Bid) : (fulfil bought bids).map f = bids.map f := by
  unfold fulfil
  rw [List.map_map]
  refine List.map_congr_left fun b _ => ?_
  rw [Function.comp_apply]
  split
  · exact keeps b _ _
  · rfl

theorem grantSurplus_enters {surplus : Quantity} {now : Instant} {counters : Counters}
    (isKnown : participation ∈ known) :
    ∃ count ≤ 1, Enters known counters.bid (bids.map Bid.row) count
      (grantSurplus participation product surplus now bids counters).2.bid
      ((grantSurplus participation product surplus now bids counters).1.map Bid.row) := by
  unfold grantSurplus
  split
  · have hrows := map_updateFirst (·.isOf participation product) (·.absorb surplus now) Bid.row
      (fun _ => rfl) bids
    refine ⟨0, Nat.zero_le _, ?_⟩
    rw [hrows]
    exact .none
  · rename_i hnone
    refine ⟨1, Nat.le_refl _, ?_⟩
    rw [List.map_append]
    refine .one .none isKnown fun hmem => hnone ?_
    exact List.any_eq_true.mpr (mem_keys_iff.mp hmem)

theorem grantSurplus_counters {surplus : Quantity} {now : Instant} {counters : Counters} :
    (grantSurplus participation product surplus now bids counters).2 =
      { counters with
        bid := (grantSurplus participation product surplus now bids counters).2.bid } := by
  unfold grantSurplus
  split <;> rfl

namespace OrderBook

variable {book after : OrderBook} {counters counters' : Counters} {now : Instant}
  {leader : ParticipationId}

theorem handOutProduct_counters (leader : ParticipationId) (bought : Purchase) (book : OrderBook)
    (counters : Counters) (now : Instant) :
    (handOutProduct leader now bought book counters).2.2 =
      { counters with bid := (handOutProduct leader now bought book counters).2.2.bid } := by
  unfold handOutProduct
  dsimp only
  split
  · rfl
  · split
    · exact grantSurplus_counters
    · rfl

theorem handOutProduct_enters (isKnown : leader ∈ known) (bought : Purchase) (book : OrderBook)
    (counters : Counters) (now : Instant) :
    ∃ count ≤ 1, Enters known counters.bid (book.bids.map Bid.row) count
      (handOutProduct leader now bought book counters).2.2.bid
      ((handOutProduct leader now bought book counters).2.1.bids.map Bid.row) := by
  unfold handOutProduct
  dsimp only
  split
  · refine ⟨0, Nat.zero_le _, ?_⟩
    show Enters _ _ _ _ _ ((prorate _ _ _ _).map _)
    rw [map_prorate Bid.row fun _ _ _ => rfl]
    exact .none
  · split
    · show ∃ count ≤ 1, Enters _ _ _ count _ ((fulfil _ _).map _)
      rw [map_fulfil Bid.row fun _ _ _ => rfl]
      exact grantSurplus_enters isKnown
    · refine ⟨0, Nat.zero_le _, ?_⟩
      show Enters _ _ _ _ _ ((fulfil _ _).map _)
      rw [map_fulfil Bid.row fun _ _ _ => rfl]
      exact .none

theorem handOutAll_counters (leader : ParticipationId) (purchases : List Purchase)
    (book : OrderBook) (counters : Counters) (now : Instant) :
    (handOutAll leader now purchases book counters).2.2 =
      { counters with bid := (handOutAll leader now purchases book counters).2.2.bid } := by
  induction purchases generalizing book counters with
  | nil => rfl
  | cons bought rest ih =>
    rw [handOutAll_cons]
    dsimp only
    rw [ih, handOutProduct_counters]

theorem handOutAll_enters (isKnown : leader ∈ known) (purchases : List Purchase)
    (book : OrderBook) (counters : Counters) (now : Instant) :
    ∃ count ≤ purchases.length, Enters known counters.bid (book.bids.map Bid.row) count
      (handOutAll leader now purchases book counters).2.2.bid
      ((handOutAll leader now purchases book counters).2.1.bids.map Bid.row) := by
  induction purchases generalizing book counters with
  | nil => exact ⟨0, Nat.le_refl _, .none⟩
  | cons bought rest ih =>
    obtain ⟨count, hcount, hone⟩ := handOutProduct_enters isKnown bought book counters now
    obtain ⟨count', hcount', hrest⟩ := ih (handOutProduct leader now bought book counters).2.1
      (handOutProduct leader now bought book counters).2.2
    refine ⟨count + count', ?_, ?_⟩
    · rw [List.length_cons]
      omega
    · rw [handOutAll_cons]
      exact hone.trans hrest

theorem handOut_counters {allocations : List Allocation}
    (h : book.handOut now counters = .ok (allocations, after, counters')) :
    counters' = { counters with bid := counters'.bid } := by
  obtain ⟨leader, _, hall⟩ := handOut_eq_ok_iff.mp h
  have hcounters := handOutAll_counters leader.id book.purchases book counters now
  rw [hall] at hcounters
  exact hcounters

theorem handOut_enters {allocations : List Allocation}
    (h : book.handOut now counters = .ok (allocations, after, counters')) :
    ∃ count ≤ book.items.length,
      Enters (book.participations.map (·.id)) counters.bid (book.bids.map Bid.row) count
        counters'.bid (after.bids.map Bid.row) := by
  obtain ⟨leader, hleader, hall⟩ := handOut_eq_ok_iff.mp h
  have hknown : leader.id ∈ book.participations.map (·.id) :=
    List.mem_map_of_mem (List.mem_of_find?_eq_some hleader)
  obtain ⟨count, hcount, henters⟩ :=
    handOutAll_enters hknown book.purchases book counters now
  rw [hall] at henters
  exact ⟨count, Nat.le_trans hcount (List.length_filterMap_le ..), henters⟩

end OrderBook

/-! ## Lines -/

/-- What a line is known by, besides its product. -/
def ShoppingItem.row (item : ShoppingItem) : ItemId × RunId := (item.id, item.run)

theorem itemsToBuy_enters (run : RunId) (totals : List (ProductId × Quantity))
    (counters : Counters) :
    (itemsToBuy run totals counters).1.map (·.row) =
        (drawn .item counters.item totals.length).map (fun id => (id, run)) ∧
      (itemsToBuy run totals counters).2 =
        { counters with item := followingNumber^[totals.length] counters.item } := by
  induction totals generalizing counters with
  | nil => exact ⟨rfl, rfl⟩
  | cons entry rest ih =>
    obtain ⟨product, total⟩ := entry
    obtain ⟨hrows, hcounters⟩ := ih counters.drawItem.2
    unfold itemsToBuy
    dsimp only
    rw [List.map_cons, hrows, hcounters, List.length_cons, drawn_succ', List.map_cons]
    exact ⟨rfl, rfl⟩

end BuyingClub
