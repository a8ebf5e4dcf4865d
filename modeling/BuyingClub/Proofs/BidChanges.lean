import BuyingClub.Proofs.Adjusting
import BuyingClub.Proofs.Checked.Totals
import BuyingClub.Proofs.OrderBook.InPlace

/-!
# Changes of bids

A bid that is placed or retracted moves the committed totals by what it asks for itself, less what
the bid it replaces asked for. All other bids stay where they are.
-/

namespace BuyingClub

/-! ## What is asked for -/

/-- What the bid adds to the committed total of a product. -/
def Bid.asksFor (product : ProductId) (b : Bid) : Quantity :=
  if b.countsFor product then b.quantity else 0

def BidRequest.asksFor (product : ProductId) (request : BidRequest) : Quantity :=
  if request.product = product ∧ request.interestedOnly = false then request.quantity else 0

theorem Bid.hundredths_asksFor (b : Bid) (product : ProductId) :
    (b.asksFor product).hundredths = b.towards product := by
  unfold asksFor towards
  split <;> rfl

theorem BidRequest.hundredths_asksFor {request : BidRequest} {b : Bid} (product : ProductId)
    (sameProduct : b.product = request.product) (sameQuantity : b.quantity = request.quantity)
    (sameInterest : b.interestedOnly = request.interestedOnly) :
    (request.asksFor product).hundredths = b.towards product := by
  rw [OrderBook.towards_of_product product sameProduct, sameQuantity, sameInterest]
  unfold asksFor
  split <;> rfl

namespace OrderBook

variable {book after : OrderBook} {limits : Limits} {request : BidRequest} {now : Instant}
  {counters : Counters} {placed : PlacedBid} {bid : Bid} {participation : ParticipationId}
  {product : ProductId}

theorem bidOf?_eq_none_iff :
    book.bidOf? participation product = none ↔
      ∀ b ∈ book.bids, b.isOf participation product = false := by
  unfold bidOf?
  rw [List.find?_eq_none]
  simp only [Bool.not_eq_true]

/-! ## Totals -/

/-- Committed totals are moved, exactly and as they come out in 64 bits. -/
structure MovesTotals (book after : OrderBook) (moved : ProductId → Quantity → Quantity) :
    Prop where
  demand : ∀ product, after.demand product = moved product (book.demand product)
  checked : ∀ product total total', book.demand? product = some total →
    after.demand? product = some total' → total' = moved product total
  /-- With no negative bid, a total comes out in 64 bits exactly if it fits. -/
  comesOut_iff : (∀ b ∈ book.bids, 0 ≤ b.quantity) → ∀ product,
    after.demand? product = some (moved product (book.demand product)) ↔
      FitsAmount (moved product (book.demand product)).hundredths

theorem movesTotals_of_demand {moved : ProductId → Quantity → Quantity}
    (nonneg : (∀ b ∈ book.bids, 0 ≤ b.quantity) → ∀ b ∈ after.bids, 0 ≤ b.quantity)
    (demand : ∀ product, after.demand product = moved product (book.demand product)) :
    book.MovesTotals after moved where
  demand := demand
  checked := by
    intro product total total' hbefore hafter
    obtain ⟨rfl, _⟩ := of_demand? hbefore
    obtain ⟨rfl, _⟩ := of_demand? hafter
    exact demand product
  comesOut_iff := by
    intro hbefore product
    rw [← demand product, demand?_eq_some_iff (nonneg hbefore)]
    exact and_iff_right rfl

/-! ## Placing -/

/-- What a bid that is placed makes of the book. -/
structure Places (book : OrderBook) (request : BidRequest) (now : Instant) (counters : Counters)
    (placed : PlacedBid) : Prop where
  totals : book.MovesTotals placed.book fun product total =>
    total + request.asksFor product - placed.previous.elim 0 (·.asksFor product)
  /-- The bid is new exactly if there was none of this participation on this product. -/
  isNew_iff : placed.previous = none ↔
    ∀ b ∈ book.bids, b.isOf request.participation request.product = false
  /-- A revised bid stays in its place, with all that was not asked for now. -/
  revised : ∀ previous, placed.previous = some previous →
    ∃ before later, book.bids = before ++ previous :: later ∧
      (∀ b ∈ before, b.isOf request.participation request.product = false) ∧
      previous.isOf request.participation request.product = true ∧
      placed.bid = { previous with
        quantity := request.quantity
        interestedOnly := request.interestedOnly
        comment := request.comment
        updatedAt := now } ∧
      placed.book = { book with bids := before ++ placed.bid :: later } ∧
      placed.counters = counters
  /-- A new bid stands last, and once it is retracted the book is as before. -/
  entered : placed.previous = none →
    placed.bid = request.newBid ⟨counters.bid⟩ now ∧
      placed.book = { book with bids := book.bids ++ [placed.bid] } ∧
      placed.counters = counters.drawBid.2 ∧
      placed.book.retractBid request.participation request.product = .ok (placed.bid, book)

theorem demand_of_revise {previous : Bid}
    (finds : book.bidOf? request.participation request.product = some previous)
    (now : Instant) (product : ProductId) :
    ({ book with
        bids := updateFirst (·.isOf request.participation request.product) (request.revise now)
          book.bids } : OrderBook).demand product =
      book.demand product + request.asksFor product - previous.asksFor product := by
  have hproduct := (isOf_of_bidOf? finds).2
  ext
  simp only [Quantity.hundredths_sub, Quantity.hundredths_add, hundredths_demand,
    Bid.hundredths_asksFor, committedTotal_revise now finds]
  rw [BidRequest.hundredths_asksFor (b := request.revise now previous) product hproduct rfl rfl]
  omega

theorem demand_of_newBid (request : BidRequest) (id : BidId) (now : Instant)
    (product : ProductId) :
    ({ book with bids := book.bids ++ [request.newBid id now] } : OrderBook).demand product =
      book.demand product + request.asksFor product := by
  ext
  rw [Quantity.hundredths_add, hundredths_demand, hundredths_demand, committedTotal_append,
    BidRequest.hundredths_asksFor (b := request.newBid id now) product rfl rfl rfl]
  simp [committedTotal]

theorem retractBid_append (unknown : book.bidOf? participation product = none)
    (isOf : bid.isOf participation product = true) :
    ({ book with bids := book.bids ++ [bid] } : OrderBook).retractBid participation product =
      .ok (bid, book) := by
  have hnone := bidOf?_eq_none_iff.mp unknown
  rw [retractBid_eq_ok_iff]
  constructor
  · unfold bidOf? at unknown ⊢
    rw [List.find?_append, unknown]
    simp [isOf]
  · have herase : (book.bids ++ [bid]).eraseP (·.isOf participation product) = book.bids := by
      rw [List.eraseP_append_right _ fun b hb => by simp [hnone b hb]]
      simp [isOf]
    rw [herase]

theorem places_of_placeBid
    (h : book.placeBid limits request now counters = .ok placed) :
    book.Places request now counters placed := by
  obtain ⟨hchecked, hplaced⟩ := placeBid_eq_ok_iff.mp h
  have hrequest := (Limits.checkBid_eq_ok_iff.mp hchecked).1
  obtain ⟨previous, finds, rfl⟩ | ⟨unknown, _, rfl⟩ := hplaced
  · obtain ⟨before, later, hbids, hbefore, hupdate, _⟩ := exists_append_of_find? finds
    have hisOf := Bid.isOf_iff.mpr (isOf_of_bidOf? finds)
    refine ⟨movesTotals_of_demand (fun nonneg b hb => ?_) (demand_of_revise finds now),
      ⟨nofun, fun hnone => ?_⟩, ?_, nofun⟩
    · rcases mem_updateFirst hb with hb | ⟨_, _, rfl⟩
      · exact nonneg b hb
      · exact hrequest
    · rw [bidOf?_eq_none_iff.mpr hnone] at finds
      cases finds
    · rintro _ ⟨⟩
      refine ⟨before, later, hbids, hbefore, hisOf, rfl, ?_, rfl⟩
      rw [hupdate]
  · refine ⟨movesTotals_of_demand (fun nonneg b hb => ?_) fun product => ?_,
      ⟨fun _ => bidOf?_eq_none_iff.mp unknown, fun _ => rfl⟩, nofun, fun _ => ⟨rfl, rfl, rfl, ?_⟩⟩
    · rcases List.mem_append.mp hb with hb | hb
      · exact nonneg b hb
      · rw [List.mem_singleton.mp hb]
        exact hrequest
    · rw [demand_of_newBid]
      ext
      simp
    · exact retractBid_append unknown (Bid.isOf_iff.mpr ⟨rfl, rfl⟩)

theorem exists_placeBid_iff :
    (∃ placed, book.placeBid limits request now counters = .ok placed) ↔
      limits.checkBid request.quantity = .ok () ∧
        (request.product ∈ book.products ∨ book.products.length < limits.maxProducts) := by
  constructor
  · rintro ⟨placed, hplaced⟩
    obtain ⟨hchecked, ⟨previous, finds, _⟩ | ⟨_, hroom, _⟩⟩ := placeBid_eq_ok_iff.mp hplaced
    · refine ⟨hchecked, .inl ?_⟩
      rw [← (isOf_of_bidOf? finds).2]
      exact product_mem_products (List.mem_of_find?_eq_some finds)
    · exact ⟨hchecked, checkNewProduct_eq_ok_iff.mp hroom⟩
  · rintro ⟨hchecked, hroom⟩
    cases hfound : book.bidOf? request.participation request.product with
    | some previous => exact ⟨_, placeBid_eq_ok_iff.mpr ⟨hchecked, .inl ⟨previous, hfound, rfl⟩⟩⟩
    | none =>
      exact ⟨_, placeBid_eq_ok_iff.mpr
        ⟨hchecked, .inr ⟨hfound, checkNewProduct_eq_ok_iff.mpr hroom, rfl⟩⟩⟩

/-! ## Retracting -/

/-- What a bid that is retracted makes of the book. -/
structure Retracts (book : OrderBook) (participation : ParticipationId) (product : ProductId)
    (bid : Bid) (after : OrderBook) : Prop where
  totals : book.MovesTotals after fun other total => total - bid.asksFor other
  removed : ∃ before later, book.bids = before ++ bid :: later ∧
    (∀ b ∈ before, b.isOf participation product = false) ∧
    bid.isOf participation product = true ∧
    after = { book with bids := before ++ later }

theorem exists_retractBid_iff :
    (∃ bid after, book.retractBid participation product = .ok (bid, after)) ↔
      ∃ b ∈ book.bids, b.isOf participation product = true := by
  constructor
  · rintro ⟨bid, after, h⟩
    have finds := (retractBid_eq_ok_iff.mp h).1
    exact ⟨bid, List.mem_of_find?_eq_some finds, Bid.isOf_iff.mpr (isOf_of_bidOf? finds)⟩
  · intro h
    obtain ⟨bid, finds⟩ := Option.isSome_iff_exists.mp (List.find?_isSome.mpr h)
    exact ⟨bid, _, retractBid_eq_ok_iff.mpr ⟨finds, rfl⟩⟩

theorem retracts_of_retractBid (h : book.retractBid participation product = .ok (bid, after)) :
    book.Retracts participation product bid after := by
  obtain ⟨finds, rfl⟩ := retractBid_eq_ok_iff.mp h
  obtain ⟨before, later, hbids, hbefore, _, herase⟩ := exists_append_of_find? finds
  have hisOf := Bid.isOf_iff.mpr (isOf_of_bidOf? finds)
  refine ⟨movesTotals_of_demand (fun nonneg b hb => nonneg b (List.mem_of_mem_eraseP hb))
    fun other => ?_, before, later, hbids, hbefore, hisOf, ?_⟩
  · ext
    simp only [Quantity.hundredths_sub, hundredths_demand, Bid.hundredths_asksFor]
    exact sum_eraseP _ finds
  · rw [herase]

end OrderBook

/-- In any book, whatever is asked for, by whom and under which limits: a bid that is placed moves
each committed total by what it asks for, less what the bid it replaces asked for, and a bid that is
retracted by what it asked for. So it is with totals in 64 bits whenever they come out, which
without negative bids they do if they fit. The other bids stay as they are, in their order. Done in
place, a change that is refused leaves the book and the counters as they were. -/
theorem bids_move_totals_exactly (book : OrderBook) (limits : Limits) (request : BidRequest)
    (now : Instant) (counters : Counters) (participation : ParticipationId) (product : ProductId) :
    ((∃ placed, book.placeBid limits request now counters = .ok placed) ↔
      limits.checkBid request.quantity = .ok () ∧
        (request.product ∈ book.products ∨ book.products.length < limits.maxProducts)) ∧
    (∀ placed, book.placeBid limits request now counters = .ok placed →
      book.Places request now counters placed ∧
        (Edit.placeBid limits request now).on book counters =
          (.ok (placed.bid, placed.previous), placed.book, placed.counters)) ∧
    (∀ why, book.placeBid limits request now counters = .error why →
      (Edit.placeBid limits request now).on book counters = (.error why, book, counters)) ∧
    ((∃ bid after, book.retractBid participation product = .ok (bid, after)) ↔
      ∃ b ∈ book.bids, b.isOf participation product = true) ∧
    (∀ bid after, book.retractBid participation product = .ok (bid, after) →
      book.Retracts participation product bid after ∧
        (Edit.retractBid participation product).on book counters = (.ok bid, after, counters)) ∧
    ∀ why, book.retractBid participation product = .error why →
      (Edit.retractBid participation product).on book counters = (.error why, book, counters) := by
  refine ⟨OrderBook.exists_placeBid_iff, fun placed hplaced => ?_, fun why hwhy => ?_,
    OrderBook.exists_retractBid_iff, fun bid after hretracts => ?_, fun why hwhy => ?_⟩
  · refine ⟨OrderBook.places_of_placeBid hplaced, ?_⟩
    rw [Edit.on_placeBid, hplaced]
  · rw [Edit.on_placeBid, hwhy]
  · refine ⟨OrderBook.retracts_of_retractBid hretracts, ?_⟩
    rw [Edit.on_retractBid, hretracts]
  · rw [Edit.on_retractBid, hwhy]

end BuyingClub
