import BuyingClub.Proofs.Consistency

/-!
# Product by product

A handout goes through the purchases one by one, in one book. Each is still split as if it were the
only one: its split reads and changes the bids on its own product, and the line of its own product.
-/

namespace BuyingClub

/-! ## The bids on one product -/

section OneProduct

variable {bought : Purchase} {requested remaining : Quantity} {bids : List Bid} {test : Bid → Bool}

theorem filter_prorate (stable : ∀ b quantity price, test (b.handedOut quantity price) = test b)
    (covers : ∀ b, b.countsFor bought.product = true → test b = true) :
    (prorate bought requested remaining bids).filter test =
      prorate bought requested remaining (bids.filter test) := by
  have hany (rest : List Bid) : (rest.filter test).any (·.countsFor bought.product) =
      rest.any (·.countsFor bought.product) := by
    rw [List.any_filter]
    congr 1
    funext b
    cases hb : b.countsFor bought.product with
    | true => simp [covers b hb]
    | false => simp
  induction bids generalizing remaining with
  | nil => rfl
  | cons b rest ih =>
    cases hb : b.countsFor bought.product with
    | true =>
      have htest := covers b hb
      simp [prorate, hb, htest, stable, ih, hany]
    | false =>
      cases htest : test b <;> simp [prorate, hb, htest, ih]

theorem filter_prorate_of_ne
    (stable : ∀ b quantity price, test (b.handedOut quantity price) = test b)
    (misses : ∀ b, b.countsFor bought.product = true → test b = false) :
    (prorate bought requested remaining bids).filter test = bids.filter test := by
  induction bids generalizing remaining with
  | nil => rfl
  | cons b rest ih =>
    cases hb : b.countsFor bought.product with
    | true => simp [prorate, hb, stable, misses b hb, ih]
    | false => simp [prorate, hb, List.filter_cons, ih]

theorem filter_fulfil (stable : ∀ b quantity price, test (b.handedOut quantity price) = test b) :
    (fulfil bought bids).filter test = fulfil bought (bids.filter test) := by
  unfold fulfil
  rw [List.filter_map]
  congr 1
  refine List.filter_congr fun b _ => ?_
  rw [Function.comp_apply]
  split
  · exact stable b _ _
  · rfl

theorem fulfil_eq_self (misses : ∀ b ∈ bids, b.countsFor bought.product = false) :
    fulfil bought bids = bids := by
  unfold fulfil
  refine (List.map_congr_left fun b hb => ?_).trans (List.map_id bids)
  rw [misses b hb]
  rfl

end OneProduct

section Grant

variable {leader : ParticipationId} {product : ProductId} {surplus : Quantity} {now : Instant}
  {bids : List Bid} {counters : Counters}

theorem filter_grantSurplus :
    (grantSurplus leader product surplus now bids counters).1.filter (·.product = product) =
      (grantSurplus leader product surplus now (bids.filter (·.product = product)) counters).1 := by
  have hcovers (b : Bid) (h : b.isOf leader product = true) : decide (b.product = product) = true :=
    decide_eq_true (Bid.isOf_iff.mp h).2
  have hany : (bids.filter (·.product = product)).any (·.isOf leader product) =
      bids.any (·.isOf leader product) := by
    rw [List.any_filter]
    congr 1
    funext b
    cases hb : b.isOf leader product with
    | true => simp [hcovers b hb]
    | false => simp
  unfold grantSurplus
  rw [hany]
  split
  · exact filter_updateFirst_self hcovers fun _ => rfl
  · simp [Bid.forSurplus]

theorem filter_grantSurplus_of_ne {other : ProductId} (hne : other ≠ product) :
    (grantSurplus leader product surplus now bids counters).1.filter (·.product = other) =
      bids.filter (·.product = other) := by
  unfold grantSurplus
  split
  · apply filter_updateFirst_of_ne <;>
    · intro b hb
      rw [decide_eq_false_iff_not]
      rintro rfl
      exact hne (Bid.isOf_iff.mp hb).2
  · simp [Bid.forSurplus, hne.symm]

end Grant

namespace OrderBook

variable {leader : ParticipationId} {bought : Purchase} {purchases : List Purchase} {now : Instant}
  {book other : OrderBook} {counters : Counters} {product : ProductId}

theorem demand_bidsFor (book : OrderBook) (product : ProductId) :
    ({ book with bids := book.bidsFor product } : OrderBook).demand product =
      book.demand product := by
  unfold demand bidsFor
  rw [List.filter_filter]
  congr 3
  funext b
  cases hb : b.countsFor product with
  | true => simp [Bid.product_of_countsFor hb]
  | false => rfl

theorem handOutProduct_congr (same : other.bids = book.bids) :
    (handOutProduct leader now bought other counters).1 =
        (handOutProduct leader now bought book counters).1 ∧
      (handOutProduct leader now bought other counters).2.1.bids =
        (handOutProduct leader now bought book counters).2.1.bids ∧
      (handOutProduct leader now bought other counters).2.2 =
        (handOutProduct leader now bought book counters).2.2 := by
  have hdemand : other.demand bought.product = book.demand bought.product := by
    unfold demand
    rw [same]
  unfold handOutProduct
  simp only [hdemand, same]
  split
  · exact ⟨rfl, rfl, rfl⟩
  · split <;> exact ⟨rfl, rfl, rfl⟩

theorem handOutProduct_bidsFor :
    (handOutProduct leader now bought book counters).2.1.bidsFor bought.product =
      (handOutProduct leader now bought { book with bids := book.bidsFor bought.product }
        counters).2.1.bids := by
  have hstable (b : Bid) (quantity : Quantity) (price : Money) :
      decide ((b.handedOut quantity price).product = bought.product) =
        decide (b.product = bought.product) := rfl
  unfold handOutProduct
  rw [demand_bidsFor]
  dsimp only
  split
  · exact filter_prorate hstable fun b hb => decide_eq_true (Bid.product_of_countsFor hb)
  · split
    · exact (filter_fulfil hstable).trans (congrArg _ filter_grantSurplus)
    · exact filter_fulfil hstable

theorem handOutProduct_bidsFor_of_ne (hne : product ≠ bought.product) :
    (handOutProduct leader now bought book counters).2.1.bidsFor product =
      book.bidsFor product := by
  have hstable (b : Bid) (quantity : Quantity) (price : Money) :
      decide ((b.handedOut quantity price).product = product) = decide (b.product = product) := rfl
  have hmisses (b : Bid) (hb : b.countsFor bought.product = true) :
      decide (b.product = product) = false := by
    rw [decide_eq_false_iff_not, Bid.product_of_countsFor hb]
    exact hne.symm
  have hself (bids : List Bid) : fulfil bought (bids.filter (·.product = product)) =
      bids.filter (·.product = product) := by
    refine fulfil_eq_self fun b hb => Bool.eq_false_of_not_eq_true fun hcounts => ?_
    have hproduct := (List.mem_filter.mp hb).2
    rw [hmisses b hcounts] at hproduct
    cases hproduct
  unfold handOutProduct bidsFor
  dsimp only
  split
  · exact filter_prorate_of_ne hstable hmisses
  · split
    · exact (filter_fulfil hstable).trans ((hself _).trans (filter_grantSurplus_of_ne hne))
    · exact (filter_fulfil hstable).trans (hself _)

theorem demand_handOutProduct_of_ne (hne : product ≠ bought.product) :
    (handOutProduct leader now bought book counters).2.1.demand product = book.demand product := by
  unfold demand
  rw [handOutProduct_changesOnly.others product hne]

theorem handOutAll_bidsFor_of_ne (hne : ∀ bought ∈ purchases, product ≠ bought.product) :
    (handOutAll leader now purchases book counters).2.1.bidsFor product = book.bidsFor product := by
  induction purchases generalizing book counters with
  | nil => rfl
  | cons first rest ih =>
    obtain ⟨hfirst, hrest⟩ := List.forall_mem_cons.mp hne
    rw [handOutAll_cons]
    exact (ih hrest).trans (handOutProduct_bidsFor_of_ne hfirst)

theorem handOutAll_bidsFor (leader : ParticipationId) (now : Instant) (book : OrderBook)
    (counters : Counters) (distinct : (purchases.map (·.product)).Nodup)
    (hbought : bought ∈ purchases) :
    ∃ counters', (handOutAll leader now purchases book counters).2.1.bidsFor bought.product =
      (handOutProduct leader now bought { book with bids := book.bidsFor bought.product }
        counters').2.1.bids := by
  induction purchases generalizing book counters with
  | nil => cases hbought
  | cons first rest ih =>
    rw [List.map_cons, List.nodup_cons] at distinct
    obtain ⟨hfirst, hrest⟩ := distinct
    rw [handOutAll_cons]
    rcases List.mem_cons.mp hbought with rfl | hbought
    · refine ⟨counters, ?_⟩
      rw [← handOutProduct_bidsFor]
      exact handOutAll_bidsFor_of_ne fun later hlater heq =>
        hfirst (List.mem_map.mpr ⟨later, hlater, heq.symm⟩)
    · have hne : bought.product ≠ first.product := fun heq =>
        hfirst (List.mem_map.mpr ⟨bought, hbought, heq⟩)
      obtain ⟨counters', hbids⟩ := ih (handOutProduct leader now first book counters).2.1
        (handOutProduct leader now first book counters).2.2 hrest hbought
      refine ⟨counters', hbids.trans (handOutProduct_congr ?_).2.1⟩
      exact handOutProduct_bidsFor_of_ne hne

end OrderBook

end BuyingClub
