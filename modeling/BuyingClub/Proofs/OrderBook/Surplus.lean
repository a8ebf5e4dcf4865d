import BuyingClub.Proofs.OrderBook.Rows
import BuyingClub.Proofs.OrderBook.Sharing

/-!
# What a surplus does to bids

A handout changes the quantities of no bids but the leader's, on products of which it splits a
surplus. The committed total of a product grows to what was bought of it, and never beyond.
-/

namespace BuyingClub

section Handout

variable {motive : Bid → Prop} {leader : ParticipationId} {bought : Purchase} {now : Instant}
  {counters : Counters}

theorem forall_iff_of_map {bids after : List Bid} (h : after.map motive = bids.map motive) :
    (∀ b ∈ after, motive b) ↔ ∀ b ∈ bids, motive b := by
  have hall (xs : List Bid) : (∀ b ∈ xs, motive b) ↔ ∀ p ∈ xs.map motive, p :=
    (List.forall_mem_map (P := id)).symm
  rw [hall, h, ← hall]

theorem Bid.absorb_nonneg {b : Bid} {surplus : Quantity} (hb : 0 ≤ b.quantity)
    (hsurplus : 0 ≤ surplus) : 0 ≤ (b.absorb surplus now).quantity := by
  have hquantity : (b.absorb surplus now).quantity =
      if b.interestedOnly then surplus else b.quantity + surplus := rfl
  rw [hquantity]
  split
  · exact hsurplus
  · exact Int.add_nonneg hb hsurplus

/-- Who takes a surplus still has what the motive says. -/
structure TakesSurplus (motive : Bid → Prop) (leader : ParticipationId) (now : Instant)
    (product : ProductId) (surplus : Quantity) : Prop where
  absorbs : ∀ b, motive b → b.isOf leader product = true → motive (b.absorb surplus now)
  enters : ∀ id, motive (.forSurplus id leader product surplus now)

theorem forall_grantSurplus {product : ProductId} {surplus : Quantity} {bids : List Bid}
    (takes : TakesSurplus motive leader now product surplus) (before : ∀ b ∈ bids, motive b) :
    ∀ b ∈ (grantSurplus leader product surplus now bids counters).1, motive b := by
  intro b hb
  unfold grantSurplus at hb
  split at hb
  · rcases mem_updateFirst hb with hb | ⟨old, hold, rfl⟩
    · exact before b hb
    · exact takes.absorbs old (before old (List.mem_of_find?_eq_some hold))
        (by simpa using List.find?_some hold)
  · rcases List.mem_append.mp hb with hb | hb
    · exact before b hb
    · rw [List.mem_singleton.mp hb]
      exact takes.enters _

namespace OrderBook

theorem handOutProduct_product (book : OrderBook) :
    (handOutProduct leader now bought book counters).1.product = bought.product := by
  unfold handOutProduct
  dsimp only
  split
  · rfl
  · split <;> rfl

theorem handOutProduct_forall {book : OrderBook}
    (stable : ∀ b quantity price, motive (b.handedOut quantity price) ↔ motive b)
    (takes : ∀ surplus,
      (handOutProduct leader now bought book counters).1.split = .surplus surplus → 0 < surplus →
        TakesSurplus motive leader now bought.product surplus)
    (before : ∀ b ∈ book.bids, motive b) :
    ∀ b ∈ (handOutProduct leader now bought book counters).2.1.bids, motive b := by
  have hstable (b : Bid) (quantity : Quantity) (price : Money) :
      motive (b.handedOut quantity price) = motive b := propext (stable b quantity price)
  unfold handOutProduct at takes ⊢
  dsimp only at takes ⊢
  split
  · exact (forall_iff_of_map (map_prorate motive hstable ..)).mpr before
  · rename_i henough
    split
    · rename_i hsurplus
      rw [if_neg henough, if_pos hsurplus] at takes
      apply (forall_iff_of_map (map_fulfil motive hstable ..)).mpr
      exact forall_grantSurplus (takes _ rfl hsurplus) before
    · exact (forall_iff_of_map (map_fulfil motive hstable ..)).mpr before

theorem handOutAll_forall {purchases : List Purchase} {book : OrderBook}
    (stable : ∀ b quantity price, motive (b.handedOut quantity price) ↔ motive b)
    (takes : ∀ a ∈ (handOutAll leader now purchases book counters).1, ∀ surplus,
      a.split = .surplus surplus → 0 < surplus →
        TakesSurplus motive leader now a.product surplus)
    (before : ∀ b ∈ book.bids, motive b) :
    ∀ b ∈ (handOutAll leader now purchases book counters).2.1.bids, motive b := by
  induction purchases generalizing book counters with
  | nil => exact before
  | cons bought rest ih =>
    rw [handOutAll_cons] at takes ⊢
    refine ih (fun a ha => takes a (List.mem_cons_of_mem _ ha)) ?_
    refine handOutProduct_forall stable ?_ before
    intro surplus hsplit hpositive
    have htakes := takes _ List.mem_cons_self surplus hsplit hpositive
    rw [handOutProduct_product] at htakes
    exact htakes

theorem map_product_handOutAll (purchases : List Purchase) (book : OrderBook)
    (counters : Counters) :
    (handOutAll leader now purchases book counters).1.map (·.product) =
      purchases.map (·.product) := by
  induction purchases generalizing book counters with
  | nil => rfl
  | cons bought rest ih =>
    rw [handOutAll_cons, List.map_cons, List.map_cons, ih, handOutProduct_product]

end OrderBook

/-! ## Totals -/

theorem committedTotal_of_map {bids after : List Bid} {product : ProductId}
    (h : after.map (·.towards product) = bids.map (·.towards product)) :
    committedTotal after product = committedTotal bids product :=
  congrArg List.sum h

theorem committedTotal_fulfil {bids : List Bid} {product : ProductId} :
    committedTotal (fulfil bought bids) product = committedTotal bids product :=
  committedTotal_of_map (map_fulfil (·.towards product) (fun _ _ _ => rfl) ..)

namespace OrderBook

theorem committedTotal_handOutProduct (book : OrderBook) :
    committedTotal (handOutProduct leader now bought book counters).2.1.bids bought.product =
      max (committedTotal book.bids bought.product) bought.quantity.hundredths := by
  have hdemand := book.hundredths_demand bought.product
  unfold handOutProduct
  dsimp only
  split
  · rename_i hshort
    rw [Quantity.lt_def] at hshort
    have hsame : committedTotal (prorate bought (book.demand bought.product) bought.quantity
        book.bids) bought.product = committedTotal book.bids bought.product :=
      committedTotal_of_map (map_prorate (·.towards bought.product) (fun _ _ _ => rfl) ..)
    exact hsame.trans (by omega)
  · rename_i hshort
    rw [Quantity.lt_def] at hshort
    split
    · refine committedTotal_fulfil.trans ?_
      rw [grantSurplus_total, Quantity.hundredths_sub]
      omega
    · rename_i hsurplus
      rw [Quantity.lt_def, Quantity.hundredths_sub, Quantity.hundredths_zero] at hsurplus
      refine committedTotal_fulfil.trans ?_
      omega

theorem handOutProduct_nonneg {book : OrderBook} (before : ∀ b ∈ book.bids, 0 ≤ b.quantity) :
    ∀ b ∈ (handOutProduct leader now bought book counters).2.1.bids, 0 ≤ b.quantity := by
  refine handOutProduct_forall (fun _ _ _ => Iff.rfl) ?_ before
  intro surplus _ hpositive
  have hsurplus : 0 ≤ surplus := Int.le_of_lt hpositive
  exact ⟨fun b hb _ => Bid.absorb_nonneg hb hsurplus, fun _ => hsurplus⟩

theorem committedTotal_handOutProduct_le {book : OrderBook} {most : Int}
    (before : ∀ product, committedTotal book.bids product ≤ most)
    (fits : bought.quantity.hundredths ≤ most) (product : ProductId) :
    committedTotal (handOutProduct leader now bought book counters).2.1.bids product ≤ most := by
  by_cases hproduct : product = bought.product
  · rw [hproduct, committedTotal_handOutProduct]
    exact Int.max_le.mpr ⟨before bought.product, fits⟩
  · rw [committedTotal_congr (handOutProduct_changesOnly.others product hproduct)]
    exact before product

end OrderBook

end Handout

end BuyingClub
