import BuyingClub.Proofs.OrderBook.Demand
import BuyingClub.Proofs.OrderBook.Operations

/-!
# Sharing what was bought

However a purchase is split, the committed bids of its product get shares that are not negative and
add up to what was bought. Bids on other products stay, and so do bids of mere interest.
-/

namespace BuyingClub

/-! ## Shares -/

/-- What was handed out for the committed bids of a product. -/
def handedOutTotal (bids : List Bid) (product : ProductId) : Quantity :=
  ((bids.filter (·.countsFor product)).map (·.distributedQuantity.getD 0)).sum

/-- What a bid adds to what was handed out of a product, in hundredths. -/
def Bid.received (product : ProductId) (b : Bid) : Int :=
  if b.countsFor product then (b.distributedQuantity.getD 0).hundredths else 0

theorem hundredths_handedOutTotal (bids : List Bid) (product : ProductId) :
    (handedOutTotal bids product).hundredths = (bids.map (·.received product)).sum := by
  unfold handedOutTotal
  rw [Quantity.hundredths_sum, List.map_map]
  exact sum_filter (fun b => (b.distributedQuantity.getD 0).hundredths) (·.countsFor product) bids

/-- The bid has a share, at this price. -/
def Bid.HasShare (price : Money) (b : Bid) : Prop :=
  ∃ share, 0 ≤ share ∧ b.distributedQuantity = some share ∧ b.distributedPrice = some price

/-- The committed bids of a product share what was bought of it. -/
structure Purchase.IsShared (bought : Purchase) (bids : List Bid) : Prop where
  hasShare : ∀ b ∈ bids, b.countsFor bought.product = true → b.HasShare bought.price
  total : handedOutTotal bids bought.product = bought.quantity

/-- Only committed bids of the product are added or changed. -/
structure ChangesOnly (product : ProductId) (bids after : List Bid) : Prop where
  others : ∀ p, p ≠ product → after.filter (·.countsFor p) = bids.filter (·.countsFor p)
  kept : ∀ b ∈ after, b.countsFor product = false → b ∈ bids

theorem ChangesOnly.trans {product : ProductId} {bids between after : List Bid}
    (h : ChangesOnly product bids between) (h' : ChangesOnly product between after) :
    ChangesOnly product bids after where
  others p hp := (h'.others p hp).trans (h.others p hp)
  kept b hb hproduct := h.kept b (h'.kept b hb hproduct) hproduct

theorem Purchase.IsShared.congr {bought : Purchase} {bids after : List Bid}
    (h : bought.IsShared bids)
    (same : after.filter (·.countsFor bought.product) = bids.filter (·.countsFor bought.product)) :
    bought.IsShared after where
  hasShare b hb hproduct := by
    have hmem : b ∈ bids.filter (·.countsFor bought.product) := by
      rw [← same]
      exact List.mem_filter.mpr ⟨hb, hproduct⟩
    exact h.hasShare b (List.mem_filter.mp hmem).1 hproduct
  total := by
    unfold handedOutTotal
    rw [same]
    exact h.total

/-- A committed quantity that can be scaled. -/
def Bid.IsSound (b : Bid) : Prop :=
  0 ≤ b.quantity ∧ b.quantity.hundredths ≤ Hundredths.bound

theorem Bid.IsSound.fits {b : Bid} (h : b.IsSound) : FitsAmount b.quantity.hundredths := by
  obtain ⟨hnonneg, hbound⟩ := h
  rw [Quantity.le_def, Quantity.hundredths_zero] at hnonneg
  unfold Hundredths.bound at hbound
  unfold FitsAmount
  omega

@[simp] theorem Bid.countsFor_handedOut (b : Bid) (quantity : Quantity) (price : Money)
    (product : ProductId) : (b.handedOut quantity price).countsFor product = b.countsFor product :=
  rfl

theorem Bid.product_of_countsFor {b : Bid} {product : ProductId} (h : b.countsFor product = true) :
    b.product = product := by
  simp only [countsFor, Bool.and_eq_true, decide_eq_true_eq] at h
  exact h.1

theorem Bid.isCommitted_of_countsFor {b : Bid} {product : ProductId}
    (h : b.countsFor product = true) : b.isCommitted = true := by
  rw [countsFor, Bool.and_eq_true] at h
  exact h.2

theorem Bid.countsFor_of_ne {b : Bid} {product other : ProductId}
    (h : b.countsFor product = true) (hne : other ≠ product) : b.countsFor other = false := by
  have hproduct := product_of_countsFor h
  simp [countsFor, hproduct, hne.symm]

/-! ## A shortage -/

section Prorate

variable {bought : Purchase} {requested remaining : Quantity} {bids : List Bid}

theorem prorate_changesOnly :
    ChangesOnly bought.product bids (prorate bought requested remaining bids) := by
  induction bids generalizing remaining with
  | nil => exact ⟨fun _ _ => rfl, fun _ hb _ => hb⟩
  | cons b rest ih =>
    unfold prorate
    split
    · rename_i hb
      refine ⟨fun p hp => ?_, fun c hc hproduct => ?_⟩
      · have hother := Bid.countsFor_of_ne hb hp
        simp [hother, ih.others p hp]
      · rcases List.mem_cons.mp hc with rfl | hc
        · rw [Bid.countsFor_handedOut, hb] at hproduct
          cases hproduct
        · exact List.mem_cons_of_mem _ (ih.kept c hc hproduct)
    · refine ⟨fun p hp => ?_, fun c hc hproduct => ?_⟩
      · simp [List.filter_cons, ih.others p hp]
      · rcases List.mem_cons.mp hc with rfl | hc
        · exact List.mem_cons_self ..
        · exact List.mem_cons_of_mem _ (ih.kept c hc hproduct)

theorem shareOf_nonneg {b : Bid} (isLast : Bool) (hquantity : 0 ≤ b.quantity)
    (hfits : FitsAmount b.quantity.hundredths) (hbought : 0 ≤ bought.quantity)
    (hshort : bought.quantity < requested) (hremaining : 0 ≤ remaining) :
    0 ≤ shareOf bought requested remaining isLast b := by
  unfold shareOf
  split
  · exact hremaining
  · obtain ⟨_, hshare, _⟩ := Quantity.hundredths_scale_of_lt hquantity hfits hbought hshort
    exact Quantity.le_min hremaining hshare

theorem shareOf_le (bought : Purchase) (requested remaining : Quantity) (b : Bid) (isLast : Bool) :
    shareOf bought requested remaining isLast b ≤ remaining := by
  unfold shareOf
  split
  · exact Int.le_refl _
  · exact Quantity.min_le_right _ _

theorem prorate_hasShare (sound : ∀ b ∈ bids, b.countsFor bought.product = true → b.IsSound)
    (hbought : 0 ≤ bought.quantity) (hshort : bought.quantity < requested)
    (hremaining : 0 ≤ remaining) :
    ∀ b ∈ prorate bought requested remaining bids, b.countsFor bought.product = true →
      b.HasShare bought.price := by
  induction bids generalizing remaining with
  | nil =>
    intro b hb
    cases hb
  | cons b rest ih =>
    have hrest : ∀ c ∈ rest, c.countsFor bought.product = true → c.IsSound :=
      fun c hc => sound c (List.mem_cons_of_mem _ hc)
    intro c hc hproduct
    unfold prorate at hc
    split at hc
    · rename_i hb
      have hsound := sound b (List.mem_cons_self ..) hb
      have hshare := shareOf_nonneg (!rest.any (·.countsFor bought.product)) hsound.1 hsound.fits
        hbought hshort hremaining
      have hle := shareOf_le bought requested remaining b (!rest.any (·.countsFor bought.product))
      rcases List.mem_cons.mp hc with rfl | hc
      · exact ⟨_, hshare, rfl, rfl⟩
      · refine ih hrest ?_ c hc hproduct
        rw [Quantity.le_def] at hle ⊢
        simp only [Quantity.hundredths_zero, Quantity.hundredths_sub]
        omega
    · rename_i hb
      rcases List.mem_cons.mp hc with rfl | hc
      · exact absurd hproduct hb
      · exact ih hrest hremaining c hc hproduct

theorem sum_received_prorate_of_none (none : bids.any (·.countsFor bought.product) = false) :
    ((prorate bought requested remaining bids).map (·.received bought.product)).sum = 0 := by
  induction bids generalizing remaining with
  | nil => rfl
  | cons b rest ih =>
    rw [List.any_cons, Bool.or_eq_false_iff] at none
    obtain ⟨hb, hrest⟩ := none
    have hhead : b.received bought.product = 0 := by simp [Bid.received, hb]
    unfold prorate
    simp [hb, hhead, ih hrest]

/-- The last committed bid gets what is left, so nothing is. -/
theorem sum_received_prorate (some : bids.any (·.countsFor bought.product) = true) :
    ((prorate bought requested remaining bids).map (·.received bought.product)).sum =
      remaining.hundredths := by
  induction bids generalizing remaining with
  | nil => cases some
  | cons b rest ih =>
    unfold prorate
    cases hb : b.countsFor bought.product with
    | true =>
      have hhead : ∀ share, (b.handedOut share bought.price).received bought.product =
          share.hundredths := by
        intro share
        unfold Bid.received
        rw [Bid.countsFor_handedOut, hb]
        rfl
      simp only [if_true, List.map_cons, List.sum_cons, hhead]
      cases hrest : rest.any (·.countsFor bought.product) with
      | true =>
        rw [ih hrest, Quantity.hundredths_sub]
        omega
      | false =>
        -- No committed bid comes after this one, which has taken all that remained.
        rw [sum_received_prorate_of_none hrest]
        exact Int.add_zero _
    | false =>
      have hrest : rest.any (·.countsFor bought.product) = true := by
        rw [List.any_cons, hb, Bool.false_or] at some
        exact some
      have hhead : b.received bought.product = 0 := by simp [Bid.received, hb]
      simp only [Bool.false_eq_true, if_false, List.map_cons, List.sum_cons, hhead, ih hrest,
        Int.zero_add]

theorem prorate_isShared (sound : ∀ b ∈ bids, b.countsFor bought.product = true → b.IsSound)
    (hbought : 0 ≤ bought.quantity) (hshort : bought.quantity < requested)
    (some : bids.any (·.countsFor bought.product) = true) :
    bought.IsShared (prorate bought requested bought.quantity bids) where
  hasShare := prorate_hasShare sound hbought hshort hbought
  total := by
    ext
    rw [hundredths_handedOutTotal, sum_received_prorate some]

end Prorate

/-! ## Enough or more -/

section Fulfil

variable {bought : Purchase} {bids : List Bid}

theorem fulfil_changesOnly : ChangesOnly bought.product bids (fulfil bought bids) := by
  refine ⟨fun p hp => ?_, fun c hc hproduct => ?_⟩
  · induction bids with
    | nil => rfl
    | cons b rest ih =>
      unfold fulfil at ih ⊢
      rw [List.map_cons, List.filter_cons, List.filter_cons, ih]
      split
      · rename_i hb
        rw [Bid.countsFor_handedOut]
        simp [Bid.countsFor_of_ne hb hp]
      · rfl
  · obtain ⟨b, hb, rfl⟩ := List.mem_map.mp hc
    split at hproduct
    · rename_i hcounts
      rw [Bid.countsFor_handedOut, hcounts] at hproduct
      cases hproduct
    · rename_i hcounts
      simp only [hcounts]
      exact hb

theorem sum_received_fulfil :
    ((fulfil bought bids).map (·.received bought.product)).sum =
      committedTotal bids bought.product := by
  unfold fulfil committedTotal
  rw [List.map_map]
  congr 1
  refine List.map_congr_left fun b _ => ?_
  unfold Bid.towards
  dsimp only [Function.comp_apply]
  split
  · rename_i hb
    unfold Bid.received
    rw [Bid.countsFor_handedOut, hb]
    rfl
  · rename_i hb
    simp [Bid.received, hb]

theorem fulfil_isShared (sound : ∀ b ∈ bids, b.countsFor bought.product = true → 0 ≤ b.quantity)
    (exact : committedTotal bids bought.product = bought.quantity.hundredths) :
    bought.IsShared (fulfil bought bids) where
  hasShare c hc hproduct := by
    obtain ⟨b, hb, rfl⟩ := List.mem_map.mp hc
    split at hproduct
    · rename_i hcounts
      simp only [hcounts, if_true]
      exact ⟨b.quantity, sound b hb hcounts, rfl, rfl⟩
    · rename_i hcounts
      exact absurd hproduct hcounts
  total := by
    ext
    rw [hundredths_handedOutTotal, sum_received_fulfil, exact]

end Fulfil

/-! ## A surplus -/

section Surplus

variable {leader : ParticipationId} {product : ProductId} {surplus : Quantity} {now : Instant}
  {bids : List Bid} {counters : Counters}

theorem product_of_find? {b : Bid} {participation : ParticipationId}
    (h : bids.find? (·.isOf participation product) = some b) : b.product = product := by
  have hof : b.isOf participation product = true := by simpa using List.find?_some h
  exact (Bid.isOf_iff.mp hof).2

theorem countsFor_absorb {b : Bid} (h : b.product = product) :
    (b.absorb surplus now).countsFor product = true := by
  simp [Bid.countsFor, Bid.isCommitted, Bid.absorb, h]

theorem countsFor_forSurplus (id : BidId) :
    (Bid.forSurplus id leader product surplus now).countsFor product = true := by
  simp [Bid.countsFor, Bid.isCommitted, Bid.forSurplus]

theorem towards_absorb {b : Bid} (h : b.product = product) :
    (b.absorb surplus now).towards product = b.towards product + surplus.hundredths := by
  unfold Bid.towards
  rw [countsFor_absorb h]
  cases hb : b.interestedOnly <;> simp [Bid.absorb, Bid.countsFor, Bid.isCommitted, h, hb]

theorem grantSurplus_total :
    committedTotal (grantSurplus leader product surplus now bids counters).1 product =
      committedTotal bids product + surplus.hundredths := by
  unfold grantSurplus
  split
  · rename_i hany
    obtain ⟨b, hb⟩ := Option.isSome_iff_exists.mp (List.find?_isSome.mpr (by simpa using hany))
    have hproduct := product_of_find? hb
    unfold committedTotal
    rw [sum_updateFirst _ hb, towards_absorb hproduct]
    omega
  · rw [committedTotal_append]
    congr 1
    simp only [committedTotal, List.map_cons, List.map_nil, List.sum_cons, List.sum_nil,
      Bid.towards_of_countsFor (countsFor_forSurplus _), Int.add_zero]
    rfl

theorem grantSurplus_changesOnly :
    ChangesOnly product bids (grantSurplus leader product surplus now bids counters).1 := by
  unfold grantSurplus
  split
  · refine ⟨fun p hp => filter_updateFirst_of_ne ?_ ?_, fun c hc hproduct => ?_⟩
    · intro b hb
      simp [Bid.countsFor, (Bid.isOf_iff.mp hb).2, hp.symm]
    · intro b hb
      exact Bid.countsFor_of_ne (countsFor_absorb (Bid.isOf_iff.mp hb).2) hp
    · rcases mem_updateFirst hc with hc | ⟨b, hb, rfl⟩
      · exact hc
      · rw [countsFor_absorb (product_of_find? hb)] at hproduct
        cases hproduct
  · refine ⟨fun p hp => ?_, fun c hc hproduct => ?_⟩
    · simp [Bid.countsFor_of_ne (countsFor_forSurplus _) hp]
    · rcases List.mem_append.mp hc with hc | hc
      · exact hc
      · rw [List.mem_singleton] at hc
        rw [hc, countsFor_forSurplus] at hproduct
        cases hproduct

theorem grantSurplus_nonneg (hsurplus : 0 ≤ surplus)
    (sound : ∀ b ∈ bids, b.countsFor product = true → 0 ≤ b.quantity) :
    ∀ b ∈ (grantSurplus leader product surplus now bids counters).1,
      b.countsFor product = true → 0 ≤ b.quantity := by
  intro c hc hproduct
  unfold grantSurplus at hc
  split at hc
  · rcases mem_updateFirst hc with hc | ⟨b, hb, rfl⟩
    · exact sound c hc hproduct
    · have hmem := List.mem_of_find?_eq_some hb
      have hof := product_of_find? hb
      cases hinterest : b.interestedOnly with
      | true =>
        have hquantity : (b.absorb surplus now).quantity = surplus := by
          simp [Bid.absorb, hinterest]
        rw [hquantity]
        exact hsurplus
      | false =>
        have hquantity : (b.absorb surplus now).quantity = b.quantity + surplus := by
          simp [Bid.absorb, hinterest]
        have hb0 := sound b hmem (by simp [Bid.countsFor, Bid.isCommitted, hof, hinterest])
        rw [Quantity.le_def] at hsurplus hb0
        rw [hquantity, Quantity.le_def, Quantity.hundredths_add]
        simp only [Quantity.hundredths_zero] at hsurplus hb0 ⊢
        omega
  · rcases List.mem_append.mp hc with hc | hc
    · exact sound c hc hproduct
    · rw [List.mem_singleton] at hc
      rw [hc]
      exact hsurplus

end Surplus

/-! ## The whole handout -/

namespace OrderBook

variable {leader : ParticipationId} {now : Instant} {bought : Purchase} {purchases : List Purchase}
  {book : OrderBook} {counters : Counters}

theorem handOutProduct_changesOnly :
    ChangesOnly bought.product book.bids
      (handOutProduct leader now bought book counters).2.1.bids := by
  unfold handOutProduct
  dsimp only
  split
  · exact prorate_changesOnly
  · split
    · exact grantSurplus_changesOnly.trans fulfil_changesOnly
    · exact fulfil_changesOnly

theorem handOutProduct_isShared (positive : 0 < bought.quantity)
    (sound : ∀ b ∈ book.bids, b.countsFor bought.product = true → b.IsSound) :
    bought.IsShared (handOutProduct leader now bought book counters).2.1.bids := by
  have hdemand := book.hundredths_demand bought.product
  have hnonneg : ∀ b ∈ book.bids, b.countsFor bought.product = true → 0 ≤ b.quantity :=
    fun b hb hproduct => (sound b hb hproduct).1
  rw [Quantity.lt_def, Quantity.hundredths_zero] at positive
  unfold handOutProduct
  dsimp only
  split
  · rename_i hshort
    refine prorate_isShared sound (Int.le_of_lt positive) hshort (exists_countsFor_of_pos ?_)
    rw [Quantity.lt_def] at hshort
    omega
  · rename_i hshort
    rw [Quantity.lt_def] at hshort
    split
    · rename_i hsurplus
      refine fulfil_isShared (grantSurplus_nonneg (Int.le_of_lt hsurplus) hnonneg) ?_
      rw [grantSurplus_total, Quantity.hundredths_sub]
      omega
    · rename_i hsurplus
      rw [Quantity.lt_def, Quantity.hundredths_sub, Quantity.hundredths_zero] at hsurplus
      refine fulfil_isShared hnonneg ?_
      show committedTotal book.bids bought.product = bought.quantity.hundredths
      omega

theorem handOutProduct_items {β : Type} (f : ShoppingItem → β)
    (keeps : ∀ item requested, f { item with requestedQuantity := requested } = f item) :
    (handOutProduct leader now bought book counters).2.1.items.map f = book.items.map f := by
  unfold handOutProduct
  dsimp only
  split
  · exact map_updateFirst _ _ _ (fun item => keeps item _) _
  · split
    · exact map_updateFirst _ _ _ (fun item => keeps item _) _
    · rfl

theorem handOutAll_items {β : Type} (f : ShoppingItem → β)
    (keeps : ∀ item requested, f { item with requestedQuantity := requested } = f item) :
    (handOutAll leader now purchases book counters).2.1.items.map f = book.items.map f := by
  induction purchases generalizing book counters with
  | nil => rfl
  | cons bought rest ih =>
    rw [handOutAll_cons]
    exact ih.trans (handOutProduct_items f keeps)

theorem handOut_items {after : OrderBook} {counters' : Counters} {allocations : List Allocation}
    (h : book.handOut now counters = .ok (allocations, after, counters')) {β : Type}
    (f : ShoppingItem → β)
    (keeps : ∀ item requested, f { item with requestedQuantity := requested } = f item) :
    after.items.map f = book.items.map f := by
  obtain ⟨leader, _, hall⟩ := handOut_eq_ok_iff.mp h
  have hitems : (handOutAll leader.id now book.purchases book counters).2.1.items.map f =
      book.items.map f := handOutAll_items f keeps
  rw [hall] at hitems
  exact hitems

theorem handOutAll_others {product : ProductId}
    (h : ∀ bought ∈ purchases, product ≠ bought.product) :
    (handOutAll leader now purchases book counters).2.1.bids.filter (·.countsFor product) =
      book.bids.filter (·.countsFor product) := by
  induction purchases generalizing book counters with
  | nil => rfl
  | cons bought rest ih =>
    rw [handOutAll_cons]
    have hrest : ∀ other ∈ rest, product ≠ other.product :=
      fun other hother => h other (List.mem_cons_of_mem _ hother)
    exact (ih hrest).trans
      (handOutProduct_changesOnly.others product (h bought (List.mem_cons_self ..)))

theorem handOutAll_kept {b : Bid}
    (hb : b ∈ (handOutAll leader now purchases book counters).2.1.bids)
    (h : ∀ bought ∈ purchases, b.countsFor bought.product = false) : b ∈ book.bids := by
  induction purchases generalizing book counters with
  | nil => exact hb
  | cons bought rest ih =>
    rw [handOutAll_cons] at hb
    have hrest : ∀ other ∈ rest, b.countsFor other.product = false :=
      fun other hother => h other (List.mem_cons_of_mem _ hother)
    exact handOutProduct_changesOnly.kept b (ih hb hrest) (h bought (List.mem_cons_self ..))

/-- Every purchase ends up shared: what is split later is of another product. -/
theorem handOutAll_isShared (distinct : (purchases.map (·.product)).Nodup)
    (positive : ∀ bought ∈ purchases, 0 < bought.quantity)
    (sound : ∀ bought ∈ purchases, ∀ b ∈ book.bids,
      b.countsFor bought.product = true → b.IsSound) :
    ∀ bought ∈ purchases,
      bought.IsShared (handOutAll leader now purchases book counters).2.1.bids := by
  induction purchases generalizing book counters with
  | nil =>
    intro bought hbought
    cases hbought
  | cons first rest ih =>
    rw [List.map_cons, List.nodup_cons] at distinct
    obtain ⟨hfirst, hrest⟩ := distinct
    have hne : ∀ other ∈ rest, first.product ≠ other.product := by
      intro other hother heq
      exact hfirst (List.mem_map.mpr ⟨other, hother, heq.symm⟩)
    have hshared : first.IsShared (handOutProduct leader now first book counters).2.1.bids :=
      handOutProduct_isShared (positive first (List.mem_cons_self ..))
        (sound first (List.mem_cons_self ..))
    intro bought hbought
    rw [handOutAll_cons]
    rcases List.mem_cons.mp hbought with rfl | hbought
    · exact hshared.congr (handOutAll_others hne)
    · -- The committed bids of the later purchases are still those of the book at the beginning.
      refine ih hrest (fun other hother => positive other (List.mem_cons_of_mem _ hother)) ?_
        bought hbought
      intro other hother b hb hcounts
      have hmem : b ∈ book.bids.filter (·.countsFor other.product) := by
        rw [← handOutProduct_changesOnly.others other.product (hne other hother).symm]
        exact List.mem_filter.mpr ⟨hb, hcounts⟩
      exact sound other (List.mem_cons_of_mem _ hother) b (List.mem_filter.mp hmem).1 hcounts

end OrderBook

end BuyingClub
