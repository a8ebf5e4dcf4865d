import BuyingClub.Proofs.OrderBook.ByProduct

/-!
# What a handout changes

A split tells how it went, sets the line of its product to what had to be split, hands out goods for
the committed bids, and lets the leader take a surplus. All else stays. What one split does, the
whole handout does for each product that was bought.
-/

namespace BuyingClub

/-! ## Two lists side by side -/

section Forall

variable {α β γ : Type} {R : α → β → Prop} {S : β → γ → Prop} {T : α → γ → Prop} {xs xs' : List α}
  {ys : List β} {zs : List γ}

theorem forall₂_trans (trans : ∀ x y z, R x y → S y z → T x z) (h : List.Forall₂ R xs ys)
    (h' : List.Forall₂ S ys zs) : List.Forall₂ T xs zs := by
  induction h generalizing zs with
  | nil =>
    cases h'
    exact .nil
  | cons hhead _ ih =>
    cases h' with
    | cons hhead' hrest' => exact .cons (trans _ _ _ hhead hhead') (ih hrest')

theorem exists_append_of_forall₂ (h : List.Forall₂ R (xs ++ xs') ys) :
    ∃ zs zs', ys = zs ++ zs' ∧ List.Forall₂ R xs zs ∧ List.Forall₂ R xs' zs' := by
  refine ⟨ys.take xs.length, ys.drop xs.length, (List.take_append_drop ..).symm, ?_, ?_⟩
  · exact (List.forall₂_take_append ys xs xs' h.flip).flip
  · exact (List.forall₂_drop_append ys xs xs' h.flip).flip

theorem exists_of_forall₂ {y : β} (h : List.Forall₂ R xs ys) (hy : y ∈ ys) : ∃ x ∈ xs, R x y := by
  induction h with
  | nil => cases hy
  | @cons x _ xs _ hhead _ ih =>
    rcases List.mem_cons.mp hy with rfl | hy
    · exact ⟨x, List.mem_cons_self .., hhead⟩
    · obtain ⟨x', hx', hxy⟩ := ih hy
      exact ⟨x', List.mem_cons_of_mem _ hx', hxy⟩

end Forall

/-! ## What is told of a split -/

/-- How so much is split when so much was asked for. -/
def Split.between (requested purchased : Quantity) : Split :=
  if purchased < requested then .prorated
  else if requested < purchased then .surplus (purchased - requested)
  else .exact

theorem Split.between_eq_prorated_iff {requested purchased : Quantity} :
    Split.between requested purchased = .prorated ↔ purchased < requested := by
  unfold Split.between
  split
  · simp [*]
  · split <;> simp [*]

def Purchase.allocation (bought : Purchase) (requested : Quantity) : Allocation :=
  ⟨bought.product, requested, bought.quantity, .between requested bought.quantity⟩

/-- The line with what had to be split, unless just that was bought. -/
def ShoppingItem.settle (requested : Quantity) (bought : Purchase) (item : ShoppingItem) :
    ShoppingItem :=
  if bought.quantity = requested then item
  else { item with requestedQuantity := max requested bought.quantity }

namespace ShoppingItem

variable {bought : Purchase} {requested : Quantity}

@[simp] theorem product_settle (requested : Quantity) (bought : Purchase) (item : ShoppingItem) :
    (item.settle requested bought).product = item.product := by
  unfold settle
  split <;> rfl

theorem settle_of_lt (h : bought.quantity < requested) (item : ShoppingItem) :
    item.settle requested bought = { item with requestedQuantity := requested } := by
  rw [Quantity.lt_def] at h
  have hne : bought.quantity ≠ requested := by
    rintro rfl
    exact Int.lt_irrefl _ h
  have hmax : max requested bought.quantity = requested := by
    ext
    rw [Quantity.hundredths_max]
    omega
  rw [settle, if_neg hne, hmax]

theorem settle_of_gt (h : requested < bought.quantity) (item : ShoppingItem) :
    item.settle requested bought = { item with requestedQuantity := bought.quantity } := by
  rw [Quantity.lt_def] at h
  have hne : bought.quantity ≠ requested := by
    rintro rfl
    exact Int.lt_irrefl _ h
  have hmax : max requested bought.quantity = bought.quantity := by
    ext
    rw [Quantity.hundredths_max]
    omega
  rw [settle, if_neg hne, hmax]

theorem settle_of_eq (h : bought.quantity = requested) (item : ShoppingItem) :
    item.settle requested bought = item := if_pos h

end ShoppingItem

namespace OrderBook

variable {leader : ParticipationId} {bought : Purchase} {purchases : List Purchase} {now : Instant}
  {book : OrderBook} {counters : Counters} {product : ProductId}

theorem handOutProduct_allocation (leader : ParticipationId) (now : Instant) (bought : Purchase)
    (book : OrderBook) (counters : Counters) :
    (handOutProduct leader now bought book counters).1 =
      bought.allocation (book.demand bought.product) := by
  have hsurplus : 0 < bought.quantity - book.demand bought.product ↔
      book.demand bought.product < bought.quantity := Int.sub_pos
  unfold handOutProduct Purchase.allocation Split.between
  dsimp only
  simp only [hsurplus]
  split
  · rfl
  · split <;> rfl

theorem handOutAll_allocations (leader : ParticipationId) (now : Instant) (book : OrderBook)
    (counters : Counters) (distinct : (purchases.map (·.product)).Nodup) :
    (handOutAll leader now purchases book counters).1 =
      purchases.map fun bought => bought.allocation (book.demand bought.product) := by
  induction purchases generalizing book counters with
  | nil => rfl
  | cons first rest ih =>
    rw [List.map_cons, List.nodup_cons] at distinct
    obtain ⟨hfirst, hrest⟩ := distinct
    rw [handOutAll_cons]
    dsimp only
    rw [handOutProduct_allocation, ih _ _ hrest, List.map_cons]
    congr 1
    refine List.map_congr_left fun bought hbought => ?_
    rw [demand_handOutProduct_of_ne]
    intro heq
    exact hfirst (List.mem_map.mpr ⟨bought, hbought, heq⟩)

/-! ## Lines -/

theorem map_product_handOutProduct :
    (handOutProduct leader now bought book counters).2.1.items.map (·.product) =
      book.items.map (·.product) :=
  handOutProduct_items (·.product) fun _ _ => rfl

theorem setRequested_items (book : OrderBook) (list : (book.items.map (·.product)).Nodup)
    (requested : Quantity) :
    (book.setRequested product requested).items = book.items.map fun item =>
      if item.product = product then { item with requestedQuantity := requested } else item := by
  have hunique : book.items.Pairwise fun item later =>
      decide (item.product = product) = true → decide (later.product = product) = false := by
    refine (List.pairwise_map.mp list).imp fun {item later} hproduct hitem => ?_
    rw [← of_decide_eq_true hitem]
    exact decide_eq_false hproduct.symm
  refine (updateFirst_eq_map hunique).trans (List.map_congr_left fun item _ => ?_)
  simp only [decide_eq_true_eq]

theorem handOutProduct_items_eq (list : (book.items.map (·.product)).Nodup) :
    (handOutProduct leader now bought book counters).2.1.items = book.items.map fun item =>
      if item.product = bought.product then item.settle (book.demand bought.product) bought
      else item := by
  unfold handOutProduct
  dsimp only
  split
  · rename_i hshort
    simp only [ShoppingItem.settle_of_lt hshort]
    exact setRequested_items { book with bids := _ } list _
  · rename_i hshort
    split
    · rename_i hsurplus
      simp only [ShoppingItem.settle_of_gt (Int.sub_pos.mp hsurplus)]
      exact setRequested_items { book with bids := _ } list _
    · rename_i hsurplus
      have hexact : bought.quantity = book.demand bought.product := by
        ext
        exact Int.le_antisymm (Int.le_of_sub_nonpos (Int.not_lt.mp hsurplus)) (Int.not_lt.mp hshort)
      simp only [ShoppingItem.settle_of_eq hexact, ite_self]
      exact (List.map_id _).symm

theorem handOutAll_items_eq (list : (book.items.map (·.product)).Nodup)
    (distinct : (purchases.map (·.product)).Nodup) :
    (handOutAll leader now purchases book counters).2.1.items = book.items.map fun item =>
      match purchases.find? (·.product = item.product) with
      | none => item
      | some bought => item.settle (book.demand item.product) bought := by
  induction purchases generalizing book counters with
  | nil => exact (List.map_id _).symm
  | cons first rest ih =>
    rw [List.map_cons, List.nodup_cons] at distinct
    obtain ⟨hfirst, hrest⟩ := distinct
    have hlist : ((handOutProduct leader now first book counters).2.1.items.map
        (·.product)).Nodup := by
      rw [map_product_handOutProduct]
      exact list
    rw [handOutAll_cons]
    dsimp only
    rw [ih hlist hrest, handOutProduct_items_eq list, List.map_map]
    refine List.map_congr_left fun item _ => ?_
    rw [Function.comp_apply]
    by_cases hproduct : item.product = first.product
    · have hnone : rest.find? (·.product = item.product) = none := by
        rw [List.find?_eq_none]
        intro later hlater heq
        exact hfirst (List.mem_map.mpr ⟨later, hlater, (of_decide_eq_true heq).trans hproduct⟩)
      have hfound : (first :: rest).find? (·.product = item.product) = some first :=
        List.find?_cons_of_pos (decide_eq_true hproduct.symm)
      rw [if_pos hproduct, ShoppingItem.product_settle, hnone, hfound, hproduct]
    · have hpassed : (first :: rest).find? (·.product = item.product) =
          rest.find? (·.product = item.product) :=
        List.find?_cons_of_neg fun heq => hproduct (of_decide_eq_true heq).symm
      rw [if_neg hproduct, hpassed, demand_handOutProduct_of_ne hproduct]

end OrderBook

/-! ## Bids -/

/-- The leader's bid on this product takes this surplus. -/
def Bid.TakesFrom (b : Bid) (leader : ParticipationId) (a : Allocation) (surplus : Quantity) :
    Prop :=
  b.isOf leader a.product = true ∧ a.split = .surplus surplus

/-- A bid before and after what was bought is split like this. -/
structure Bid.SettlesTo (leader : ParticipationId) (now : Instant) (allocations : List Allocation)
    (b c : Bid) : Prop where
  row : c.row = b.row
  comment : c.comment = b.comment
  isPickedUp : c.isPickedUp = b.isPickedUp
  grows : ∀ a ∈ allocations, ∀ surplus, b.TakesFrom leader a surplus →
    c.interestedOnly = false ∧ c.quantity = b.committedQuantity + surplus ∧ c.updatedAt = now
  stays : (∀ a ∈ allocations, ∀ surplus, ¬ b.TakesFrom leader a surplus) →
    c.interestedOnly = b.interestedOnly ∧ c.quantity = b.quantity ∧ c.updatedAt = b.updatedAt
  goods : (∀ a ∈ allocations, c.countsFor a.product = false) →
    c.distributedQuantity = b.distributedQuantity ∧ c.distributedPrice = b.distributedPrice

/-- A bid of the leader that is there for a surplus alone. -/
structure Bid.IsForSurplusOf (leader : ParticipationId) (now : Instant) (a : Allocation) (c : Bid) :
    Prop where
  participation : c.participation = leader
  product : c.product = a.product
  surplus : a.split = .surplus c.quantity
  isCommitted : c.interestedOnly = false
  comment : c.comment = none
  notPickedUp : c.isPickedUp = false
  updatedAt : c.updatedAt = now

/-- Whether a surplus was split that the leader has no bid for. -/
def Allocation.needsBid (leader : ParticipationId) (bids : List Bid) (a : Allocation) : Bool :=
  match a.split with
  | .surplus _ => !bids.any (·.isOf leader a.product)
  | _ => false

/-- The bids before are still there, in their order, and after them come those that are there for a
surplus, in the order of the split. -/
def SettleTo (leader : ParticipationId) (now : Instant) (allocations : List Allocation)
    (bids after : List Bid) : Prop :=
  ∃ kept granted, after = kept ++ granted ∧
    List.Forall₂ (Bid.SettlesTo leader now allocations) bids kept ∧
    List.Forall₂ (Bid.IsForSurplusOf leader now) (allocations.filter (·.needsBid leader bids))
      granted

section Settle

variable {leader : ParticipationId} {now : Instant} {allocations : List Allocation}
  {a : Allocation} {b c x : Bid} {bids between after : List Bid}

theorem Bid.product_of_row (h : c.row = b.row) : c.product = b.product :=
  congrArg (fun row : BidRow => row.2.2) h

theorem Bid.SettlesTo.isOf (h : b.SettlesTo leader now allocations c)
    (participation : ParticipationId) (product : ProductId) :
    c.isOf participation product = b.isOf participation product :=
  congrArg (fun row : BidRow => decide (row.2.1 = participation) && decide (row.2.2 = product))
    h.row

theorem Bid.SettlesTo.trans (h : b.SettlesTo leader now [a] x)
    (h' : x.SettlesTo leader now allocations c)
    (apart : ∀ a' ∈ allocations, a'.product ≠ a.product) :
    b.SettlesTo leader now (a :: allocations) c := by
  -- The leader takes surpluses of one product only, so only one of the two parts touches the bid.
  have hfirst (surplus : Quantity) (htakes : b.TakesFrom leader a surplus) :
      ∀ a' ∈ allocations, ∀ surplus', ¬ x.TakesFrom leader a' surplus' := by
    intro a' ha' surplus' htakes'
    have hb := (Bid.isOf_iff.mp htakes.1).2
    have hx := (Bid.isOf_iff.mp htakes'.1).2
    exact apart a' ha' (hx.symm.trans ((Bid.product_of_row h.row).trans hb))
  have hlater {a' : Allocation} {surplus : Quantity} (htakes : b.TakesFrom leader a' surplus) :
      x.TakesFrom leader a' surplus := ⟨(h.isOf leader a'.product).trans htakes.1, htakes.2⟩
  have hearlier {a' : Allocation} {surplus : Quantity} (htakes : x.TakesFrom leader a' surplus) :
      b.TakesFrom leader a' surplus := ⟨(h.isOf leader a'.product).symm.trans htakes.1, htakes.2⟩
  refine ⟨h'.row.trans h.row, h'.comment.trans h.comment, h'.isPickedUp.trans h.isPickedUp,
    fun a' ha' surplus htakes => ?_, fun hnone => ?_, fun hnone => ?_⟩
  · rcases List.mem_cons.mp ha' with rfl | ha'
    · obtain ⟨hinterest, hquantity, hupdated⟩ :=
        h.grows a' (List.mem_singleton_self a') surplus htakes
      obtain ⟨hinterest', hquantity', hupdated'⟩ := h'.stays (hfirst surplus htakes)
      exact ⟨hinterest'.trans hinterest, hquantity'.trans hquantity, hupdated'.trans hupdated⟩
    · obtain ⟨hinterest, hquantity, hupdated⟩ := h'.grows a' ha' surplus (hlater htakes)
      have hstays : ∀ first ∈ [a], ∀ surplus', ¬ b.TakesFrom leader first surplus' := by
        intro first hmem surplus' htakes'
        rw [List.mem_singleton.mp hmem] at htakes'
        exact hfirst surplus' htakes' a' ha' surplus (hlater htakes)
      obtain ⟨hsame, hsame', _⟩ := h.stays hstays
      refine ⟨hinterest, hquantity.trans ?_, hupdated⟩
      unfold Bid.committedQuantity Bid.isCommitted
      rw [hsame, hsame']
  · obtain ⟨hinterest, hquantity, hupdated⟩ := h.stays fun first hmem =>
      hnone first (List.mem_cons.mpr (.inl (List.mem_singleton.mp hmem)))
    obtain ⟨hinterest', hquantity', hupdated'⟩ := h'.stays fun a' ha' surplus htakes =>
      hnone a' (List.mem_cons_of_mem _ ha') surplus (hearlier htakes)
    exact ⟨hinterest'.trans hinterest, hquantity'.trans hquantity, hupdated'.trans hupdated⟩
  · obtain ⟨hquantity', hprice'⟩ := h'.goods fun a' ha' => hnone a' (List.mem_cons_of_mem _ ha')
    obtain ⟨hquantity, hprice⟩ := h.goods fun first hmem => by
      rw [List.mem_singleton.mp hmem, Bool.eq_false_iff]
      intro hcounts
      have hproduct := Bid.product_of_countsFor hcounts
      obtain ⟨hinterest, _⟩ := h'.stays fun a' ha' surplus htakes =>
        apart a' ha' ((Bid.isOf_iff.mp htakes.1).2.symm.trans hproduct)
      have hc := hnone a (List.mem_cons_self ..)
      have hsame : c.countsFor a.product = x.countsFor a.product := by
        unfold Bid.countsFor Bid.isCommitted
        rw [Bid.product_of_row h'.row, hinterest]
      rw [hsame, hcounts] at hc
      cases hc
    exact ⟨hquantity'.trans hquantity, hprice'.trans hprice⟩

theorem Bid.SettlesTo.refl (h : ∀ a ∈ allocations, ∀ surplus, ¬ b.TakesFrom leader a surplus) :
    b.SettlesTo leader now allocations b :=
  ⟨rfl, rfl, rfl, fun a ha surplus htakes => absurd htakes (h a ha surplus),
    fun _ => ⟨rfl, rfl, rfl⟩, fun _ => ⟨rfl, rfl⟩⟩

theorem Bid.SettlesTo.absorb {surplus : Quantity} (htakes : b.TakesFrom leader a surplus) :
    b.SettlesTo leader now [a] (b.absorb surplus now) where
  row := rfl
  comment := rfl
  isPickedUp := rfl
  grows := by
    intro a' ha' surplus' htakes'
    rw [List.mem_singleton.mp ha'] at htakes'
    obtain rfl : surplus = surplus' := Split.surplus.inj (htakes.2.symm.trans htakes'.2)
    refine ⟨rfl, ?_, rfl⟩
    ext
    cases hb : b.interestedOnly <;> simp [Bid.absorb, Bid.committedQuantity, Bid.isCommitted, hb]
  stays hnone := absurd htakes (hnone a (List.mem_singleton_self a) surplus)
  goods _ := ⟨rfl, rfl⟩

/-- Something was handed out for the bid, if it is a committed one on the product. -/
inductive Bid.HandsOut (product : ProductId) (b : Bid) : Bid → Prop
  | skipped (other : b.countsFor product = false) : b.HandsOut product b
  | handedOut (counts : b.countsFor product = true) (quantity : Quantity) (price : Money) :
      b.HandsOut product (b.handedOut quantity price)

theorem forall₂_prorate (bought : Purchase) (requested remaining : Quantity) (bids : List Bid) :
    List.Forall₂ (Bid.HandsOut bought.product) bids (prorate bought requested remaining bids) := by
  induction bids generalizing remaining with
  | nil => exact .nil
  | cons b rest ih =>
    unfold prorate
    split
    · rename_i hb
      exact .cons (.handedOut hb _ _) (ih _)
    · rename_i hb
      exact .cons (.skipped (Bool.eq_false_iff.mpr hb)) (ih _)

theorem forall₂_fulfil (bought : Purchase) (bids : List Bid) :
    List.Forall₂ (Bid.HandsOut bought.product) bids (fulfil bought bids) := by
  refine List.forall₂_map_right_iff.mpr (List.forall₂_same.mpr fun b _ => ?_)
  split
  · rename_i hb
    exact .handedOut hb _ _
  · rename_i hb
    exact .skipped (Bool.eq_false_iff.mpr hb)

theorem Bid.SettlesTo.handsOut (h : b.SettlesTo leader now [a] x) (h' : x.HandsOut a.product c) :
    b.SettlesTo leader now [a] c := by
  cases h' with
  | skipped => exact h
  | handedOut counts quantity price =>
    refine ⟨h.row, h.comment, h.isPickedUp, h.grows, h.stays, fun hnone => ?_⟩
    have hcounts := hnone a (List.mem_singleton_self a)
    rw [Bid.countsFor_handedOut, counts] at hcounts
    cases hcounts

theorem Bid.IsForSurplusOf.handsOut {product : ProductId} (h : x.IsForSurplusOf leader now a)
    (h' : x.HandsOut product c) : c.IsForSurplusOf leader now a := by
  cases h' with
  | skipped => exact h
  | handedOut counts quantity price =>
    exact ⟨h.participation, h.product, h.surplus, h.isCommitted, h.comment, h.notPickedUp,
      h.updatedAt⟩

/-! ## One split -/

theorem SettleTo.handsOut (h : SettleTo leader now [a] bids between)
    (h' : List.Forall₂ (Bid.HandsOut a.product) between after) :
    SettleTo leader now [a] bids after := by
  obtain ⟨kept, granted, rfl, hkept, hgranted⟩ := h
  obtain ⟨kept', granted', rfl, hkept', hgranted'⟩ := exists_append_of_forall₂ h'
  exact ⟨kept', granted', rfl,
    forall₂_trans (fun _ _ _ hsettles hout => hsettles.handsOut hout) hkept hkept',
    forall₂_trans (fun _ _ _ hfor hout => hfor.handsOut hout) hgranted hgranted'⟩

theorem SettleTo.of_noSurplus (h : ∀ surplus, a.split ≠ .surplus surplus) :
    SettleTo leader now [a] bids bids := by
  have hneeds : a.needsBid leader bids = false := by
    unfold Allocation.needsBid
    split
    · rename_i surplus hsplit
      exact absurd hsplit (h surplus)
    · rfl
  refine ⟨bids, [], (List.append_nil _).symm, List.forall₂_same.mpr fun b _ => .refl ?_, ?_⟩
  · intro a' ha' surplus htakes
    rw [List.mem_singleton.mp ha'] at htakes
    exact h surplus htakes.2
  · rw [List.filter_cons_of_neg (by rw [hneeds]; exact Bool.false_ne_true)]
    exact .nil

theorem grantSurplus_settleTo {surplus : Quantity} {counters : Counters}
    (oneEach : OneBidEach bids) (split : a.split = .surplus surplus) :
    SettleTo leader now [a] bids (grantSurplus leader a.product surplus now bids counters).1 := by
  have hneeds : a.needsBid leader bids = !bids.any (·.isOf leader a.product) := by
    unfold Allocation.needsBid
    rw [split]
  unfold grantSurplus
  split
  · rename_i hany
    have hmap : updateFirst (·.isOf leader a.product) (·.absorb surplus now) bids =
        bids.map fun b => if b.isOf leader a.product then b.absorb surplus now else b :=
      updateFirst_eq_map (oneEach.imp fun {b c} hbc hb => by
        obtain ⟨hparticipation, hproduct⟩ := Bid.isOf_iff.mp hb
        rw [← hparticipation, ← hproduct]
        exact hbc)
    refine ⟨_, [], (List.append_nil _).symm, ?_, ?_⟩
    · rw [hmap]
      refine List.forall₂_map_right_iff.mpr (List.forall₂_same.mpr fun b _ => ?_)
      split
      · rename_i hof
        exact .absorb ⟨hof, split⟩
      · rename_i hof
        refine .refl fun a' ha' _ htakes => hof ?_
        rw [List.mem_singleton.mp ha'] at htakes
        exact htakes.1
    · rw [hany] at hneeds
      rw [List.filter_cons_of_neg (by rw [hneeds]; exact Bool.false_ne_true)]
      exact .nil
  · rename_i hnone
    refine ⟨bids, [_], rfl, List.forall₂_same.mpr fun b hb => .refl ?_, ?_⟩
    · intro a' ha' _ htakes
      rw [List.mem_singleton.mp ha'] at htakes
      exact hnone (List.any_eq_true.mpr ⟨b, hb, htakes.1⟩)
    · rw [Bool.eq_false_iff.mpr hnone] at hneeds
      rw [List.filter_cons_of_pos hneeds]
      exact .cons ⟨rfl, rfl, split, rfl, rfl, rfl, rfl⟩ .nil

theorem OrderBook.handOutProduct_settleTo {book : OrderBook} (oneEach : OneBidEach book.bids)
    (leader : ParticipationId) (now : Instant) (bought : Purchase) (counters : Counters) :
    SettleTo leader now [bought.allocation (book.demand bought.product)] book.bids
      (handOutProduct leader now bought book counters).2.1.bids := by
  rw [← handOutProduct_allocation leader now bought book counters]
  unfold handOutProduct
  dsimp only
  split
  · refine (SettleTo.of_noSurplus fun surplus hsplit => ?_).handsOut (forall₂_prorate ..)
    cases hsplit
  · split
    · exact (grantSurplus_settleTo oneEach rfl).handsOut (forall₂_fulfil ..)
    · refine (SettleTo.of_noSurplus fun surplus hsplit => ?_).handsOut (forall₂_fulfil ..)
      cases hsplit

/-! ## One split after the other -/

theorem any_isOf_of_settle {participation : ParticipationId} {product : ProductId}
    (h : List.Forall₂ (Bid.SettlesTo leader now allocations) bids after) :
    after.any (·.isOf participation product) = bids.any (·.isOf participation product) := by
  induction h with
  | nil => rfl
  | cons hhead _ ih => rw [List.any_cons, List.any_cons, hhead.isOf, ih]

theorem Bid.IsForSurplusOf.settlesTo (h : x.IsForSurplusOf leader now a)
    (h' : x.SettlesTo leader now allocations c)
    (apart : ∀ a' ∈ allocations, a'.product ≠ a.product) :
    c.IsForSurplusOf leader now a := by
  obtain ⟨hinterest, hquantity, hupdated⟩ := h'.stays fun a' ha' _ htakes =>
    apart a' ha' ((Bid.isOf_iff.mp htakes.1).2.symm.trans h.product)
  refine ⟨?_, (Bid.product_of_row h'.row).trans h.product, ?_, hinterest.trans h.isCommitted,
    h'.comment.trans h.comment, h'.isPickedUp.trans h.notPickedUp, hupdated.trans h.updatedAt⟩
  · exact (congrArg (fun row : BidRow => row.2.1) h'.row).trans h.participation
  · rw [hquantity]
    exact h.surplus

theorem SettleTo.trans (h : SettleTo leader now [a] bids between)
    (h' : SettleTo leader now allocations between after)
    (apart : ∀ a' ∈ allocations, a'.product ≠ a.product) :
    SettleTo leader now (a :: allocations) bids after := by
  obtain ⟨kept, granted, rfl, hkept, hgranted⟩ := h
  obtain ⟨kept', granted', rfl, hkept', hgranted'⟩ := h'
  obtain ⟨old, new, rfl, hold, hnew⟩ := exists_append_of_forall₂ hkept'
  -- What was entered for `a` is on its product, and so does not matter to the later splits.
  have hgiven : ∀ first ∈ [a].filter (·.needsBid leader bids), first = a := fun first hfirst =>
    List.mem_singleton.mp (List.mem_filter.mp hfirst).1
  have hneeds : ∀ a' ∈ allocations,
      a'.needsBid leader (kept ++ granted) = a'.needsBid leader bids := by
    intro a' ha'
    have hnone : granted.any (·.isOf leader a'.product) = false := by
      refine List.any_eq_false.mpr fun g hg hisOf => ?_
      obtain ⟨first, hfirst, hfor⟩ := exists_of_forall₂ hgranted hg
      rw [hgiven first hfirst] at hfor
      exact apart a' ha' ((Bid.isOf_iff.mp hisOf).2.symm.trans hfor.product)
    unfold Allocation.needsBid
    rw [List.any_append, any_isOf_of_settle hkept, hnone, Bool.or_false]
  refine ⟨old, new ++ granted', List.append_assoc .., ?_, ?_⟩
  · exact forall₂_trans (fun _ _ _ hfirst hrest => hfirst.trans hrest apart) hkept hold
  · have hsplit : (a :: allocations).filter (·.needsBid leader bids) =
        [a].filter (·.needsBid leader bids) ++
          allocations.filter (·.needsBid leader (kept ++ granted)) := by
      rw [List.filter_congr hneeds, ← List.filter_append]
      rfl
    rw [hsplit]
    refine List.rel_append ?_ hgranted'
    refine forall₂_trans (fun _ _ _ hfor hsettles => ?_)
      ((List.forall₂_and_left _ _).mpr ⟨hgiven, hgranted⟩) hnew
    exact hfor.2.settlesTo hsettles (hfor.1 ▸ apart)

theorem OrderBook.handOutAll_settleTo {purchases : List Purchase} {book : OrderBook}
    {counters : Counters} (oneEach : OneBidEach book.bids)
    (distinct : (purchases.map (·.product)).Nodup) :
    SettleTo leader now (handOutAll leader now purchases book counters).1 book.bids
      (handOutAll leader now purchases book counters).2.1.bids := by
  induction purchases generalizing book counters with
  | nil =>
    refine ⟨book.bids, [], (List.append_nil _).symm, ?_, .nil⟩
    exact List.forall₂_same.mpr fun b _ => .refl fun a ha => nomatch ha
  | cons first rest ih =>
    rw [List.map_cons, List.nodup_cons] at distinct
    obtain ⟨hfirst, hrest⟩ := distinct
    have hone := handOutProduct_settleTo oneEach leader now first counters
    have hstill : OneBidEach (handOutProduct leader now first book counters).2.1.bids := by
      obtain ⟨count, _, henters⟩ :=
        handOutProduct_enters (List.mem_singleton_self leader) first book counters now
      have hnodup := henters.nodup_keys (by rw [List.map_map]; exact oneEach.nodup)
      rw [List.map_map] at hnodup
      exact .of_nodup hnodup
    rw [handOutAll_cons]
    dsimp only
    rw [handOutProduct_allocation]
    refine hone.trans (ih hstill hrest) fun a ha heq => hfirst ?_
    rw [handOutAll_allocations _ _ _ _ hrest] at ha
    obtain ⟨later, hlater, rfl⟩ := List.mem_map.mp ha
    exact List.mem_map.mpr ⟨later, hlater, heq⟩

end Settle

end BuyingClub
