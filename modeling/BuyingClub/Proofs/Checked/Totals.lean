import BuyingClub.Proofs.Checked.Amount
import BuyingClub.Proofs.OrderBook.Sharing
import BuyingClub.Proofs.OrderBook.ShoppingList

/-!
# Checked totals

If no bid is negative and every committed total fits in 64 bits, so does all that is added up on the
way to them. Whatever the bids, one pass over them comes to all the totals if and only if each comes
out by itself.
-/

namespace BuyingClub

/-- No bid is negative, and the committed total of every product fits. -/
structure BidsFit (bids : List Bid) : Prop where
  nonneg : ∀ b ∈ bids, 0 ≤ b.quantity
  totals : ∀ product, committedTotal bids product < 2 ^ 63

/-! ## One product -/

theorem isFit_quantity_of_countsFor {bids : List Bid} {product : ProductId}
    (nonneg : ∀ b ∈ bids, 0 ≤ b.quantity) (fits : committedTotal bids product < 2 ^ 63) {b : Bid}
    (hb : b ∈ bids) (hcounts : b.countsFor product = true) : b.quantity.IsFit :=
  ⟨nonneg b hb, Int.lt_of_le_of_lt (le_committedTotal nonneg hb hcounts) fits⟩

namespace OrderBook

variable {book : OrderBook} {product : ProductId} {total : Quantity}

def demand? (book : OrderBook) (product : ProductId) : Option Quantity :=
  Quantity.sum? ((book.bids.filter (·.countsFor product)).map (·.quantity))

theorem of_demand? (h : book.demand? product = some total) :
    total = book.demand product ∧ FitsAmount total.hundredths :=
  Quantity.of_sum? h

theorem isFit_demand (nonneg : ∀ b ∈ book.bids, 0 ≤ b.quantity)
    (fits : (book.demand product).hundredths < 2 ^ 63) : (book.demand product).IsFit := by
  refine ⟨?_, fits⟩
  rw [hundredths_demand]
  exact committedTotal_nonneg nonneg product

theorem demand?_eq_some_iff (nonneg : ∀ b ∈ book.bids, 0 ≤ b.quantity) :
    book.demand? product = some total ↔
      total = book.demand product ∧ FitsAmount (book.demand product).hundredths := by
  constructor
  · intro h
    obtain ⟨rfl, hfits⟩ := of_demand? h
    exact ⟨rfl, hfits⟩
  · rintro ⟨rfl, hfits⟩
    refine Quantity.sum?_of_isFit (fun q hq => ?_) (isFit_demand nonneg hfits.2)
    obtain ⟨b, hb, rfl⟩ := List.mem_map.mp hq
    exact nonneg b (List.mem_filter.mp hb).1

end OrderBook

namespace BidsFit

variable {bids : List Bid} {book : OrderBook} {product : ProductId}

theorem isFit_demand (h : BidsFit book.bids) (product : ProductId) :
    (book.demand product).IsFit := by
  apply OrderBook.isFit_demand h.nonneg
  rw [OrderBook.hundredths_demand]
  exact h.totals product

theorem demand?_eq (h : BidsFit book.bids) (product : ProductId) :
    book.demand? product = some (book.demand product) :=
  (OrderBook.demand?_eq_some_iff h.nonneg).mpr ⟨rfl, (h.isFit_demand product).fits⟩

theorem isFit_quantity (h : BidsFit bids) {b : Bid} (hb : b ∈ bids)
    (hcounts : b.countsFor product = true) : b.quantity.IsFit :=
  isFit_quantity_of_countsFor h.nonneg (h.totals product) hb hcounts

end BidsFit

/-! ## All products -/

def addTotal? (product : ProductId) (amount : Quantity) : List (ProductId × Quantity) →
    Option (List (ProductId × Quantity))
  | [] => some [(product, amount)]
  | (p, total) :: rest =>
    if product < p then some ((product, amount) :: (p, total) :: rest)
    else if product = p then do
      let total ← total.add? amount
      return (p, total) :: rest
    else do
      let rest ← addTotal? product amount rest
      return (p, total) :: rest

def OrderBook.demands? (book : OrderBook) : Option (List (ProductId × Quantity)) :=
  book.bids.foldlM (fun totals b => addTotal? b.product b.committedQuantity totals) []

theorem addTotal?_eq {product : ProductId} {amount : Quantity}
    {totals : List (ProductId × Quantity)}
    (fits : ∀ total, (product, total) ∈ totals → FitsAmount (total + amount).hundredths) :
    addTotal? product amount totals = some (addTotal product amount totals) := by
  induction totals with
  | nil => rfl
  | cons entry rest ih =>
    obtain ⟨key, total⟩ := entry
    unfold addTotal? addTotal
    split
    · rfl
    · split
      · rename_i hkey
        subst hkey
        rw [Quantity.add?, Quantity.fit?_of_fits (fits total List.mem_cons_self)]
        rfl
      · rw [ih fun total htotal => fits total (List.mem_cons_of_mem _ htotal)]
        rfl

theorem addTotal_nonneg {product : ProductId} {amount : Quantity}
    {totals : List (ProductId × Quantity)} (hamount : 0 ≤ amount)
    (before : ∀ entry ∈ totals, 0 ≤ entry.2) :
    ∀ entry ∈ addTotal product amount totals, 0 ≤ entry.2 := by
  induction totals with
  | nil =>
    intro entry hentry
    rw [List.mem_singleton.mp hentry]
    exact hamount
  | cons first rest ih =>
    obtain ⟨key, total⟩ := first
    obtain ⟨htotal, hrest⟩ := List.forall_mem_cons.mp before
    unfold addTotal
    split
    · exact List.forall_mem_cons.mpr ⟨hamount, before⟩
    · split
      · exact List.forall_mem_cons.mpr ⟨Int.add_nonneg htotal hamount, hrest⟩
      · exact List.forall_mem_cons.mpr ⟨htotal, ih hrest⟩

theorem le_listedTotal {product : ProductId} {total : Quantity}
    {totals : List (ProductId × Quantity)} (nonneg : ∀ entry ∈ totals, 0 ≤ entry.2)
    (h : (product, total) ∈ totals) : total.hundredths ≤ listedTotal totals product := by
  apply List.single_le_sum
  · intro n hn
    obtain ⟨entry, hentry, rfl⟩ := List.mem_map.mp hn
    split
    · exact nonneg entry hentry
    · exact Int.le_refl 0
  · exact List.mem_map.mpr ⟨_, h, if_pos rfl⟩

theorem foldlM_addTotal?_eq {bids : List Bid} {totals : List (ProductId × Quantity)}
    (bidsNonneg : ∀ b ∈ bids, 0 ≤ b.quantity) (nonneg : ∀ entry ∈ totals, 0 ≤ entry.2)
    (fits : ∀ product, listedTotal totals product + committedTotal bids product < 2 ^ 63) :
    bids.foldlM (fun totals b => addTotal? b.product b.committedQuantity totals) totals =
      some (bids.foldl (fun totals b => addTotal b.product b.committedQuantity totals) totals) := by
  induction bids generalizing totals with
  | nil => rfl
  | cons b rest ih =>
    obtain ⟨hb, hrest⟩ := List.forall_mem_cons.mp bidsNonneg
    have hamount : 0 ≤ b.committedQuantity := by
      unfold Bid.committedQuantity
      split
      · exact hb
      · exact Int.le_refl 0
    have hsum (product : ProductId) : committedTotal (b :: rest) product =
        b.towards product + committedTotal rest product := rfl
    have hstep : addTotal? b.product b.committedQuantity totals =
        some (addTotal b.product b.committedQuantity totals) := by
      apply addTotal?_eq
      intro total htotal
      have hle := le_listedTotal nonneg htotal
      have hnonneg : 0 ≤ total.hundredths := nonneg _ htotal
      have hlater := committedTotal_nonneg hrest b.product
      have htowards := b.towards_product
      have hfits := fits b.product
      rw [hsum] at hfits
      rw [Quantity.le_def, Quantity.hundredths_zero] at hamount
      rw [Quantity.hundredths_add]
      unfold FitsAmount
      omega
    rw [List.foldlM_cons, hstep]
    refine ih hrest (addTotal_nonneg hamount nonneg) fun product => ?_
    rw [listedTotal_addTotal_bid, Int.add_assoc, ← hsum]
    exact fits product

theorem BidsFit.demands?_eq {book : OrderBook} (h : BidsFit book.bids) :
    book.demands? = some book.demands := by
  apply foldlM_addTotal?_eq h.nonneg (List.forall_mem_nil _)
  intro product
  have htotal := h.totals product
  unfold listedTotal
  simpa using htotal

/-! ## One by one and in one pass -/

theorem of_addTotal? {product : ProductId} {amount : Quantity}
    {totals after : List (ProductId × Quantity)} (ascend : (totals.map (·.1)).Pairwise (· < ·))
    (h : addTotal? product amount totals = some after) :
    after = addTotal product amount totals ∧
      ∀ total, (product, total) ∈ totals → FitsAmount (total + amount).hundredths := by
  induction totals generalizing after with
  | nil =>
    cases h
    exact ⟨rfl, nofun⟩
  | cons entry rest ih =>
    obtain ⟨key, first⟩ := entry
    rw [List.map_cons, List.pairwise_cons] at ascend
    obtain ⟨hkey, hrest⟩ := ascend
    have hlater {total : Quantity} (hmem : (product, total) ∈ rest) : key < product :=
      hkey product (List.mem_map_of_mem hmem)
    unfold addTotal? at h
    unfold addTotal
    simp only [List.mem_cons, Prod.mk.injEq]
    split at h
    · rename_i hlt
      cases h
      refine ⟨(if_pos hlt).symm, ?_⟩
      rintro total (⟨rfl, -⟩ | hmem)
      · exact absurd hlt (Nat.lt_irrefl _)
      · exact absurd hlt (Nat.lt_asymm (hlater hmem))
    · rename_i hnlt
      rw [if_neg hnlt]
      split at h
      · rename_i heq
        subst heq
        rw [if_pos rfl]
        obtain ⟨sum, hsum, hafter⟩ := Option.bind_eq_some_iff.mp h
        obtain ⟨rfl, hfits⟩ := Quantity.fit?_eq_some_iff.mp hsum
        cases hafter
        refine ⟨rfl, ?_⟩
        rintro total (⟨-, rfl⟩ | hmem)
        · exact hfits
        · exact absurd (hlater hmem) (Nat.lt_irrefl _)
      · rename_i hne
        rw [if_neg hne]
        obtain ⟨others, hothers, hafter⟩ := Option.bind_eq_some_iff.mp h
        obtain ⟨rfl, hfits⟩ := ih hrest hothers
        cases hafter
        refine ⟨rfl, ?_⟩
        rintro total (⟨heq, -⟩ | hmem)
        · exact absurd heq hne
        · exact hfits total hmem

namespace OrderBook

/-- The book with one more bid. -/
def entering (book : OrderBook) (b : Bid) : OrderBook := { book with bids := book.bids ++ [b] }

theorem isSome_demand?_entering (book : OrderBook) (b : Bid) (product : ProductId) :
    ((book.entering b).demand? product).isSome = true ↔
      (book.demand? product).isSome = true ∧
        (b.countsFor product = true →
          FitsAmount (book.demand product + b.quantity).hundredths) := by
  unfold demand? demand entering
  rw [List.filter_append]
  cases hcounts : b.countsFor product with
  | false => simp [hcounts]
  | true =>
    have hlast : [b].filter (·.countsFor product) = [b] := by simp [hcounts]
    rw [hlast, List.map_append, List.map_singleton, Quantity.sum?_append_singleton_iff]
    simp

theorem demands?_entering (book : OrderBook) (b : Bid) :
    (book.entering b).demands? = book.demands?.bind (addTotal? b.product b.committedQuantity) := by
  unfold demands? entering
  rw [List.foldlM_append]
  cases book.bids.foldlM (fun totals b => addTotal? b.product b.committedQuantity totals) [] with
  | none => rfl
  | some totals => simp

theorem demands_entering (book : OrderBook) (b : Bid) :
    (book.entering b).demands = addTotal b.product b.committedQuantity book.demands := by
  unfold demands entering
  rw [List.foldl_append]
  rfl

theorem demand?_eq_some_demand_iff {book : OrderBook} {product : ProductId} :
    book.demand? product = some (book.demand product) ↔
      (book.demand? product).isSome = true := by
  constructor
  · intro h
    rw [h]
    rfl
  · intro h
    obtain ⟨total, htotal⟩ := Option.isSome_iff_exists.mp h
    rw [htotal, (of_demand? htotal).1]

theorem fits_entering_iff {book : OrderBook} {b : Bid} (fits : FitsAmount b.quantity.hundredths)
    (before : ∀ product, (book.demand? product).isSome = true) :
    (∀ total, (b.product, total) ∈ book.demands →
        FitsAmount (total + b.committedQuantity).hundredths) ↔
      ∀ product, b.countsFor product = true →
        FitsAmount (book.demand product + b.quantity).hundredths := by
  constructor
  · intro h product hcounts
    have hcounted := hcounts
    rw [Bid.countsFor, Bool.and_eq_true, decide_eq_true_iff] at hcounted
    obtain ⟨rfl, hcommitted⟩ := hcounted
    by_cases hlisted : b.product ∈ book.products
    · have hmem : (b.product, book.demand b.product) ∈ book.demands := by
        rw [demands_eq_map_products]
        exact List.mem_map.mpr ⟨b.product, hlisted, rfl⟩
      have hfits := h _ hmem
      rwa [Bid.committedQuantity, if_pos hcommitted] at hfits
    · rw [demand_eq_zero hlisted, Quantity.hundredths_add, Quantity.hundredths_zero, Int.zero_add]
      exact fits
  · intro h total htotal
    obtain rfl := demand_of_mem_demands htotal
    cases hcommitted : b.isCommitted with
    | true =>
      have hcounts : b.countsFor b.product = true := by simp [Bid.countsFor, hcommitted]
      unfold Bid.committedQuantity
      rw [if_pos hcommitted]
      exact h b.product hcounts
    | false =>
      obtain ⟨total, hsome⟩ := Option.isSome_iff_exists.mp (before b.product)
      obtain ⟨rfl, hfits⟩ := of_demand? hsome
      unfold Bid.committedQuantity
      simpa [hcommitted] using hfits

theorem demands?_eq_some_iff {book : OrderBook} {totals : List (ProductId × Quantity)}
    (fit : ∀ b ∈ book.bids, FitsAmount b.quantity.hundredths) :
    book.demands? = some totals ↔
      totals = book.demands ∧ ∀ product, book.demand? product = some (book.demand product) := by
  simp only [demand?_eq_some_demand_iff]
  obtain ⟨run, participations, bids, items⟩ := book
  induction bids using List.reverseRecOn generalizing totals with
  | nil =>
    constructor
    · rintro ⟨⟩
      exact ⟨rfl, fun _ => rfl⟩
    · rintro ⟨rfl, -⟩
      rfl
  | append_singleton rest b ih =>
    let book : OrderBook := ⟨run, participations, rest, items⟩
    obtain ⟨hrest, hb⟩ := List.forall_mem_append.mp fit
    have hfits := List.forall_mem_singleton.mp hb
    have hascend : (book.demands.map (·.1)).Pairwise (· < ·) := by
      rw [map_fst_demands]
      exact book.products_ascend
    show (book.entering b).demands? = some totals ↔
      totals = (book.entering b).demands ∧
        ∀ product, ((book.entering b).demand? product).isSome = true
    rw [demands?_entering, Option.bind_eq_some_iff, demands_entering]
    simp only [isSome_demand?_entering, forall_and]
    constructor
    · rintro ⟨before, hone, hadd⟩
      obtain ⟨rfl, hbefore⟩ := (ih hrest).mp hone
      obtain ⟨rfl, hadds⟩ := of_addTotal? hascend hadd
      exact ⟨rfl, hbefore, (fits_entering_iff hfits hbefore).mp hadds⟩
    · rintro ⟨rfl, hbefore, hadds⟩
      exact ⟨book.demands, (ih hrest).mpr ⟨rfl, hbefore⟩,
        addTotal?_eq ((fits_entering_iff hfits hbefore).mpr hadds)⟩

end OrderBook

end BuyingClub
