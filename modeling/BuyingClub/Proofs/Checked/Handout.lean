import BuyingClub.Proofs.Checked.Balance
import BuyingClub.Proofs.OrderBook.ByProduct
import BuyingClub.Proofs.OrderBook.Surplus

/-!
# A checked handout

Shares, remainders and surpluses fit, whatever is split, and the totals after a split fit again.
Where some totals do not fit, a handout comes to its end exactly if none of those was bought.
-/

namespace BuyingClub

/-! ## A shortage -/

def shareOf? (bought : Purchase) (requested remaining : Quantity) (isLast : Bool) (b : Bid) :
    Option Quantity :=
  if isLast then some remaining
  else do
    let scaled ← b.quantity.scale? bought.quantity requested
    return min scaled remaining

def prorate? (bought : Purchase) (requested : Quantity) : Quantity → List Bid → Option (List Bid)
  | _, [] => some []
  | remaining, b :: rest =>
    if b.countsFor bought.product then do
      let isLast := !rest.any (·.countsFor bought.product)
      let share ← shareOf? bought requested remaining isLast b
      let remaining ← remaining.sub? share
      let rest ← prorate? bought requested remaining rest
      return b.handedOut share bought.price :: rest
    else do
      let rest ← prorate? bought requested remaining rest
      return b :: rest

section Prorate

variable {bought : Purchase} {requested remaining : Quantity}

theorem shareOf?_eq (isLast : Bool) {b : Bid} (hb : b.quantity.IsFit)
    (hbought : 0 ≤ bought.quantity) (hshort : bought.quantity < requested) :
    shareOf? bought requested remaining isLast b =
      some (shareOf bought requested remaining isLast b) := by
  unfold shareOf? shareOf
  split
  · rfl
  · rw [Quantity.scale?_of_short hb hbought hshort]
    rfl

/-- No share is negative or beyond what remains, so what remains stays between zero and what was
bought. -/
theorem prorate?_eq {bids : List Bid}
    (fit : ∀ b ∈ bids, b.countsFor bought.product = true → b.quantity.IsFit)
    (hbought : 0 ≤ bought.quantity) (hshort : bought.quantity < requested)
    (hremaining : remaining.IsFit) :
    prorate? bought requested remaining bids = some (prorate bought requested remaining bids) := by
  induction bids generalizing remaining with
  | nil => rfl
  | cons b rest ih =>
    obtain ⟨hb, hrest⟩ := List.forall_mem_cons.mp fit
    unfold prorate? prorate
    split
    · rename_i hcounts
      have hfit := hb hcounts
      dsimp only
      generalize (!rest.any (·.countsFor bought.product)) = isLast
      have hlow := shareOf_nonneg isLast hfit.1 hfit.fits hbought hshort hremaining.1
      have hhigh := shareOf_le bought requested remaining b isLast
      rw [shareOf?_eq isLast hfit hbought hshort, Option.bind_eq_bind, Option.bind_some]
      generalize shareOf bought requested remaining isLast b = share at hlow hhigh ⊢
      rw [Quantity.le_def] at hlow hhigh
      have hshare : share.IsFit := ⟨hlow, by have := hremaining.2; omega⟩
      have hleft : (remaining - share).IsFit := by
        unfold Quantity.IsFit at hremaining ⊢
        rw [Quantity.hundredths_zero] at hlow
        rw [Quantity.hundredths_sub]
        omega
      rw [Quantity.sub?_of_isFit hremaining hshare, Option.bind_some, ih hrest hleft]
      rfl
    · rw [ih hrest hremaining]
      rfl

end Prorate

/-! ## Enough or more -/

def Bid.absorb? (surplus : Quantity) (now : Instant) (b : Bid) : Option Bid :=
  if b.interestedOnly then some (b.absorb surplus now)
  else do
    let quantity ← b.quantity.add? surplus
    return { b with interestedOnly := false, quantity, updatedAt := now }

def grantSurplus? (leader : ParticipationId) (product : ProductId) (surplus : Quantity)
    (now : Instant) (bids : List Bid) (counters : Counters) : Option (List Bid × Counters) :=
  match bids.find? (·.isOf leader product) with
  | some b => do
    let grown ← b.absorb? surplus now
    return (updateFirst (·.isOf leader product) (fun _ => grown) bids, counters)
  | none =>
    let (id, counters) := counters.drawBid
    some (bids ++ [Bid.forSurplus id leader product surplus now], counters)

section Surplus

variable {leader : ParticipationId} {product : ProductId} {surplus : Quantity} {now : Instant}
  {bids : List Bid} {counters : Counters}

theorem Bid.absorb?_eq {b : Bid} (fit : b.isCommitted = true → (b.quantity + surplus).IsFit) :
    b.absorb? surplus now = some (b.absorb surplus now) := by
  unfold absorb? absorb
  cases hinterest : b.interestedOnly with
  | true => rfl
  | false =>
    have hcommitted : b.isCommitted = true := by simp [isCommitted, hinterest]
    simp only [Bool.false_eq_true, if_false]
    rw [Quantity.add?_of_isFit (fit hcommitted)]
    rfl

theorem grantSurplus?_eq (nonneg : ∀ b ∈ bids, 0 ≤ b.quantity) (hsurplus : 0 ≤ surplus)
    (fits : committedTotal bids product + surplus.hundredths < 2 ^ 63) :
    grantSurplus? leader product surplus now bids counters =
      some (grantSurplus leader product surplus now bids counters) := by
  unfold grantSurplus? grantSurplus
  cases hfind : bids.find? (·.isOf leader product) with
  | none =>
    have hnone : bids.any (·.isOf leader product) = false := by
      rw [List.any_eq_false]
      exact List.find?_eq_none.mp hfind
    simp only [hnone, Bool.false_eq_true, if_false]
  | some b =>
    have hmem := List.mem_of_find?_eq_some hfind
    have hany : bids.any (·.isOf leader product) = true :=
      List.any_eq_true.mpr ⟨b, hmem, by simpa using List.find?_some hfind⟩
    have hgrown : b.absorb? surplus now = some (b.absorb surplus now) := by
      apply Bid.absorb?_eq
      intro hcommitted
      have hcounts : b.countsFor product = true := by
        simp [Bid.countsFor, product_of_find? hfind, hcommitted]
      have hle := le_committedTotal nonneg hmem hcounts
      have hnonneg := nonneg b hmem
      rw [Quantity.le_def, Quantity.hundredths_zero] at hsurplus hnonneg
      unfold Quantity.IsFit
      rw [Quantity.hundredths_add]
      omega
    have hsame : updateFirst (·.isOf leader product) (fun _ => b.absorb surplus now) bids =
        updateFirst (·.isOf leader product) (·.absorb surplus now) bids :=
      updateFirst_congr hfind rfl
    simp only [hgrown, hany, if_true, Option.bind_eq_bind, Option.bind_some]
    rw [hsame]
    rfl

end Surplus

/-! ## The whole handout -/

namespace OrderBook

def handOutProduct? (leader : ParticipationId) (now : Instant) (bought : Purchase)
    (book : OrderBook) (counters : Counters) : Option (Allocation × OrderBook × Counters) := do
  let requested ← book.demand? bought.product
  let allocation (split : Split) : Allocation :=
    ⟨bought.product, requested, bought.quantity, split⟩
  if bought.quantity < requested then
    let bids ← prorate? bought requested bought.quantity book.bids
    return (allocation .prorated, { book with bids }.setRequested bought.product requested,
      counters)
  else
    let surplus ← bought.quantity.sub? requested
    if 0 < surplus then
      let (bids, counters) ← grantSurplus? leader bought.product surplus now book.bids counters
      let book := { book with bids := fulfil bought bids }
      return (allocation (.surplus surplus), book.setRequested bought.product bought.quantity,
        counters)
    else
      return (allocation .exact, { book with bids := fulfil bought book.bids }, counters)

def handOutAll? (leader : ParticipationId) (now : Instant) : List Purchase → OrderBook →
    Counters → Option (List Allocation × OrderBook × Counters)
  | [], book, counters => some ([], book, counters)
  | bought :: rest, book, counters => do
    let (allocation, book, counters) ← handOutProduct? leader now bought book counters
    let (allocations, book, counters) ← handOutAll? leader now rest book counters
    return (allocation :: allocations, book, counters)

def handOut? (book : OrderBook) (now : Instant) (counters : Counters) :
    Option (Except Refusal (List Allocation × OrderBook × Counters)) :=
  match book.leader? with
  | none => some (.error (.missing (.leaderOf book.run.id)))
  | some leader => do
    let done ← handOutAll? leader.id now book.purchases book counters
    return .ok done

variable {leader : ParticipationId} {now : Instant} {bought : Purchase} {book : OrderBook}
  {counters : Counters}

theorem handOutProduct?_eq (nonneg : ∀ b ∈ book.bids, 0 ≤ b.quantity)
    (fits : FitsAmount (book.demand bought.product).hundredths) (hbought : bought.quantity.IsFit) :
    handOutProduct? leader now bought book counters =
      some (handOutProduct leader now bought book counters) := by
  have hdemand := isFit_demand nonneg fits.2
  have htotal := hundredths_demand book bought.product
  unfold handOutProduct? handOutProduct
  rw [(demand?_eq_some_iff nonneg).mpr ⟨rfl, fits⟩, Option.bind_eq_bind, Option.bind_some]
  dsimp only
  split
  · rename_i hshort
    have hbids : ∀ b ∈ book.bids, b.countsFor bought.product = true → b.quantity.IsFit :=
      fun b hb => isFit_quantity_of_countsFor nonneg (htotal ▸ fits.2) hb
    rw [prorate?_eq hbids hbought.1 hshort hbought]
    rfl
  · rename_i hshort
    rw [Quantity.sub?_of_isFit hbought hdemand, Option.bind_some]
    split
    · rename_i hsurplus
      have hgranted : committedTotal book.bids bought.product +
          (bought.quantity - book.demand bought.product).hundredths < 2 ^ 63 := by
        rw [← htotal, Quantity.hundredths_sub]
        have := hbought.2
        omega
      rw [grantSurplus?_eq nonneg (Int.le_of_lt hsurplus) hgranted]
      rfl
    · rfl

theorem bidsFit_handOutProduct (h : BidsFit book.bids) (hbought : bought.quantity.IsFit) :
    BidsFit (handOutProduct leader now bought book counters).2.1.bids where
  nonneg := handOutProduct_nonneg h.nonneg
  totals product := Int.lt_of_le_sub_one (committedTotal_handOutProduct_le
    (fun other => Int.le_sub_one_of_lt (h.totals other)) (Int.le_sub_one_of_lt hbought.2) product)

theorem handOutAll?_eq {purchases : List Purchase} (h : BidsFit book.bids)
    (fit : ∀ bought ∈ purchases, bought.quantity.IsFit) :
    handOutAll? leader now purchases book counters =
        some (handOutAll leader now purchases book counters) ∧
      BidsFit (handOutAll leader now purchases book counters).2.1.bids := by
  induction purchases generalizing book counters with
  | nil => exact ⟨rfl, h⟩
  | cons bought rest ih =>
    obtain ⟨hbought, hrest⟩ := List.forall_mem_cons.mp fit
    obtain ⟨hall, hfit⟩ := ih (bidsFit_handOutProduct h hbought) hrest
    rw [handOutAll_cons]
    refine ⟨?_, hfit⟩
    unfold handOutAll?
    rw [handOutProduct?_eq h.nonneg (h.isFit_demand bought.product).fits hbought,
      Option.bind_eq_bind, Option.bind_some]
    dsimp only
    rw [hall]
    rfl

/-! ## Where the totals need not fit -/

theorem handOutProduct?_eq_some_iff {result : Allocation × OrderBook × Counters}
    (nonneg : ∀ b ∈ book.bids, 0 ≤ b.quantity) (hbought : bought.quantity.IsFit) :
    handOutProduct? leader now bought book counters = some result ↔
      result = handOutProduct leader now bought book counters ∧
        FitsAmount (book.demand bought.product).hundredths := by
  constructor
  · intro h
    obtain ⟨requested, hrequested, _⟩ := Option.bind_eq_some_iff.mp h
    obtain ⟨rfl, hfits⟩ := of_demand? hrequested
    rw [handOutProduct?_eq nonneg hfits hbought] at h
    exact ⟨(Option.some.inj h).symm, hfits⟩
  · rintro ⟨rfl, hfits⟩
    exact handOutProduct?_eq nonneg hfits hbought

/-- Each total is added up when its product's turn has come, and by then it is what it was in the
beginning. -/
theorem handOutAll?_eq_some_iff {purchases : List Purchase}
    {result : List Allocation × OrderBook × Counters} (nonneg : ∀ b ∈ book.bids, 0 ≤ b.quantity)
    (distinct : (purchases.map (·.product)).Nodup)
    (fit : ∀ bought ∈ purchases, bought.quantity.IsFit) :
    handOutAll? leader now purchases book counters = some result ↔
      result = handOutAll leader now purchases book counters ∧
        ∀ bought ∈ purchases, FitsAmount (book.demand bought.product).hundredths := by
  induction purchases generalizing book counters result with
  | nil => simp [handOutAll?, handOutAll, eq_comm]
  | cons bought rest ih =>
    obtain ⟨hbought, hrest⟩ := List.forall_mem_cons.mp fit
    obtain ⟨hfirst, hdistinct⟩ := List.nodup_cons.mp distinct
    have hlater {later : Purchase} (hmem : later ∈ rest) :
        (handOutProduct leader now bought book counters).2.1.demand later.product =
          book.demand later.product :=
      demand_handOutProduct_of_ne fun heq => hfirst (List.mem_map.mpr ⟨later, hmem, heq⟩)
    rw [List.forall_mem_cons, handOutAll_cons]
    unfold handOutAll?
    constructor
    · intro h
      obtain ⟨done, hdone, h⟩ := Option.bind_eq_some_iff.mp h
      obtain ⟨rfl, hfits⟩ := (handOutProduct?_eq_some_iff nonneg hbought).mp hdone
      obtain ⟨more, hmore, h⟩ := Option.bind_eq_some_iff.mp h
      obtain ⟨rfl, hall⟩ := (ih (handOutProduct_nonneg nonneg) hdistinct hrest).mp hmore
      cases h
      exact ⟨rfl, hfits, fun later hmem => hlater hmem ▸ hall later hmem⟩
    · rintro ⟨rfl, hfits, hall⟩
      refine Option.bind_eq_some_iff.mpr ⟨_, handOutProduct?_eq nonneg hfits hbought, ?_⟩
      refine Option.bind_eq_some_iff.mpr ⟨_, (ih (handOutProduct_nonneg nonneg) hdistinct
        hrest).mpr ⟨rfl, fun later hmem => ?_⟩, rfl⟩
      exact (hlater hmem).symm ▸ hall later hmem

theorem handOut?_eq_some_iff {leading : Participation}
    {result : Except Refusal (List Allocation × OrderBook × Counters)}
    (leads : book.leader? = some leading) (nonneg : ∀ b ∈ book.bids, 0 ≤ b.quantity)
    (list : (book.items.map (·.product)).Nodup)
    (fit : ∀ bought ∈ book.purchases, FitsAmount bought.quantity.hundredths) :
    book.handOut? now counters = some result ↔
      result = book.handOut now counters ∧
        ∀ bought ∈ book.purchases, FitsAmount (book.demand bought.product).hundredths := by
  have hfit : ∀ bought ∈ book.purchases, bought.quantity.IsFit := by
    intro bought hbought
    obtain ⟨item, _, quantity, _, hpositive, heq⟩ := mem_purchases_iff.mp hbought
    have hquantity : bought.quantity = quantity := congrArg Purchase.quantity heq
    exact ⟨Int.le_of_lt (hquantity ▸ hpositive), (fit bought hbought).2⟩
  have hdistinct := list.sublist book.purchases_sublist
  unfold handOut? handOut
  rw [leads]
  constructor
  · intro h
    obtain ⟨done, hdone, h⟩ := Option.bind_eq_some_iff.mp h
    obtain ⟨rfl, hfits⟩ := (handOutAll?_eq_some_iff nonneg hdistinct hfit).mp hdone
    cases h
    exact ⟨rfl, hfits⟩
  · rintro ⟨rfl, hfits⟩
    exact Option.bind_eq_some_iff.mpr
      ⟨_, (handOutAll?_eq_some_iff nonneg hdistinct hfit).mpr ⟨rfl, hfits⟩, rfl⟩

/-! ## Where all amounts fit -/

theorem AmountsFit.isFit_purchases (h : book.AmountsFit) :
    ∀ bought ∈ book.purchases, bought.quantity.IsFit := by
  intro bought hbought
  obtain ⟨item, hitem, quantity, hquantity, _, rfl⟩ := mem_purchases_iff.mp hbought
  exact h.purchases item hitem quantity hquantity

theorem AmountsFit.handOut?_eq (h : book.AmountsFit) (now : Instant) (counters : Counters) :
    book.handOut? now counters = some (book.handOut now counters) := by
  unfold handOut? handOut
  cases book.leader? with
  | none => rfl
  | some leader =>
    dsimp only
    rw [(handOutAll?_eq h.bids h.isFit_purchases).1]
    rfl

end OrderBook

end BuyingClub
