import BuyingClub.OrderBook.PickupSheet
import BuyingClub.Proofs.Checked.Amount
import BuyingClub.Proofs.Integrity
import BuyingClub.Proofs.OrderBook.Products

/-!
# A checked pickup sheet

A user has at most one line per product, so what the lines cost together fits if so many of the
dearest do.
-/

namespace BuyingClub

def PickupRow.ofLines? (users : Names .user) (user : UserId) (lines : List PickupLine) :
    Option PickupRow := do
  let lines := lines.mergeSort fun a b => decide (a.productName ≤ b.productName)
  let total ← Money.sum? (lines.map (·.subtotal))
  return {
    user
    userName := users.display user
    lines
    total
    allPickedUp := lines.all (·.isPickedUp) }

def OrderBook.pickupSheet? (book : OrderBook) (products : Names .product) (users : Names .user) :
    Option (Except Refusal (List PickupRow)) :=
  match book.pickupLines products book.bids with
  | .error why => some (.error why)
  | .ok lines => do
    let rows ← (ownersOf lines).mapM fun user =>
      PickupRow.ofLines? users user (linesOf user lines)
    return .ok (rows.mergeSort PickupRow.notAfter)

/-! ## Lines -/

/-- What was handed out for a bid is not negative, and at most so much at such a price. -/
structure Bid.GetsAtMost (most : Quantity) (highest : Money) (b : Bid) : Prop where
  quantity : ∀ quantity, b.distributedQuantity = some quantity → 0 ≤ quantity ∧ quantity ≤ most
  price : ∀ price, b.distributedPrice = some price → 0 ≤ price ∧ price ≤ highest

namespace OrderBook

variable {book : OrderBook} {most : Quantity} {highest largest : Money}

theorem pickupLine?_eq_ok (book : OrderBook) (products : Names .product) {b : Bid}
    (hb : b.GetsAtMost most highest) (hhighest : 0 ≤ highest)
    (hlargest : highest.times most = .ok largest) :
    ∃ line, book.pickupLine? products b = .ok line ∧
      ∀ entry, line = some entry →
        book.bidder? b = some entry.1 ∧ 0 ≤ entry.2.subtotal ∧ entry.2.subtotal ≤ largest := by
  unfold pickupLine?
  split
  · rename_i quantity owner _ hquantity howner
    obtain ⟨hlow, hhigh⟩ := hb.quantity quantity hquantity
    have hprice : 0 ≤ b.distributedPrice.getD 0 ∧ b.distributedPrice.getD 0 ≤ highest := by
      cases hprice : b.distributedPrice with
      | none => exact ⟨Int.le_refl 0, hhighest⟩
      | some price => exact hb.price price hprice
    obtain ⟨subtotal, htimes, hsubtotal⟩ := Money.times_le hprice.1 hlow hprice.2 hhigh hlargest
    dsimp only
    rw [htimes]
    refine ⟨_, rfl, ?_⟩
    rintro entry ⟨⟩
    exact ⟨howner, hsubtotal⟩
  · exact ⟨none, rfl, nofun⟩

theorem pickupLines_eq_ok (book : OrderBook) (products : Names .product) {bids : List Bid}
    (gets : ∀ b ∈ bids, b.GetsAtMost most highest) (hhighest : 0 ≤ highest)
    (hlargest : highest.times most = .ok largest) :
    ∃ lines, book.pickupLines products bids = .ok lines ∧
      (∀ entry ∈ lines, 0 ≤ entry.2.subtotal ∧ entry.2.subtotal ≤ largest) ∧
      (lines.map fun entry => some entry.1).Sublist (bids.map book.bidder?) := by
  induction bids with
  | nil => exact ⟨[], rfl, nofun, .slnil⟩
  | cons b rest ih =>
    obtain ⟨hb, hrest⟩ := List.forall_mem_cons.mp gets
    obtain ⟨line, hline, hentry⟩ := pickupLine?_eq_ok book products hb hhighest hlargest
    obtain ⟨lines, hlines, hsubtotals, howners⟩ := ih hrest
    refine ⟨line.toList ++ lines, ?_, ?_, ?_⟩
    · unfold pickupLines
      rw [hline, hlines]
      rfl
    · intro entry hmem
      rcases List.mem_append.mp hmem with hmem | hmem
      · exact (hentry entry (Option.mem_toList.mp hmem)).2
      · exact hsubtotals entry hmem
    · cases line with
      | none => exact .cons _ howners
      | some entry =>
        rw [List.map_cons, (hentry entry rfl).1]
        exact .cons_cons _ howners

theorem length_linesOf (user : UserId) (lines : List (UserId × PickupLine)) :
    (linesOf user lines).length = (lines.map fun entry => some entry.1).count (some user) := by
  induction lines with
  | nil => rfl
  | cons entry rest ih =>
    unfold linesOf at ih ⊢
    by_cases howner : entry.1 = user
    · simp [howner, ih]
    · simp [howner, ih]

/-- A user takes part once and has one bid per product, so the products outnumber the bids. -/
theorem count_bidder?_le (h : book.IsTidy) (user : UserId) :
    (book.bids.map book.bidder?).count (some user) ≤ book.products.length := by
  rw [List.count_eq_countP, List.countP_map, List.countP_eq_length_filter]
  apply h.length_filter_le
  · intro b c hb hc hproduct
    obtain ⟨p, hp, huser⟩ := Option.map_eq_some_iff.mp (beq_iff_eq.mp hb)
    obtain ⟨q, hq, huser'⟩ := Option.map_eq_some_iff.mp (beq_iff_eq.mp hc)
    have hpq : p = q := List.inj_on_of_nodup_map h.seated.users (List.mem_of_find?_eq_some hp)
      (List.mem_of_find?_eq_some hq) (huser.trans huser'.symm)
    refine ⟨?_, hproduct⟩
    rw [← id_of_participation? hp, ← id_of_participation? hq, hpq]
  · intro b hb
    exact product_mem_products hb

end OrderBook

/-! ## Rows -/

theorem PickupRow.ofLines?_eq {users : Names .user} {user : UserId} {lines : List PickupLine}
    {largest : Money} {count : Nat}
    (subtotals : ∀ line ∈ lines, 0 ≤ line.subtotal ∧ line.subtotal ≤ largest)
    (length_le : lines.length ≤ count) (hlargest : 0 ≤ largest)
    (fits : FitsAmount (count * largest.cents)) :
    ofLines? users user lines = some (ofLines users user lines) := by
  unfold ofLines? ofLines
  dsimp only
  generalize hsorted : lines.mergeSort (fun a b => decide (a.productName ≤ b.productName)) = sorted
  have hperm : sorted.Perm lines := hsorted ▸ List.mergeSort_perm ..
  have htotal : Money.sum? (sorted.map (·.subtotal)) = some (sorted.map (·.subtotal)).sum := by
    refine Money.sum?_of_le ?_ ?_ ?_ fits hlargest
    · intro m hm
      obtain ⟨line, hline, rfl⟩ := List.mem_map.mp hm
      exact (subtotals line (hperm.mem_iff.mp hline)).1
    · intro m hm
      obtain ⟨line, hline, rfl⟩ := List.mem_map.mp hm
      exact (subtotals line (hperm.mem_iff.mp hline)).2
    · rw [List.length_map, hperm.length_eq]
      exact length_le
  rw [htotal]
  rfl

theorem OrderBook.pickupSheet?_eq {book : OrderBook} {most : Quantity} {highest largest : Money}
    {count : Nat} (tidy : book.IsTidy) (gets : ∀ b ∈ book.bids, b.GetsAtMost most highest)
    (hhighest : 0 ≤ highest) (hlargest : highest.times most = .ok largest) (hnonneg : 0 ≤ largest)
    (products_le : book.products.length ≤ count) (fits : FitsAmount (count * largest.cents))
    (products : Names .product) (users : Names .user) :
    ∃ rows, book.pickupSheet? products users = some (.ok rows) ∧
      book.pickupSheet products users = .ok rows := by
  obtain ⟨lines, hlines, hsubtotals, howners⟩ :=
    pickupLines_eq_ok book products gets hhighest hlargest
  have hrows : (ownersOf lines).mapM (fun user =>
      PickupRow.ofLines? users user (linesOf user lines)) =
        some ((ownersOf lines).map fun user =>
          PickupRow.ofLines users user (linesOf user lines)) := by
    apply mapM_eq_some
    intro user _
    refine PickupRow.ofLines?_eq (fun line hline => ?_) ?_ hnonneg fits
    · obtain ⟨entry, hentry, hsome⟩ := List.mem_filterMap.mp hline
      split at hsome <;> cases hsome
      exact hsubtotals entry hentry
    · have hle := howners.count_le (some user)
      rw [← length_linesOf] at hle
      exact Nat.le_trans hle (Nat.le_trans (count_bidder?_le tidy user) products_le)
  refine ⟨((ownersOf lines).map fun user =>
    PickupRow.ofLines users user (linesOf user lines)).mergeSort PickupRow.notAfter, ?_, ?_⟩
  · unfold pickupSheet?
    rw [hlines]
    dsimp only
    rw [hrows]
    rfl
  · unfold pickupSheet
    rw [hlines]
    rfl

end BuyingClub
