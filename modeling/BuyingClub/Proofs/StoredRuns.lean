import BuyingClub.Proofs.Documents
import BuyingClub.Proofs.Limits.Amounts

/-!
# Stored runs that are read back

Under the default limits every amount of a book is small enough to come through as a double, but for
the totals that were paid. They can be a hundred thousand times the largest price, and from
`134217728.00` on the tolerance for doubles is less than what two roundings can add up to.
-/

namespace BuyingClub

theorem Limits.mostAsked_default : default.mostAsked = 99999900 := by decide

namespace OrderBook

variable {book : OrderBook}

theorem Reachable.comesThrough (h : book.Reachable .default) : book.ComesThrough := by
  have hasks := h.asksWithin (by decide) (by decide)
  rw [Limits.mostAsked_default] at hasks
  have hkeeps := h.keepsLimits
  have hquantity (q : Quantity) (hq : 0 ≤ q ∧ q ≤ Limits.default.maxPurchaseQuantity) :
      Hundredths.ComesThrough q.hundredths := by
    have hlow : 0 ≤ q.hundredths := hq.1
    have hhigh : q.hundredths ≤ 9999999 := hq.2
    exact Hundredths.ofBinary64_toBinary64 (by omega)
  have hprice (m : Money) (hm : 0 ≤ m ∧ m ≤ Limits.default.maxPrice) :
      Hundredths.ComesThrough m.cents := by
    have hlow : 0 ≤ m.cents := hm.1
    have hhigh : m.cents ≤ 9999999 := hm.2
    exact Hundredths.ofBinary64_toBinary64 (by omega)
  refine ⟨fun b hb => ?_, fun item hitem => ?_⟩
  · obtain ⟨hgot, hpaid⟩ := h.getsAtMost (by decide) b hb
    have hlow : 0 ≤ b.quantity.hundredths := hasks.bids.nonneg b hb
    have hhigh := hasks.bids.quantity_le hb
    exact ⟨Hundredths.ofBinary64_toBinary64 (by omega), fun q hq => hquantity q (hgot q hq),
      fun m hm => hprice m (hpaid m hm)⟩
  · have hwithin := hkeeps.items item hitem
    obtain ⟨hlow, hhigh⟩ := hasks.items item hitem
    exact ⟨Hundredths.ofBinary64_toBinary64 (by omega),
      fun q hq => hquantity q (hwithin.quantity q hq), fun m hm => hprice m (hwithin.price m hm)⟩

theorem Reachable.total_lt (h : book.Reachable .default) :
    ∀ item ∈ book.items, ∀ m, item.purchasedTotal = some m → m.cents.natAbs < 2 ^ 40 := by
  intro item hitem m hm
  obtain ⟨largest, hlargest, hlow, hhigh⟩ := (h.keepsLimits.items item hitem).total m hm
  have hmost : Limits.default.maxPrice.times Limits.default.maxPurchaseQuantity =
      .ok ⟨999999800000⟩ := by decide +kernel
  obtain rfl := Except.ok.inj (hlargest.symm.trans hmost)
  have hlow : 0 ≤ m.cents := hlow
  have hhigh : m.cents ≤ 999999800000 := hhigh
  omega

end OrderBook

/-- A book that commands make of a new run under the default limits is read back as it was written,
or not at all. It is read back exactly if every total that was paid comes through as a double, as
all do that are below `134217728.00`. Numbers are in their words and times are ones that timestamps
have. -/
theorem stored_runs_read_back {book : OrderBook} (reachable : book.Reachable .default)
    (fits : book.FitsWords) :
    OrderBook.ofDocument? book.toDocument = (if book.TotalsComeThrough then some book else none) ∧
      ((∀ item ∈ book.items, ∀ m, item.purchasedTotal = some m → m.cents < 13421772800) →
        OrderBook.ofDocument? book.toDocument = some book) := by
  have hreads : OrderBook.ofDocument? book.toDocument =
      if book.TotalsComeThrough then some book else none := by
    split
    · rename_i htotals
      exact OrderBook.ofDocument?_toDocument fits reachable.comesThrough htotals
    · rename_i htotals
      refine Option.eq_none_iff_forall_ne_some.mpr fun other hother => htotals ?_
      exact OrderBook.totalsComeThrough_of_ofDocument? reachable.total_lt hother
  refine ⟨hreads, fun small => ?_⟩
  rw [hreads, if_pos]
  intro item hitem m hm
  obtain ⟨_, _, hlow, _⟩ := (reachable.keepsLimits.items item hitem).total m hm
  have hlow : 0 ≤ m.cents := hlow
  have hhigh := small item hitem m hm
  exact Hundredths.ofBinary64_toBinary64 (by omega)

/-- After the trip of two, the purchase is read back with the rest. -/
theorem stored_runs_read_back_after_trip :
    ∃ book : OrderBook,
      (Desk.opened.takeAll Desk.tripTerms Desk.tripTurns).repository.store.find? ⟨1⟩ = some book ∧
      book.FitsWords ∧ (∃ item ∈ book.items, item.purchasedTotal = some ⟨500⟩) ∧
      OrderBook.ofDocument? book.toDocument = some book := by
  have hbook : ((Desk.opened.takeAll Desk.tripTerms Desk.tripTurns).repository.store.find?
      ⟨1⟩).any (fun b => b.FitsWords ∧ (∃ item ∈ b.items, item.purchasedTotal = some ⟨500⟩) ∧
        b.TotalsComeThrough) = true := by
    decide +kernel
  obtain ⟨book, finds, hbook⟩ := (Option.any_eq_true _ _).mp hbook
  obtain ⟨hfits, hpaid, htotals⟩ := of_decide_eq_true hbook
  have hreachable := Desk.Reachable.book ⟨Desk.tripTurns, rfl⟩ (Store.mem_of_find? finds)
  obtain ⟨hreads, _⟩ := stored_runs_read_back hreachable hfits
  rw [if_pos htotals] at hreads
  exact ⟨book, finds, hfits, hpaid, hreads⟩

/-- At `10485.76` each, `14848` cost `155692564.48`. -/
def Desk.wholesaleTurns : List Desk.Turn :=
  [.create ⟨1⟩ ⟨1⟩ ⟨1⟩ (.ofSeconds 0),
    Desk.tripTurn 2 (.placeBid ⟨1⟩ (.ofInt 2) false none),
    Desk.tripTurn 1 .forceConfirm,
    Desk.tripTurn 1 .startShopping,
    Desk.tripTurn 1 (.recordPurchase ⟨1⟩ (.ofInt 14848) (Hundredths.toBinary64 1048576) none)]

/-- The run that paid this total is stored, and not read back. -/
theorem run_not_read_back_after_wholesale :
    ∃ book : OrderBook,
      (Desk.opened.takeAll Desk.tripTerms Desk.wholesaleTurns).repository.store.find? ⟨1⟩ =
        some book ∧
      book.Reachable .default ∧ book.FitsWords ∧
      (∃ item ∈ book.items, item.purchasedTotal = some ⟨15569256448⟩) ∧
      OrderBook.ofDocument? book.toDocument = none := by
  have hbook : ((Desk.opened.takeAll Desk.tripTerms Desk.wholesaleTurns).repository.store.find?
      ⟨1⟩).any (fun b => b.FitsWords ∧
        (∃ item ∈ b.items, item.purchasedTotal = some ⟨15569256448⟩) ∧
          (OrderBook.ofDocument? b.toDocument).isNone) = true := by
    decide +kernel
  obtain ⟨book, finds, hbook⟩ := (Option.any_eq_true _ _).mp hbook
  obtain ⟨hfits, hpaid, hnone⟩ := of_decide_eq_true hbook
  have hreachable := Desk.Reachable.book ⟨Desk.wholesaleTurns, rfl⟩ (Store.mem_of_find? finds)
  exact ⟨book, finds, hreachable, hfits, hpaid, Option.isNone_iff_eq_none.mp hnone⟩

end BuyingClub
