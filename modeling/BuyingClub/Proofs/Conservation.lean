import BuyingClub.Proofs.Consistency

/-!
# Goods are conserved

What is bought is handed out to the hundredth, to those who asked for it, at the price that was
paid. Until then nothing is handed out.
-/

namespace BuyingClub

/-- The committed bids on a bought product share exactly what was bought, at the price it was bought
for. Every other bid gets nothing. -/
structure OrderBook.ConservesGoods (book : OrderBook) : Prop where
  shares : ∀ item ∈ book.items, item.isPurchased = true →
    ∀ quantity, item.purchasedQuantity = some quantity → 0 < quantity →
      (∀ b ∈ book.bids, b.countsFor item.product = true →
        (∃ share, b.distributedQuantity = some share ∧ 0 ≤ share) ∧
          b.distributedPrice.isSome = true ∧ b.distributedPrice = item.purchasedPrice) ∧
      handedOutTotal book.bids item.product = quantity
  others : ∀ b ∈ book.bids,
    (∀ item ∈ book.items, item.isPurchased = true →
      ∀ quantity, item.purchasedQuantity = some quantity → 0 < quantity →
        b.countsFor item.product = false) →
    b.distributedQuantity = none ∧ b.distributedPrice = none

theorem OrderBook.IsShared.conservesGoods {book : OrderBook} (h : book.IsShared)
    (list : IsSoundList book.items) : book.ConservesGoods where
  shares := by
    intro item hitem hpurchased quantity hquantity hpositive
    obtain ⟨_, price, _, hprice⟩ := list.priced item hitem hpurchased
    have hbought := ShoppingItem.bought?_eq_some_iff.mpr ⟨hpurchased, hquantity⟩
    have hmem : ⟨item.product, quantity, price⟩ ∈ book.purchases := by
      refine mem_purchases_iff.mpr ⟨item, hitem, quantity, hbought, hpositive, ?_⟩
      rw [hprice]
      rfl
    have hshared := h.purchases _ hmem
    refine ⟨fun b hb hcounts => ?_, hshared.total⟩
    obtain ⟨share, hnonneg, hshare, hat⟩ := hshared.hasShare b hb hcounts
    refine ⟨⟨share, hshare, hnonneg⟩, ?_, ?_⟩
    · rw [hat]
      rfl
    · rw [hat, hprice]
  others := by
    intro b hb hnone
    have hempty := h.others b hb fun bought hbought => by
      obtain ⟨item, hitem, quantity, hquantity, hpositive, rfl⟩ := mem_purchases_iff.mp hbought
      unfold ShoppingItem.bought? at hquantity
      split at hquantity
      · rename_i hpurchased
        exact hnone item hitem hpurchased quantity hquantity hpositive
      · cases hquantity
    exact ⟨hempty.quantity, hempty.price⟩

/-- In every stored run, whatever commands led to it, all that was bought is shared out while the
run is distributing or completed, and nothing is handed out before. -/
theorem goods_conserved {terms : Terms} {desk : Desk} (h : desk.Reachable terms) {book : OrderBook}
    (stored : book ∈ desk.repository.store.books) :
    (book.run.stage = .distributing ∨ book.run.stage = .completed → book.ConservesGoods) ∧
      (book.run.stage ∈ [.planning, .active, .confirmed, .shopping, .adjusting] →
        ∀ b ∈ book.bids,
          b.distributedQuantity = none ∧ b.distributedPrice = none ∧ b.isPickedUp = false) := by
  have hconsistent := (h.book stored).isConsistent
  constructor
  · intro hstage
    have hafter : book.run.stage.isAfterHandout = true := by
      rcases hstage with hstage | hstage <;> rw [hstage] <;> rfl
    exact (hconsistent.shared hafter).conservesGoods hconsistent.list
  · intro hstage b hb
    have hbefore : book.run.stage.isBeforeHandout = true := by
      simp only [List.mem_cons, List.not_mem_nil, or_false] at hstage
      rcases hstage with hstage | hstage | hstage | hstage | hstage <;> rw [hstage] <;> rfl
    have hwaiting := (hconsistent.waiting hbefore).each b hb
    exact ⟨hwaiting.emptyHanded.quantity, hwaiting.emptyHanded.price, hwaiting.notPickedUp⟩

/-- In a shortage of one in six, the two share the five that there are. -/
theorem goods_conserved_in_shortage :
    ∃ book ∈ (Desk.opened.takeAll Desk.tripTerms
        (Desk.tripTurns ++ [Desk.tripTurn 1 (.finishAdjusting true)])).repository.store.books,
      book.run.stage = .distributing ∧ book.ConservesGoods := by
  have hfound : ((Desk.opened.takeAll Desk.tripTerms
      (Desk.tripTurns ++ [Desk.tripTurn 1 (.finishAdjusting true)])).repository.store.find?
        ⟨1⟩).any (·.run.stage = .distributing) = true := by decide +kernel
  obtain ⟨book, hfind, hstage⟩ := (Option.any_eq_true _ _).mp hfound
  have hstored := Store.mem_of_find? hfind
  have hdistributing : book.run.stage = .distributing := by simpa using hstage
  exact ⟨book, hstored, hdistributing, (goods_conserved ⟨_, rfl⟩ hstored).1 (.inl hdistributing)⟩

end BuyingClub
