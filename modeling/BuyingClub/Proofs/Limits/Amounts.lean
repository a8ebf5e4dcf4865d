import BuyingClub.Proofs.Checked.Handout
import BuyingClub.Proofs.Checked.PickupSheet
import BuyingClub.Proofs.ExactHandout
import BuyingClub.Proofs.Limits.Totals

/-!
# Amounts fit

The arithmetic on amounts is nowhere checked, but for prices times quantities. It need not be: from
the limits of a bid, of a run and of a purchase follows that all that is computed of a stored book
fits in 64 bits, even after the leader has taken a surplus beyond the limit of a bid.
-/

namespace BuyingClub

/-! ## Limits -/

/-- Limits that are not negative, and low enough that the bids of all participants at their largest
fit together with a purchase, and so do the dearest purchases of all products. -/
structure Limits.FitAmounts (limits : Limits) : Prop where
  bidQuantity : 0 ≤ limits.maxBidQuantity
  purchaseQuantity : 0 ≤ limits.maxPurchaseQuantity
  price : 0 ≤ limits.maxPrice
  quantities : (max 1 limits.maxMembers : Nat) * limits.maxBidQuantity.hundredths +
    limits.maxPurchaseQuantity.hundredths < 2 ^ 63
  costs : ∃ largest, limits.maxPrice.times limits.maxPurchaseQuantity = .ok largest ∧
    limits.maxProducts * largest.cents < 2 ^ 63

theorem Limits.fitAmounts_default : default.FitAmounts where
  bidQuantity := by decide
  purchaseQuantity := by decide
  price := by decide
  quantities := by decide
  costs := ⟨⟨999999800000⟩, by decide +kernel, by decide⟩

theorem Limits.FitAmounts.mostAsked_lt {limits : Limits} (fit : limits.FitAmounts) :
    limits.mostAsked < 2 ^ 63 := by
  have hbid : 0 ≤ (max 1 limits.maxMembers : Nat) * limits.maxBidQuantity.hundredths :=
    Int.mul_nonneg (Int.natCast_nonneg _) fit.bidQuantity
  have hpurchase : 0 ≤ limits.maxPurchaseQuantity.hundredths := fit.purchaseQuantity
  have hfit := fit.quantities
  unfold mostAsked
  omega

/-! ## Totals -/

namespace OrderBook

variable {limits : Limits} {book after : OrderBook}

theorem Reachable.bidsFit (h : book.Reachable limits) (fit : limits.FitAmounts) :
    BidsFit book.bids := by
  have hwithin := (h.asksWithin fit.bidQuantity fit.purchaseQuantity).bids
  exact ⟨hwithin.nonneg,
    fun product => Int.lt_of_le_of_lt (hwithin.totals product) fit.mostAsked_lt⟩

theorem Reachable.isFit_bought (h : book.Reachable limits) (fit : limits.FitAmounts) :
    ∀ item ∈ book.items, ∀ purchased, item.bought? = some purchased → purchased.IsFit := by
  intro item hitem purchased hbought
  obtain ⟨hlow, hhigh⟩ := h.bought_le item hitem purchased hbought
  exact ⟨hlow, Int.lt_of_le_of_lt hhigh fit.mostAsked_lt⟩

theorem Reachable.amountsFit (h : book.Reachable limits) (fit : limits.FitAmounts) :
    book.AmountsFit :=
  ⟨h.bidsFit fit, h.isFit_bought fit⟩

/-! ## Shares -/

theorem IsShared.getsAtMost (h : book.IsShared) (within : ∀ item ∈ book.items, item.IsWithin limits)
    (hprice : 0 ≤ limits.maxPrice) :
    ∀ b ∈ book.bids, b.GetsAtMost limits.maxPurchaseQuantity limits.maxPrice := by
  intro b hb
  by_cases hbought : ∃ bought ∈ book.purchases, b.countsFor bought.product = true
  · obtain ⟨bought, hbought, hcounts⟩ := hbought
    have hshared := h.purchases bought hbought
    obtain ⟨share, hlow, hquantity, hbidPrice⟩ := hshared.hasShare b hb hcounts
    have hreceived : share.hundredths = b.received bought.product := by
      unfold Bid.received
      rw [if_pos hcounts, hquantity]
      rfl
    have hle : share.hundredths ≤ bought.quantity.hundredths := by
      rw [← hshared.total, hundredths_handedOutTotal, hreceived]
      -- No share is negative, so each is at most the sum of all.
      apply List.single_le_sum
      · intro n hn
        obtain ⟨c, hc, rfl⟩ := List.mem_map.mp hn
        unfold Bid.received
        split
        · rename_i hccounts
          obtain ⟨other, hother, hotherQuantity, _⟩ := hshared.hasShare c hc hccounts
          rw [hotherQuantity]
          exact hother
        · exact Int.le_refl 0
      · exact List.mem_map_of_mem hb
    obtain ⟨item, hitem, quantity, hitemBought, _, rfl⟩ := mem_purchases_iff.mp hbought
    have hmost := ((within item hitem).quantity quantity
      (ShoppingItem.bought?_eq_some_iff.mp hitemBought).2).2
    constructor
    · intro other hother
      obtain rfl : share = other := Option.some.inj (hquantity.symm.trans hother)
      exact ⟨hlow, Int.le_trans hle hmost⟩
    · intro other hother
      obtain rfl := Option.some.inj (hbidPrice.symm.trans hother)
      dsimp only
      cases hitemPrice : item.purchasedPrice with
      | none => exact ⟨Int.le_refl 0, hprice⟩
      | some price => exact (within item hitem).price price hitemPrice
  · have hempty := h.others b hb fun bought hmem =>
      Bool.eq_false_of_not_eq_true fun hcounts => hbought ⟨bought, hmem, hcounts⟩
    exact ⟨by simp [hempty.quantity], by simp [hempty.price]⟩

theorem Reachable.getsAtMost (h : book.Reachable limits) (hprice : 0 ≤ limits.maxPrice) :
    ∀ b ∈ book.bids, b.GetsAtMost limits.maxPurchaseQuantity limits.maxPrice := by
  induction h with
  | new isNew =>
    obtain ⟨id, group, store, leader, participation, now, rfl⟩ := isNew
    nofun
  | @changed book after before changes ih =>
    have hafter := before.changed changes
    by_cases hwaits : after.run.stage.isBeforeHandout = true
    · intro b hb
      have hempty := ((hafter.isConsistent.waiting hwaits).each b hb).emptyHanded
      exact ⟨by simp [hempty.quantity], by simp [hempty.price]⟩
    by_cases hshares : after.run.stage.isAfterHandout = true
    · exact (hafter.isConsistent.shared hshares).getsAtMost hafter.keepsLimits.items hprice
    obtain ⟨counters, now, user, action, d, reply, houtcome, rfl⟩ := changes
    have hchanges := houtcome.changesBids
    generalize d.book.bids = bids, reply.allocations = allocations at hchanges ⊢
    cases hchanges with
    | stays => exact ih
    | places isOpen staysOpen => exact absurd (Stage.isBeforeHandout_of_isOpen staysOpen) hwaits
    | retracts isOpen staysOpen => exact absurd (Stage.isBeforeHandout_of_isOpen staysOpen) hwaits
    | handsOut bought distributes handsOut =>
      have hstage : d.book.run.stage = .distributing := distributes
      rw [hstage] at hshares
      exact absurd rfl hshares
    | marks isDistributing finds =>
      intro b hb
      rcases mem_updateFirst hb with hb | ⟨_, _, rfl⟩
      · exact ih b hb
      · obtain ⟨hquantity, hbidPrice⟩ := ih _ (List.mem_of_find?_eq_some finds)
        exact ⟨hquantity, hbidPrice⟩

/-! ## What is computed of a book -/

/-- All that commands and reads compute of a book in 64 bits is what it is without that bound, and
its pickup sheet can be drawn up. -/
structure ComputesInRange (book : OrderBook) : Prop where
  demand : ∀ product, book.demand? product = some (book.demand product)
  demands : book.demands? = some book.demands
  imbalances : book.imbalances? = some book.imbalances
  texts : ∀ m ∈ book.imbalances, m.text? = some m.text
  listTexts : book.run.stage = .shopping → ∀ m ∈ book.listImbalances, m.text? = some m.text
  changes : ∀ participation product quantity interestedOnly,
    book.checkChange? participation product quantity interestedOnly =
      some (book.checkChange participation product quantity interestedOnly)
  retractions : ∀ participation product,
    book.checkRetraction? participation product = some (book.checkRetraction participation product)
  handsOut : ∀ now counters, book.handOut? now counters = some (book.handOut now counters)
  sheet : ∀ products users, ∃ rows, book.pickupSheet? products users = some (.ok rows) ∧
    book.pickupSheet products users = .ok rows

theorem Reachable.computesInRange (h : book.Reachable limits) (fit : limits.FitAmounts) :
    book.ComputesInRange := by
  have hfit := h.amountsFit fit
  obtain ⟨largest, hlargest, hcosts⟩ := fit.costs
  obtain ⟨_, htimes, hnonneg, _⟩ := Money.times_le fit.price fit.purchaseQuantity (Int.le_refl _)
    (Int.le_refl _) hlargest
  obtain rfl := Except.ok.inj (hlargest.symm.trans htimes)
  have htexts (item : ShoppingItem) (hitem : item ∈ book.items) (m : Imbalance)
      (hm : imbalanceOf? item (book.demand item.product) = some m) : m.text? = some m.text :=
    hfit.text?_eq hitem (hfit.bids.isFit_demand item.product) hm
  exact {
    demand := hfit.bids.demand?_eq
    demands := hfit.bids.demands?_eq
    imbalances := hfit.imbalances?_eq
    texts := by
      intro m hm
      obtain ⟨item, hitem, hm⟩ := List.mem_filterMap.mp hm
      exact htexts item hitem m hm
    listTexts := by
      intro hshopping m hm
      rw [(h.isListed hshopping).listImbalances_eq] at hm
      obtain ⟨item, hitem, hm⟩ := List.mem_filterMap.mp hm
      exact htexts item hitem m hm
    changes := hfit.checkChange?_eq
    retractions := hfit.checkRetraction?_eq
    handsOut := hfit.handOut?_eq
    sheet := by
      refine pickupSheet?_eq h.keepsLimits.tidy (h.getsAtMost fit.price) fit.price hlargest hnonneg
        h.keepsLimits.products ?_
      have hlow : 0 ≤ (limits.maxProducts : Int) * largest.cents :=
        Int.mul_nonneg (Int.natCast_nonneg _) hnonneg
      unfold FitsAmount
      omega }

end OrderBook

/-! ## Reads -/

namespace Desk

variable {terms : Terms} {desk after : Desk} {run : RunId} {user : UserId} {now : Instant}
  {why : Invalidity}

theorem load_ne_invalid : (load run now).on desk ≠ (.error (.refused (.invalid why)), after) := by
  intro h
  rw [load, Work.on_bind, Work.on_attempt] at h
  rcases ha : Repository.load run now desk.repository with ⟨(why | _) | found, repository⟩ <;>
    simp only [ha] at h
  · cases why <;> cases h
  · cases h
  · cases h

theorem loadFor_ne_invalid :
    (loadFor terms run user now).on desk ≠ (.error (.refused (.invalid why)), after) := by
  intro h
  rcases Work.bind_on_eq_error_iff.mp h with h | ⟨book, between, _, h⟩
  · exact load_ne_invalid h
  · rcases Work.bind_on_eq_error_iff.mp h with h | ⟨_, checked, _, h⟩
    · rw [on_checkMember] at h
      split at h <;> cases h
    · cases h

theorem pickupSheet_ne_invalid (unraced : desk.repository.IsUnraced)
    (drawsUp : ∀ book, desk.repository.store.find? run = some book →
      ∃ rows, book.pickupSheet terms.directory.products terms.directory.users = .ok rows) :
    (Desk.pickupSheet terms run user now).on desk ≠ (.error (.refused (.invalid why)), after) := by
  intro h
  rcases Work.bind_on_eq_error_iff.mp h with h | ⟨book, between, hload, h⟩
  · exact loadFor_ne_invalid h
  · obtain ⟨rows, hrows⟩ := drawsUp book (loadFor_ok unraced hload).1
    rw [hrows] at h
    cases h

end Desk

/-- The default limits are such that amounts fit. Under limits that are, whatever happened at a
desk, all that is computed of a stored book fits in 64 bits, and so does the cost of a purchase that
may be recorded. No pickup sheet is refused as invalid. -/
theorem amounts_fit :
    Limits.default.FitAmounts ∧
      ∀ (terms : Terms) (turns : List Desk.Turn), terms.limits.FitAmounts →
        (∀ run book, (Desk.opened.takeAll terms turns).repository.store.find? run = some book →
          book.ComputesInRange) ∧
        (∀ quantity price, 0 ≤ quantity → quantity ≤ terms.limits.maxPurchaseQuantity →
          0 ≤ price → price ≤ terms.limits.maxPrice → ∃ total, price.times quantity = .ok total) ∧
        ∀ run user now why,
          ((Desk.pickupSheet terms run user now).on (Desk.opened.takeAll terms turns)).1 ≠
            .error (.refused (.invalid why)) := by
  refine ⟨Limits.fitAmounts_default, fun terms turns fit => ?_⟩
  have hreachable : (Desk.opened.takeAll terms turns).Reachable terms := ⟨turns, rfl⟩
  have hcomputes (run : RunId) (book : OrderBook)
      (finds : (Desk.opened.takeAll terms turns).repository.store.find? run = some book) :
      book.ComputesInRange :=
    (hreachable.book (Store.mem_of_find? finds)).computesInRange fit
  refine ⟨hcomputes, ?_, ?_⟩
  · intro quantity price hquantity most hprice highest
    obtain ⟨largest, hlargest, _⟩ := fit.costs
    obtain ⟨total, htotal, _⟩ := Money.times_le hprice hquantity highest most hlargest
    exact ⟨total, htotal⟩
  · intro run user now why hrefused
    refine Desk.pickupSheet_ne_invalid hreachable.isUnraced (fun book finds => ?_)
      (Prod.ext hrefused rfl)
    obtain ⟨rows, _, hrows⟩ := (hcomputes run book finds).sheet terms.directory.products
      terms.directory.users
    exact ⟨rows, hrows⟩

/-- In a shortage of one in six, the shares of the two are rounded, and their sheet is drawn up. -/
theorem amounts_fit_in_shortage :
    ∃ book rows, (Desk.opened.takeAll Desk.tripTerms
        (Desk.tripTurns ++ [Desk.tripTurn 1 (.finishAdjusting true)])).repository.store.find? ⟨1⟩ =
          some book ∧
      book.bids.map (·.distributedQuantity) = [some ⟨167⟩, some ⟨333⟩] ∧
      book.pickupSheet? [] [] = some (.ok rows) := by
  have hfound : ((Desk.opened.takeAll Desk.tripTerms
      (Desk.tripTurns ++ [Desk.tripTurn 1 (.finishAdjusting true)])).repository.store.find?
        ⟨1⟩).any (fun book =>
          book.bids.map (·.distributedQuantity) = [some ⟨167⟩, some ⟨333⟩]) = true := by
    decide +kernel
  obtain ⟨book, hfind, hshares⟩ := (Option.any_eq_true _ _).mp hfound
  have hcomputes := (amounts_fit.2 Desk.tripTerms _ amounts_fit.1).1 ⟨1⟩ book hfind
  obtain ⟨rows, hrows, _⟩ := hcomputes.sheet [] []
  exact ⟨book, rows, hfind, of_decide_eq_true hshares, hrows⟩

end BuyingClub
