import BuyingClub.Proofs.Pickup
import BuyingClub.Proofs.PickupSheets

/-!
# Who has something left to collect

A run can be completed when no goods wait. The pickup sheet goes by the marks alone, so it also says
that something is left where nothing at all was handed out and nobody marked that.
-/

namespace BuyingClub

/-! ## Bids -/

/-- Whether nothing of the product was handed out for the bid, and that was not marked. -/
def Bid.isEmptyShare (b : Bid) : Bool :=
  b.isCommitted && !b.isPickedUp && decide (b.distributedQuantity = some 0)

theorem Bid.unmarked_iff {b : Bid}
    (nonneg : ∀ quantity, b.distributedQuantity = some quantity → 0 ≤ quantity) :
    b.isHandedOut = true ∧ b.isPickedUp = false ↔
      b.awaitsPickup = true ∨ b.isEmptyShare = true := by
  have hcases (quantity : Quantity) (h : 0 ≤ quantity) : 0 < quantity ∨ quantity = 0 := by
    rw [Quantity.le_def, Quantity.hundredths_zero] at h
    rw [Quantity.lt_def, Quantity.ext_iff, Quantity.hundredths_zero]
    omega
  unfold isHandedOut awaitsPickup isEmptyShare
  cases hquantity : b.distributedQuantity with
  | none => simp
  | some quantity =>
    have hsome := hcases quantity (nonneg quantity hquantity)
    simp only [Option.isSome_some, Option.any_some, Option.some.injEq, Bool.and_eq_true,
      Bool.not_eq_true', decide_eq_true_iff, and_true, ← and_or_left, hsome]

namespace OrderBook

variable {limits : Limits} {book : OrderBook} {products : Names .product} {users : Names .user}
  {rows : List PickupRow}

/-- Goods of this user wait to be collected. -/
def Awaits (book : OrderBook) (user : UserId) : Prop :=
  ∃ b ∈ book.bids, book.bidder? b = some user ∧ b.awaitsPickup = true

def HasEmptyShare (book : OrderBook) (user : UserId) : Prop :=
  ∃ b ∈ book.bids, book.bidder? b = some user ∧ b.isEmptyShare = true

instance (book : OrderBook) (user : UserId) : Decidable (book.Awaits user) :=
  inferInstanceAs (Decidable (∃ b ∈ book.bids, _))

instance (book : OrderBook) (user : UserId) : Decidable (book.HasEmptyShare user) :=
  inferInstanceAs (Decidable (∃ b ∈ book.bids, _))

theorem IsShared.distributed_nonneg (h : book.IsShared) {b : Bid} (hb : b ∈ book.bids)
    {quantity : Quantity} (hquantity : b.distributedQuantity = some quantity) : 0 ≤ quantity := by
  by_cases hshares : ∃ bought ∈ book.purchases, b.countsFor bought.product = true
  · obtain ⟨bought, hbought, hcounts⟩ := hshares
    obtain ⟨share, hnonneg, hshare, _⟩ := (h.purchases bought hbought).hasShare b hb hcounts
    rw [hquantity] at hshare
    cases hshare
    exact hnonneg
  · have hempty := h.others b hb fun bought hbought =>
      Bool.eq_false_iff.mpr fun hcounts => hshares ⟨bought, hbought, hcounts⟩
    rw [hempty.quantity] at hquantity
    cases hquantity

theorem exists_unmarked_iff {user : UserId}
    (nonneg : ∀ b ∈ book.bids, ∀ quantity, b.distributedQuantity = some quantity → 0 ≤ quantity) :
    (∃ b ∈ book.bids, book.bidder? b = some user ∧ b.isHandedOut = true ∧ b.isPickedUp = false) ↔
      book.Awaits user ∨ book.HasEmptyShare user := by
  constructor
  · rintro ⟨b, hb, howner, hunmarked⟩
    rcases (Bid.unmarked_iff (nonneg b hb)).mp hunmarked with hwaits | hempty
    · exact .inl ⟨b, hb, howner, hwaits⟩
    · exact .inr ⟨b, hb, howner, hempty⟩
  · rintro (⟨b, hb, howner, hwaits⟩ | ⟨b, hb, howner, hempty⟩)
    · exact ⟨b, hb, howner, (Bid.unmarked_iff (nonneg b hb)).mpr (.inl hwaits)⟩
    · exact ⟨b, hb, howner, (Bid.unmarked_iff (nonneg b hb)).mpr (.inr hempty)⟩

/-! ## Completed runs -/

theorem Reachable.outstandingPickups (h : book.Reachable limits)
    (completed : book.run.stage = .completed) : book.outstandingPickups = 0 := by
  cases h with
  | new isNew => exact isNew.outstandingPickups completed
  | changed before changes => exact changes.outstandingPickups completed

theorem outstandingPickups_eq_zero_iff_not_awaits
    (owned : ∀ b ∈ book.bids, (book.bidder? b).isSome = true) :
    book.outstandingPickups = 0 ↔ ∀ user, ¬ book.Awaits user := by
  rw [outstandingPickups_eq_zero_iff]
  constructor
  · rintro hnone user ⟨b, hb, _, hwaits⟩
    rw [hnone b hb] at hwaits
    cases hwaits
  · intro hnone b hb
    obtain ⟨user, huser⟩ := Option.isSome_iff_exists.mp (owned b hb)
    exact Bool.eq_false_iff.mpr fun hwaits => hnone user ⟨b, hb, huser, hwaits⟩

/-! ## Rows -/

theorem mem_users_iff {user : UserId} (h : book.pickupSheet products users = .ok rows) :
    user ∈ rows.map (·.user) ↔ ∃ b ∈ book.bids, book.bidder? b = some user ∧
      b.isHandedOut = true := by
  obtain ⟨lines, hlines, rfl⟩ := pickupSheet_eq_ok_iff.mp h
  have hspec := (linesOf_spec hlines user).length_eq
  rw [((List.mergeSort_perm ..).map _).mem_iff, map_user_groupedRows, ← linesOf_ne_nil_iff,
    ← List.length_pos_iff, ← hspec, List.length_pos_iff_exists_mem]
  simp only [handedOutTo, List.mem_filter, Bool.and_eq_true, decide_eq_true_iff]
  exact exists_congr fun b => and_congr_right fun _ => and_comm

end OrderBook

theorem all_isPickedUp_of_forall₂ {products : Names .product} {bids : List Bid}
    {lines : List PickupLine} (h : List.Forall₂ (PickupLine.IsFor products) bids lines) :
    lines.all (·.isPickedUp) = bids.all (·.isPickedUp) := by
  induction h with
  | nil => rfl
  | cons hhead _ ih => rw [List.all_cons, List.all_cons, hhead.isPickedUp, ih]

namespace PickupRow

variable {book : OrderBook} {products : Names .product} {users : Names .user} {row a b : PickupRow}

theorem IsFor.allPickedUp_eq_false_iff (h : row.IsFor book products users) :
    row.allPickedUp = false ↔ ∃ b ∈ book.bids, book.bidder? b = some row.user ∧
      b.isHandedOut = true ∧ b.isPickedUp = false := by
  obtain ⟨lines, hlines, hperm, _⟩ := h.lines
  rw [h.allPickedUp, hperm.all_eq, all_isPickedUp_of_forall₂ hlines, List.all_eq_false]
  simp only [OrderBook.handedOutTo, List.mem_filter, Bool.and_eq_true, decide_eq_true_iff,
    Bool.not_eq_true]
  constructor
  · rintro ⟨b, ⟨hb, hhanded, howner⟩, hunmarked⟩
    exact ⟨b, hb, howner, hhanded, hunmarked⟩
  · rintro ⟨b, hb, howner, hhanded, hunmarked⟩
    exact ⟨b, ⟨hb, hhanded, howner⟩, hunmarked⟩

theorem Before.allPickedUp_eq_false (h : a.Before b) (left : b.allPickedUp = false) :
    a.allPickedUp = false := by
  unfold Before at h
  split at h
  · rename_i hsame
    exact hsame.trans left
  · exact h

end PickupRow

/-! ## The sheet -/

/-- What the marks on a sheet say about who has something left to collect. Where nobody has an empty
share, they say just for whom goods wait. -/
structure OrderBook.ShowsLeft (book : OrderBook) (rows : List PickupRow) : Prop where
  left_iff : ∀ row ∈ rows,
    (row.allPickedUp = false ↔ book.Awaits row.user ∨ book.HasEmptyShare row.user)
  hasRow : ∀ user, book.Awaits user ∨ book.HasEmptyShare user → ∃ row ∈ rows, row.user = user
  noneOutstanding_iff : book.outstandingPickups = 0 ↔ ∀ row ∈ rows, ¬ book.Awaits row.user
  completed : book.run.stage = .completed →
    ∀ row ∈ rows, row.allPickedUp = true ∨ book.HasEmptyShare row.user
  leftFirst : rows.Pairwise fun a b =>
    book.Awaits b.user → book.Awaits a.user ∨ book.HasEmptyShare a.user

theorem OrderBook.Reachable.showsLeft {limits : Limits} {book : OrderBook}
    (h : book.Reachable limits)
    (stage : book.run.stage = .distributing ∨ book.run.stage = .completed)
    {products : Names .product} {users : Names .user} {rows : List PickupRow}
    (sheet : book.pickupSheet products users = .ok rows) : book.ShowsLeft rows := by
  have hafter : book.run.stage.isAfterHandout = true := by
    rcases stage with hstage | hstage <;> rw [hstage] <;> rfl
  have hshared := h.isConsistent.shared hafter
  have howned (b : Bid) (hb : b ∈ book.bids) : (book.bidder? b).isSome = true :=
    h.keepsLimits.tidy.isSome_bidder? hb
  have hsheet := OrderBook.pickupSheet_isPickupSheet howned sheet
  have hunmarked (user : UserId) : (∃ b ∈ book.bids, book.bidder? b = some user ∧
      b.isHandedOut = true ∧ b.isPickedUp = false) ↔
        book.Awaits user ∨ book.HasEmptyShare user :=
    OrderBook.exists_unmarked_iff fun b hb _ hquantity => hshared.distributed_nonneg hb hquantity
  have hleft : ∀ row ∈ rows,
      (row.allPickedUp = false ↔ book.Awaits row.user ∨ book.HasEmptyShare row.user) :=
    fun row hrow => (hsheet.each row hrow).allPickedUp_eq_false_iff.trans (hunmarked row.user)
  have hrow : ∀ user, book.Awaits user ∨ book.HasEmptyShare user →
      ∃ row ∈ rows, row.user = user := by
    intro user hhas
    obtain ⟨b, hb, howner, hhanded, _⟩ := (hunmarked user).mpr hhas
    exact List.mem_map.mp ((OrderBook.mem_users_iff sheet).mpr ⟨b, hb, howner, hhanded⟩)
  have hnone := OrderBook.outstandingPickups_eq_zero_iff_not_awaits howned
  refine ⟨hleft, hrow, ?_, fun completed row hmem => ?_, ?_⟩
  · rw [hnone]
    constructor
    · exact fun hnobody row _ => hnobody row.user
    · intro hrows user hwaits
      obtain ⟨row, hmem, rfl⟩ := hrow user (.inl hwaits)
      exact hrows row hmem hwaits
  · cases hall : row.allPickedUp with
    | true => exact .inl rfl
    | false =>
      have hnobody := hnone.mp (h.outstandingPickups completed)
      exact .inr (((hleft row hmem).mp hall).resolve_left (hnobody row.user))
  · refine hsheet.sorted.imp_of_mem fun {a b} ha hb hbefore hwaits => ?_
    exact (hleft a ha).mp (hbefore.allPickedUp_eq_false ((hleft b hb).mpr (.inl hwaits)))

theorem OrderBook.Reachable.exists_showsLeft {limits : Limits} {book : OrderBook}
    (h : book.Reachable limits) (fit : limits.FitAmounts)
    (stage : book.run.stage = .distributing ∨ book.run.stage = .completed)
    (products : Names .product) (users : Names .user) :
    ∃ rows, book.pickupSheet products users = .ok rows ∧
      book.IsPickupSheet products users rows ∧ book.ShowsLeft rows := by
  obtain ⟨rows, _, sheet⟩ := (h.computesInRange fit).sheet products users
  exact ⟨rows, sheet, OrderBook.pickupSheet_isPickupSheet
    (fun b hb => h.keepsLimits.tidy.isSome_bidder? hb) sheet, h.showsLeft stage sheet⟩

/-- Take any stored run that is distributing or completed. The sheet says of everyone for whom goods
wait, and of nobody else but those with an empty share, that something is left to collect. All for
whom goods wait have a row, and only those with something left stand before them. The run can be
completed when goods wait for no one on the sheet, and once it is, whoever has something left has an
empty share. -/
theorem sheet_shows_left_to_collect {terms : Terms} {desk : Desk} (h : desk.Reachable terms)
    {run : RunId} {book : OrderBook} (finds : desk.repository.store.find? run = some book)
    (stage : book.run.stage = .distributing ∨ book.run.stage = .completed)
    (products : Names .product) (users : Names .user) :
    (∀ rows, book.pickupSheet products users = .ok rows → book.ShowsLeft rows) ∧
      (terms.limits.FitAmounts → ∃ rows, book.pickupSheet products users = .ok rows) := by
  have hreachable := h.book (Store.mem_of_find? finds)
  refine ⟨fun rows sheet => hreachable.showsLeft stage sheet, fun fit => ?_⟩
  obtain ⟨rows, sheet, _⟩ := hreachable.exists_showsLeft fit stage products users
  exact ⟨rows, sheet⟩

namespace Desk

/-- One of the two asks for nothing, and the other one gets what was bought. -/
def emptyShareTurns : List Turn :=
  [.create ⟨1⟩ ⟨1⟩ ⟨1⟩ default,
    tripTurn 1 (.placeBid ⟨1⟩ (.ofInt 1) false none),
    tripTurn 2 (.placeBid ⟨1⟩ (.ofInt 0) false none),
    tripTurn 1 .forceConfirm,
    tripTurn 1 .startShopping,
    tripTurn 1 (.recordPurchase ⟨1⟩ (.ofInt 1) (.ofInt 1) none),
    tripTurn 1 .completeShopping]

/-- The goods are collected, and the run is completed. -/
def completedTurns : List Turn :=
  emptyShareTurns ++ [tripTurn 1 (.markPickedUp ⟨1⟩), tripTurn 1 .completeDistribution]

end Desk

/-- Once the run is completed, one has collected everything and the other one has an empty share. -/
theorem sheet_shows_left_to_collect_when_completed :
    ∃ book rows,
      (Desk.opened.takeAll Desk.tripTerms Desk.completedTurns).repository.store.find? ⟨1⟩ =
        some book ∧
      book.run.stage = .completed ∧
      book.pickupSheet [(⟨1⟩, "Rice")] [(⟨1⟩, "Zed"), (⟨2⟩, "Amy")] = .ok rows ∧
      book.ShowsLeft rows ∧ book.HasEmptyShare ⟨2⟩ := by
  have hfound : ((Desk.opened.takeAll Desk.tripTerms
      Desk.completedTurns).repository.store.find? ⟨1⟩).any (fun book =>
        book.run.stage = .completed ∧ book.HasEmptyShare ⟨2⟩) = true := by decide +kernel
  obtain ⟨book, finds, hbook⟩ := (Option.any_eq_true _ _).mp hfound
  obtain ⟨hstage, hempty⟩ := of_decide_eq_true hbook
  obtain ⟨hshows, hrows⟩ := sheet_shows_left_to_collect ⟨_, rfl⟩ finds (.inr hstage)
    [(⟨1⟩, "Rice")] [(⟨1⟩, "Zed"), (⟨2⟩, "Amy")]
  obtain ⟨rows, sheet⟩ := hrows Limits.fitAmounts_default
  exact ⟨book, rows, finds, hstage, sheet, hshows rows sheet, hempty⟩

theorem rel_or_rel_of_pairwise {α : Type} {R : α → α → Prop} {xs : List α} {x y : α}
    (h : xs.Pairwise R) (hx : x ∈ xs) (hy : y ∈ xs) (hne : x ≠ y) : R x y ∨ R y x := by
  have hboth : xs.Pairwise fun a b => R a b ∨ R b a := h.imp Or.inl
  have : Std.Symm fun a b => R a b ∨ R b a := ⟨fun _ _ => Or.symm⟩
  exact hboth.forall hx hy hne

/-- While goods wait for one of the two, the other one with an empty share stands first. On the
sheet of the completed run that one still has something left, though no goods wait for anyone. -/
theorem empty_share_left_on_sheet :
    (∃ book rows,
      (Desk.opened.takeAll Desk.tripTerms Desk.emptyShareTurns).repository.store.find? ⟨1⟩ =
        some book ∧
      book.run.stage = .distributing ∧
      book.pickupSheet [(⟨1⟩, "Rice")] [(⟨1⟩, "Zed"), (⟨2⟩, "Amy")] = .ok rows ∧
      ¬ rows.Pairwise fun a b => book.Awaits b.user → book.Awaits a.user) ∧
    ∃ book rows,
      (Desk.opened.takeAll Desk.tripTerms Desk.completedTurns).repository.store.find? ⟨1⟩ =
        some book ∧
      book.run.stage = .completed ∧
      book.pickupSheet [(⟨1⟩, "Rice")] [(⟨1⟩, "Zed"), (⟨2⟩, "Amy")] = .ok rows ∧
      (∀ user, ¬ book.Awaits user) ∧ ∃ row ∈ rows, row.allPickedUp = false := by
  have hdistributing : ((Desk.opened.takeAll Desk.tripTerms
      Desk.emptyShareTurns).repository.store.find? ⟨1⟩).any (fun book =>
        book.run.stage = .distributing ∧ book.Awaits ⟨1⟩ ∧ ¬ book.Awaits ⟨2⟩ ∧
          book.HasEmptyShare ⟨2⟩) = true := by decide +kernel
  have hcompleted : ((Desk.opened.takeAll Desk.tripTerms
      Desk.completedTurns).repository.store.find? ⟨1⟩).any (fun book =>
        book.run.stage = .completed ∧ book.HasEmptyShare ⟨2⟩) = true := by decide +kernel
  constructor
  · obtain ⟨book, finds, hbook⟩ := (Option.any_eq_true _ _).mp hdistributing
    obtain ⟨hstage, hwaits, hdone, hempty⟩ := of_decide_eq_true hbook
    have hreachable : book.Reachable .default :=
      Desk.Reachable.book ⟨Desk.emptyShareTurns, rfl⟩ (Store.mem_of_find? finds)
    obtain ⟨rows, sheet, hsheet, hshows⟩ := hreachable.exists_showsLeft Limits.fitAmounts_default
      (.inl hstage) [(⟨1⟩, "Rice")] [(⟨1⟩, "Zed"), (⟨2⟩, "Amy")]
    obtain ⟨zed, hzed, huser⟩ := hshows.hasRow ⟨1⟩ (.inl hwaits)
    obtain ⟨amy, hamy, huser'⟩ := hshows.hasRow ⟨2⟩ (.inr hempty)
    have hleft : zed.allPickedUp = false := (hshows.left_iff zed hzed).mpr (.inl (huser ▸ hwaits))
    have hleft' : amy.allPickedUp = false :=
      (hshows.left_iff amy hamy).mpr (.inr (huser' ▸ hempty))
    have hname := (hsheet.each zed hzed).userName
    have hname' := (hsheet.each amy hamy).userName
    have hne : zed ≠ amy := by
      rintro rfl
      rw [huser] at huser'
      cases huser'
    refine ⟨book, rows, finds, hstage, sheet, fun hordered => ?_⟩
    rcases rel_or_rel_of_pairwise (hsheet.sorted.and hordered) hzed hamy hne with
      ⟨hbefore, _⟩ | ⟨_, hafter⟩
    · -- By name the other one comes first.
      unfold PickupRow.Before at hbefore
      rw [hleft, hleft', if_pos rfl, hname, hname', huser, huser'] at hbefore
      exact absurd hbefore (by decide)
    · rw [huser, huser'] at hafter
      exact hdone (hafter hwaits)
  · obtain ⟨book, finds, hbook⟩ := (Option.any_eq_true _ _).mp hcompleted
    obtain ⟨hstage, hempty⟩ := of_decide_eq_true hbook
    have hreachable : book.Reachable .default :=
      Desk.Reachable.book ⟨Desk.completedTurns, rfl⟩ (Store.mem_of_find? finds)
    obtain ⟨rows, sheet, hsheet, hshows⟩ := hreachable.exists_showsLeft Limits.fitAmounts_default
      (.inr hstage) [(⟨1⟩, "Rice")] [(⟨1⟩, "Zed"), (⟨2⟩, "Amy")]
    obtain ⟨row, hrow, huser⟩ := hshows.hasRow ⟨2⟩ (.inr hempty)
    have hnobody := (OrderBook.outstandingPickups_eq_zero_iff_not_awaits
      fun b hb => hreachable.keepsLimits.tidy.isSome_bidder? hb).mp
        (hreachable.outstandingPickups hstage)
    exact ⟨book, rows, finds, hstage, sheet, hnobody, row, hrow,
      (hshows.left_iff row hrow).mpr (.inr (huser ▸ hempty))⟩

end BuyingClub
