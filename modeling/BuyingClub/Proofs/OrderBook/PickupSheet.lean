import BuyingClub.OrderBook.PickupSheet
import BuyingClub.Proofs.Checked.Amount
import BuyingClub.Proofs.Consistency
import BuyingClub.Proofs.OrderBook.Products
import BuyingClub.Proofs.OrderBook.Shares

/-!
# What a pickup sheet shows

A line for each committed bid for which something was handed out, under its owner, and nothing else.
Grouping and sorting lose nothing and keep the order of what is alike.
-/

namespace BuyingClub

/-! ## Stable sorting -/

section Sorting

variable {α : Type} {le : α → α → Bool} {xs : List α}

theorem filter_mergeSort (trans : ∀ a b c, le a b → le b c → le a c)
    (total : ∀ a b, (le a b || le b a) = true) {test : α → Bool}
    (tied : ∀ a b, test a = true → test b = true → le a b = true) :
    (xs.mergeSort le).filter test = xs.filter test := by
  have hpairwise : (xs.filter test).Pairwise (fun a b => le a b = true) :=
    List.pairwise_of_forall_mem_list fun a ha b hb =>
      tied a b (List.mem_filter.mp ha).2 (List.mem_filter.mp hb).2
  have hsublist : (xs.filter test).Sublist ((xs.mergeSort le).filter test) := by
    have h := (List.sublist_mergeSort trans total hpairwise List.filter_sublist).filter test
    rwa [List.filter_filter, show (fun a => test a && test a) = test by simp] at h
  exact (hsublist.eq_of_length ((List.mergeSort_perm xs le).filter test).length_eq.symm).symm

theorem pairwise_mergeSort_of_pairwise (trans : ∀ a b c, le a b → le b c → le a c)
    (total : ∀ a b, (le a b || le b a) = true) {R : α → α → Prop} (h : xs.Pairwise R) :
    (xs.mergeSort le).Pairwise fun a b => le a b = true ∧ (le b a = true → R a b) := by
  have hsorted := List.pairwise_mergeSort trans total xs
  refine hsorted.and (List.pairwise_iff_forall_sublist.mpr fun {a b} hab hle => ?_)
  have hle' := List.pairwise_iff_forall_sublist.mp hsorted hab
  have hself : le a a = true := by simpa using total a a
  -- All that may stand beside `a` is as before, and so are `a` and `b` among it.
  let test (x : α) : Bool := le a x && le x a
  have htied : ∀ x y, test x = true → test y = true → le x y = true := by
    intro x y hx hy
    exact trans x a y (Bool.and_eq_true _ _ ▸ hx).2 (Bool.and_eq_true _ _ ▸ hy).1
  have hfilter : (xs.mergeSort le).filter test = xs.filter test :=
    filter_mergeSort trans total htied
  have hpair : [a, b].filter test = [a, b] := by simp [test, hself, hle, hle']
  have hsublist := hab.filter test
  rw [hpair, hfilter] at hsublist
  exact List.pairwise_iff_forall_sublist.mp h (hsublist.trans List.filter_sublist)

end Sorting

/-! ## Lines -/

/-- Whether something was handed out for the bid, be it nothing of it. -/
def Bid.isHandedOut (b : Bid) : Bool := b.isCommitted && b.distributedQuantity.isSome

/-- The line shows the bid, what was handed out for it, and what that costs. -/
structure PickupLine.IsFor (products : Names .product) (b : Bid) (line : PickupLine) : Prop where
  bid : line.bid = b.id
  product : line.product = b.product
  productName : line.productName = products.display b.product
  requested : line.requestedQuantity = b.quantity
  distributed : b.distributedQuantity = some line.distributedQuantity
  price : line.price = b.distributedPrice.getD 0
  subtotal : line.price.times line.distributedQuantity = .ok line.subtotal
  isPickedUp : line.isPickedUp = b.isPickedUp

theorem map_bid_of_forall₂ {products : Names .product} {bids : List Bid} {lines : List PickupLine}
    (h : List.Forall₂ (PickupLine.IsFor products) bids lines) :
    lines.map (·.bid) = bids.map (·.id) := by
  induction h with
  | nil => rfl
  | cons hhead _ ih => rw [List.map_cons, List.map_cons, hhead.bid, ih]

namespace OrderBook

variable {book : OrderBook} {products : Names .product} {bids : List Bid}
  {lines : List (UserId × PickupLine)}

/-- The bids of the user for which something was handed out, in the order of the bids. -/
def handedOutTo (book : OrderBook) (user : UserId) : List Bid :=
  book.bids.filter fun b => b.isHandedOut && decide (book.bidder? b = some user)

/-- A line under its user. -/
def IsLineOf (book : OrderBook) (products : Names .product) (b : Bid)
    (entry : UserId × PickupLine) : Prop :=
  book.bidder? b = some entry.1 ∧ entry.2.IsFor products b

theorem pickupLine?_spec {b : Bid} {line : Option (UserId × PickupLine)}
    (h : book.pickupLine? products b = .ok line) :
    if b.isHandedOut && (book.bidder? b).isSome then
      ∃ entry, line = some entry ∧ book.IsLineOf products b entry
    else line = none := by
  unfold pickupLine? at h
  unfold Bid.isHandedOut
  split at h
  · rename_i quantity user hcommitted hquantity huser
    obtain ⟨subtotal, htimes, hline⟩ := bind_eq_ok_iff.mp h
    rw [mapError_eq_ok_iff] at htimes
    rw [hcommitted, hquantity, huser]
    exact ⟨_, (pure_eq_ok_iff.mp hline).symm, huser,
      ⟨rfl, rfl, rfl, rfl, hquantity, rfl, htimes, rfl⟩⟩
  · rename_i hnone
    rw [if_neg]
    · exact (pure_eq_ok_iff.mp h).symm
    · simp only [Bool.and_eq_true, Option.isSome_iff_exists]
      rintro ⟨⟨hcommitted, quantity, hquantity⟩, user, huser⟩
      exact hnone quantity user hcommitted hquantity huser

theorem pickupLines_spec (h : book.pickupLines products bids = .ok lines) :
    List.Forall₂ (book.IsLineOf products)
      (bids.filter fun b => b.isHandedOut && (book.bidder? b).isSome) lines := by
  induction bids generalizing lines with
  | nil =>
    rw [← pure_eq_ok_iff.mp h]
    exact .nil
  | cons b rest ih =>
    obtain ⟨line, hline, h⟩ := bind_eq_ok_iff.mp h
    obtain ⟨others, hothers, h⟩ := bind_eq_ok_iff.mp h
    have hspec := pickupLine?_spec hline
    rw [← pure_eq_ok_iff.mp h, List.filter_cons]
    split at hspec
    · rename_i hcounts
      obtain ⟨entry, rfl, hentry⟩ := hspec
      rw [if_pos hcounts]
      exact .cons hentry (ih hothers)
    · rename_i hcounts
      rw [hspec, if_neg hcounts]
      exact ih hothers

/-! ## Grouping -/

theorem linesOf_eq (user : UserId) (lines : List (UserId × PickupLine)) :
    linesOf user lines = (lines.filter fun entry => decide (entry.1 = user)).map (·.2) := by
  induction lines with
  | nil => rfl
  | cons entry rest ih =>
    unfold linesOf at ih ⊢
    by_cases howner : entry.1 = user <;> simp [howner, ih]

theorem linesOf_spec (h : book.pickupLines products book.bids = .ok lines) (user : UserId) :
    List.Forall₂ (PickupLine.IsFor products) (book.handedOutTo user) (linesOf user lines) := by
  have howned : List.Forall₂ (book.IsLineOf products) (book.handedOutTo user)
      (lines.filter fun entry => decide (entry.1 = user)) := by
    have hsame : book.handedOutTo user = (book.bids.filter fun b =>
        b.isHandedOut && (book.bidder? b).isSome).filter
          fun b => decide (book.bidder? b = some user) := by
      rw [List.filter_filter]
      refine List.filter_congr fun b _ => ?_
      by_cases howner : book.bidder? b = some user <;> simp [howner]
    rw [hsame]
    refine List.rel_filter (fun b entry hline => ?_) (pickupLines_spec h)
    show decide (book.bidder? b = some user) = true ↔ decide (entry.1 = user) = true
    simp [hline.1]
  rw [linesOf_eq]
  exact List.forall₂_map_right_iff.mpr (howned.imp fun b entry hline => hline.2)

theorem mem_ownersOf_iff {user : UserId} : user ∈ ownersOf lines ↔ user ∈ lines.map (·.1) := by
  unfold ownersOf
  rw [mem_foldl_insertAscending]
  simp

theorem linesOf_ne_nil_iff {user : UserId} : linesOf user lines ≠ [] ↔ user ∈ ownersOf lines := by
  rw [linesOf_eq, mem_ownersOf_iff]
  simp

theorem ownersOf_ascend (lines : List (UserId × PickupLine)) : (ownersOf lines).Pairwise (· < ·) :=
  pairwise_foldl_insertAscending _ lines .nil

end OrderBook

/-! ## Rows -/

/-- The user whose row it is, with a line for each bid of theirs for which something was handed out,
by name, and those of one name in the order of the bids. -/
structure PickupRow.IsFor (book : OrderBook) (products : Names .product) (users : Names .user)
    (row : PickupRow) : Prop where
  userName : row.userName = users.display row.user
  hasLines : row.lines ≠ []
  lines : ∃ lines, List.Forall₂ (PickupLine.IsFor products) (book.handedOutTo row.user) lines ∧
    row.lines.Perm lines ∧
    ∀ name, row.lines.filter (·.productName = name) = lines.filter (·.productName = name)
  sorted : row.lines.Pairwise (·.productName ≤ ·.productName)
  total : row.total = (row.lines.map (·.subtotal)).sum
  allPickedUp : row.allPickedUp = row.lines.all (·.isPickedUp)

/-- Rows with something left to collect stand before the others, then they go by name, and those of
one name by user. -/
def PickupRow.Before (a b : PickupRow) : Prop :=
  if a.allPickedUp = b.allPickedUp then
    a.userName < b.userName ∨ a.userName = b.userName ∧ a.user < b.user
  else a.allPickedUp = false

theorem PickupRow.ofLines_isFor {book : OrderBook} {products : Names .product}
    {users : Names .user} {user : UserId} {lines : List PickupLine}
    (h : List.Forall₂ (PickupLine.IsFor products) (book.handedOutTo user) lines)
    (hasLines : lines ≠ []) : (ofLines users user lines).IsFor book products users := by
  have htrans : ∀ a b c : PickupLine, decide (a.productName ≤ b.productName) = true →
      decide (b.productName ≤ c.productName) = true →
        decide (a.productName ≤ c.productName) = true := by
    simp only [decide_eq_true_eq]
    exact fun _ _ _ => String.le_trans
  have htotal : ∀ a b : PickupLine, (decide (a.productName ≤ b.productName) ||
      decide (b.productName ≤ a.productName)) = true := by
    simp only [Bool.or_eq_true, decide_eq_true_eq]
    exact fun _ _ => String.le_total ..
  refine ⟨rfl, ?_, ⟨lines, h, List.mergeSort_perm .., fun name => ?_⟩, ?_, rfl, rfl⟩
  · intro hnil
    have hlength := (List.mergeSort_perm lines fun a b =>
      decide (a.productName ≤ b.productName)).length_eq
    exact hasLines (List.eq_nil_of_length_eq_zero (hlength.symm.trans (congrArg List.length hnil)))
  · refine filter_mergeSort htrans htotal fun a b ha hb => ?_
    rw [of_decide_eq_true ha, of_decide_eq_true hb]
    exact decide_eq_true (String.le_refl name)
  · exact (List.pairwise_mergeSort htrans htotal lines).imp of_decide_eq_true

namespace PickupRow

variable {a b c : PickupRow}

theorem notAfter_trans (a b c : PickupRow) (hab : a.notAfter b = true)
    (hbc : b.notAfter c = true) : a.notAfter c = true := by
  unfold notAfter at *
  cases ha : a.allPickedUp <;> cases hb : b.allPickedUp <;> cases hc : c.allPickedUp <;>
    simp only [ha, hb, hc, if_true, if_false, Bool.not_true, Bool.not_false, Bool.true_eq_false,
      Bool.false_eq_true, decide_eq_true_eq] at hab hbc ⊢
  · exact String.le_trans hab hbc
  · exact String.le_trans hab hbc

theorem notAfter_total (a b : PickupRow) : (a.notAfter b || b.notAfter a) = true := by
  unfold notAfter
  cases a.allPickedUp <;> cases b.allPickedUp <;>
    simp [String.le_total]

theorem before_of_notAfter (h : a.notAfter b = true)
    (tied : b.notAfter a = true → a.user < b.user) : a.Before b := by
  unfold Before
  unfold notAfter at h tied
  split
  · rename_i hall
    rw [if_pos hall, decide_eq_true_eq] at h
    rw [if_pos hall.symm, decide_eq_true_eq] at tied
    by_cases hless : a.userName < b.userName
    · exact .inl hless
    · have hge := String.not_lt.mp hless
      exact .inr ⟨String.le_antisymm h hge, tied hge⟩
  · rename_i hall
    rw [if_neg hall, Bool.not_eq_true'] at h
    exact h

end PickupRow

/-! ## The sheet -/

/-- The rows are those of the users with something handed out to them, in their order, and each bid
for which something was handed out is on one line. -/
structure OrderBook.IsPickupSheet (book : OrderBook) (products : Names .product)
    (users : Names .user) (rows : List PickupRow) : Prop where
  oneEach : (rows.map (·.user)).Nodup
  each : ∀ row ∈ rows, row.IsFor book products users
  lines : ((rows.flatMap (·.lines)).map (·.bid)).Perm
    ((book.bids.filter (·.isHandedOut)).map (·.id))
  sorted : rows.Pairwise PickupRow.Before

namespace OrderBook

variable {book : OrderBook} {products : Names .product} {users : Names .user}
  {rows : List PickupRow} {lines : List (UserId × PickupLine)}

/-- The rows in the order of the users. -/
def groupedRows (users : Names .user) (lines : List (UserId × PickupLine)) : List PickupRow :=
  (ownersOf lines).map fun user => PickupRow.ofLines users user (linesOf user lines)

theorem pickupSheet_eq_ok_iff :
    book.pickupSheet products users = .ok rows ↔
      ∃ lines, book.pickupLines products book.bids = .ok lines ∧
        rows = (groupedRows users lines).mergeSort PickupRow.notAfter := by
  unfold pickupSheet
  rw [bind_eq_ok_iff]
  exact exists_congr fun lines => and_congr_right fun _ => pure_eq_ok_iff.trans eq_comm

theorem map_user_groupedRows (users : Names .user) (lines : List (UserId × PickupLine)) :
    (groupedRows users lines).map (·.user) = ownersOf lines := by
  unfold groupedRows
  rw [List.map_map]
  exact List.map_id _

theorem perm_flatMap_linesOf {keys : List UserId} (distinct : keys.Nodup)
    (covers : ∀ entry ∈ lines, entry.1 ∈ keys) :
    (keys.flatMap (linesOf · lines)).Perm (lines.map (·.2)) := by
  induction keys generalizing lines with
  | nil =>
    rw [List.eq_nil_iff_forall_not_mem.mpr fun entry hentry => nomatch covers entry hentry]
    exact .nil
  | cons user rest ih =>
    obtain ⟨huser, hrest⟩ := List.nodup_cons.mp distinct
    let others := lines.filter fun entry => !decide (entry.1 = user)
    have hothers : rest.flatMap (linesOf · lines) = rest.flatMap (linesOf · others) := by
      refine List.flatMap_congr fun other hother => ?_
      have hne : other ≠ user := fun heq => huser (heq ▸ hother)
      rw [linesOf_eq, linesOf_eq, List.filter_filter]
      congr 1
      refine List.filter_congr fun entry _ => ?_
      by_cases howner : entry.1 = other <;> simp [howner, hne]
    have hcovers : ∀ entry ∈ others, entry.1 ∈ rest := by
      intro entry hentry
      obtain ⟨hmem, hne⟩ := List.mem_filter.mp hentry
      exact (List.mem_cons.mp (covers entry hmem)).resolve_left (by simpa using hne)
    rw [List.flatMap_cons, hothers, linesOf_eq]
    refine ((ih hrest hcovers).append_left _).trans ?_
    rw [← List.map_append]
    exact (List.filter_append_perm ..).map _

theorem perm_lines_of_pickupSheet (owned : ∀ b ∈ book.bids, (book.bidder? b).isSome = true)
    (h : book.pickupSheet products users = .ok rows) :
    ∃ all, List.Forall₂ (PickupLine.IsFor products) (book.bids.filter (·.isHandedOut)) all ∧
      (rows.flatMap (·.lines)).Perm all := by
  obtain ⟨lines, hlines, rfl⟩ := pickupSheet_eq_ok_iff.mp h
  have hbids : book.bids.filter (·.isHandedOut) =
      book.bids.filter fun b => b.isHandedOut && (book.bidder? b).isSome :=
    List.filter_congr fun b hb => by rw [owned b hb, Bool.and_true]
  rw [hbids]
  refine ⟨lines.map (·.2), ?_, ?_⟩
  · exact List.forall₂_map_right_iff.mpr ((pickupLines_spec hlines).imp fun _ _ hline => hline.2)
  · refine ((List.mergeSort_perm ..).flatMap_right _).trans ?_
    unfold groupedRows
    rw [List.flatMap_map]
    refine (List.Perm.flatMap_left _ fun user _ => List.mergeSort_perm ..).trans ?_
    refine perm_flatMap_linesOf (nodup_of_ascending (ownersOf_ascend lines)) fun entry hentry => ?_
    exact mem_ownersOf_iff.mpr (List.mem_map_of_mem hentry)

theorem pickupSheet_isPickupSheet (owned : ∀ b ∈ book.bids, (book.bidder? b).isSome = true)
    (h : book.pickupSheet products users = .ok rows) :
    book.IsPickupSheet products users rows := by
  obtain ⟨lines, hlines, hrows⟩ := pickupSheet_eq_ok_iff.mp h
  subst hrows
  have hperm := List.mergeSort_perm (groupedRows users lines) PickupRow.notAfter
  have hascend : (groupedRows users lines).Pairwise fun a b => a.user < b.user := by
    rw [← List.pairwise_map, map_user_groupedRows]
    exact ownersOf_ascend lines
  refine ⟨?_, fun row hrow => ?_, ?_, ?_⟩
  · rw [(hperm.map _).nodup_iff, map_user_groupedRows]
    exact nodup_of_ascending (ownersOf_ascend lines)
  · obtain ⟨user, huser, rfl⟩ := List.mem_map.mp (hperm.mem_iff.mp hrow)
    exact PickupRow.ofLines_isFor (linesOf_spec hlines user) (linesOf_ne_nil_iff.mpr huser)
  · obtain ⟨all, hall, hlinesPerm⟩ := perm_lines_of_pickupSheet owned h
    rw [← map_bid_of_forall₂ hall]
    exact hlinesPerm.map _
  · exact (pairwise_mergeSort_of_pairwise PickupRow.notAfter_trans PickupRow.notAfter_total
      hascend).imp fun hbefore => PickupRow.before_of_notAfter hbefore.1 hbefore.2

end OrderBook

/-! ## Costs -/

section Costs

variable {products : Names .product} {users : Names .user} {price : Money}

theorem PickupLine.IsFor.subtotal_near {b : Bid} {line : PickupLine} (h : line.IsFor products b)
    (share : b.HasShare price) (hprice : 0 ≤ price) :
    (100 * line.subtotal.cents - price.cents * b.share.hundredths).natAbs ≤ 50 := by
  obtain ⟨quantity, hquantity, hshare, hat⟩ := share
  have hdistributed : line.distributedQuantity = quantity :=
    Option.some.inj (h.distributed.symm.trans hshare)
  have htimes := h.subtotal
  rw [h.price, hat, hdistributed] at htimes
  obtain ⟨_, hcents⟩ := Money.times_eq_ok_iff.mp htimes
  obtain ⟨hlow, hhigh⟩ := roundDiv_near (Int.mul_nonneg hprice hquantity) (show 0 < 100 by omega)
  have hgot : b.share = quantity := by
    unfold Bid.share
    rw [hshare]
    rfl
  rw [Option.getD_some] at hcents
  rw [← hcents] at hlow hhigh
  rw [hgot]
  omega

theorem subtotals_near {bids : List Bid} {lines : List PickupLine}
    (h : List.Forall₂ (PickupLine.IsFor products) bids lines)
    (shares : ∀ b ∈ bids, b.HasShare price) (hprice : 0 ≤ price) :
    (100 * (lines.map PickupLine.subtotal).sum.cents -
      price.cents * (bids.map Bid.share).sum.hundredths).natAbs ≤
        50 * lines.length := by
  induction h with
  | nil => simp
  | @cons b line bids lines hhead _ ih =>
    obtain ⟨hshare, hshares⟩ := List.forall_mem_cons.mp shares
    have hone := hhead.subtotal_near hshare hprice
    have hothers := ih hshares
    rw [List.map_cons, List.map_cons, List.sum_cons, List.sum_cons, List.length_cons,
      Money.cents_add, Quantity.hundredths_add, Int.mul_add, Int.mul_add]
    omega

theorem OrderBook.IsShared.subtotals_near {book : OrderBook} {bought : Purchase}
    {rows : List PickupRow} (h : book.IsShared)
    (owned : ∀ b ∈ book.bids, (book.bidder? b).isSome = true)
    (sheet : book.pickupSheet products users = .ok rows) (hbought : bought ∈ book.purchases)
    (hprice : 0 ≤ bought.price) :
    let lines := (rows.flatMap (·.lines)).filter (·.product = bought.product)
    (100 * (lines.map PickupLine.subtotal).sum.cents -
      bought.price.cents * bought.quantity.hundredths).natAbs ≤ 50 * lines.length := by
  intro lines
  obtain ⟨all, hall, hperm⟩ := perm_lines_of_pickupSheet owned sheet
  have hshared := h.purchases bought hbought
  have hbids : (book.bids.filter (·.isHandedOut)).filter (·.product = bought.product) =
      book.bids.filter (·.countsFor bought.product) := by
    rw [List.filter_filter]
    refine List.filter_congr fun b hb => ?_
    cases hcounts : b.countsFor bought.product with
    | true =>
      obtain ⟨share, _, hshare, _⟩ := hshared.hasShare b hb hcounts
      simp [Bid.isHandedOut, Bid.product_of_countsFor hcounts, Bid.isCommitted_of_countsFor hcounts,
        hshare]
    | false => rw [Bid.isHandedOut, ← Bool.and_assoc, ← Bid.countsFor, hcounts, Bool.false_and]
  have hfor : List.Forall₂ (PickupLine.IsFor products)
      (book.bids.filter (·.countsFor bought.product))
      (all.filter (·.product = bought.product)) := by
    rw [← hbids]
    refine List.rel_filter (fun b line hline => ?_) hall
    show decide (b.product = bought.product) = true ↔ decide (line.product = bought.product) = true
    rw [hline.product]
  have hlines : lines.Perm (all.filter (·.product = bought.product)) := hperm.filter _
  have hnear := BuyingClub.subtotals_near hfor
    (fun b hb => hshared.hasShare b (List.mem_filter.mp hb).1 (List.mem_filter.mp hb).2) hprice
  have htotal : ((book.bids.filter (·.countsFor bought.product)).map Bid.share).sum =
      bought.quantity := hshared.total
  have hsum : (lines.map PickupLine.subtotal).sum.cents =
      ((all.filter (·.product = bought.product)).map PickupLine.subtotal).sum.cents := by
    rw [Money.cents_sum, Money.cents_sum]
    exact ((hlines.map _).map _).sum_eq
  rw [hsum, hlines.length_eq, ← htotal]
  exact hnear

end Costs

end BuyingClub
