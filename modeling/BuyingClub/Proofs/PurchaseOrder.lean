import BuyingClub.Proofs.Command.Items
import BuyingClub.Proofs.Durability
import BuyingClub.Proofs.History
import BuyingClub.Proofs.Pickup

/-!
# The order of purchases

A line that was bought has a quantity, a price, a total and a place in the order of purchases, and
any other line has none of the four. The places put the lines in the order in which they were first
bought since they were last given back.
-/

namespace BuyingClub

/-! ## One line -/

namespace ShoppingItem

/-- All that belongs to a purchase is there if the item was bought, and nothing of it if not. -/
structure HasWholePurchase (item : ShoppingItem) : Prop where
  quantity : item.purchasedQuantity.isSome = item.isPurchased
  price : item.purchasedPrice.isSome = item.isPurchased
  total : item.purchasedTotal.isSome = item.isPurchased
  order : item.purchaseOrder.isSome = item.isPurchased

variable {item : ShoppingItem} {limits : Limits} {items : List ShoppingItem}

theorem HasWholePurchase.unpurchased_purchased (h : item.HasWholePurchase)
    (unbought : item.isPurchased = false) (quantity : Quantity) (price total : Money)
    (order : Nat) : (item.purchased quantity price total order).unpurchased = item := by
  obtain ⟨id, run, product, requested, _, _, _, _, _⟩ := item
  obtain rfl : _ = false := unbought
  obtain ⟨hquantity, hprice, htotal, horder⟩ := h
  simp only [Option.isSome_eq_false_iff, Option.isNone_iff_eq_none] at *
  subst hquantity hprice htotal horder
  rfl

theorem ComesOf.hasWholePurchase (h : item.ComesOf limits items)
    (before : ∀ old ∈ items, old.HasWholePurchase) : item.HasWholePurchase := by
  cases h with
  | stays known requested =>
    obtain ⟨hquantity, hprice, htotal, horder⟩ := before _ known
    exact ⟨hquantity, hprice, htotal, horder⟩
  | listed id run product requested => exact ⟨rfl, rfl, rfl, rfl⟩
  | @bought old _ _ _ _ _ _ known reads order =>
    refine ⟨rfl, rfl, rfl, ?_⟩
    show (old.purchaseOrder.or (some order)).isSome = true
    rw [Option.isSome_or, Option.isSome_some, Bool.or_true]
  | returned known => exact ⟨rfl, rfl, rfl, rfl⟩

end ShoppingItem

/-! ## Places -/

namespace OrderBook

/-- The place of a product in the order of purchases. -/
def place? (book : OrderBook) (product : ProductId) : Option Nat :=
  (book.itemFor? product).bind (·.purchaseOrder)

/-- The places that are taken, line by line. -/
def orders (book : OrderBook) : List Nat := book.items.filterMap (·.purchaseOrder)

/-- The products that were bought, by their places. -/
def boughtInOrder (book : OrderBook) : List ProductId :=
  ((book.items.filter (·.isPurchased)).mergeSort
    fun a b => a.purchaseOrder.getD 0 ≤ b.purchaseOrder.getD 0).map (·.product)

end OrderBook

namespace Draft

theorem lt_nextOrder {items : List ShoppingItem} {item : ShoppingItem} {n : Nat}
    (h : item ∈ items) (hn : item.purchaseOrder = some n) : n < nextOrder items := by
  have hmem : n ∈ items.filterMap (·.purchaseOrder) := List.mem_filterMap.mpr ⟨item, h, hn⟩
  have hle := List.le_max?_getD_of_mem (k := 0) hmem
  have hmax : (items.filterMap (·.purchaseOrder)).foldl Nat.max 0 =
      max 0 ((items.filterMap (·.purchaseOrder)).max?.getD 0) := List.foldl_max
  unfold nextOrder
  omega

theorem nextOrder_le {items : List ShoppingItem} {bound : Nat}
    (h : ∀ item ∈ items, ∀ n, item.purchaseOrder = some n → n ≤ bound) :
    nextOrder items ≤ bound + 1 := by
  have hmax : (items.filterMap (·.purchaseOrder)).foldl Nat.max 0 ≤ bound := by
    apply List.foldlRecOn (motive := (· ≤ bound)) _ _ (Nat.zero_le _)
    intro m hm n hn
    obtain ⟨item, hitem, hn⟩ := List.mem_filterMap.mp hn
    exact Nat.max_le.mpr ⟨hm, h item hitem n hn⟩
  unfold nextOrder
  omega

end Draft

namespace OrderBook

variable {book after : OrderBook} {product other : ProductId} {item : ShoppingItem}

theorem place?_of_find? (finds : book.itemFor? product = some item) :
    book.place? product = item.purchaseOrder := by
  unfold place?
  rw [finds]
  rfl

theorem place?_of_mem (list : IsSoundList book.items) (h : item ∈ book.items) :
    book.place? item.product = item.purchaseOrder :=
  place?_of_find? (list.find? h)

theorem mem_place?_iff (list : IsSoundList book.items) {n : Nat} :
    book.place? product = some n ↔
      ∃ item ∈ book.items, item.product = product ∧ item.purchaseOrder = some n := by
  constructor
  · intro h
    obtain ⟨item, finds, horder⟩ := Option.bind_eq_some_iff.mp h
    exact ⟨item, mem_of_itemFor? finds, product_of_itemFor? finds, horder⟩
  · rintro ⟨item, hitem, rfl, horder⟩
    rw [place?_of_mem list hitem, horder]

theorem place?_congr
    (same : after.items.map (fun item => (item.product, item.purchaseOrder)) =
      book.items.map fun item => (item.product, item.purchaseOrder)) (product : ProductId) :
    after.place? product = book.place? product := by
  have hplace (b : OrderBook) : b.place? product =
      ((b.items.map fun item => (item.product, item.purchaseOrder)).find?
        (·.1 = product)).bind (·.2) := by
    rw [List.find?_map, Option.bind_map]
    rfl
  rw [hplace, hplace, same]

theorem place?_of_items (same : after.items = book.items) (product : ProductId) :
    after.place? product = book.place? product := by
  apply place?_congr
  rw [same]

theorem place?_updateItem {f : ShoppingItem → ShoppingItem}
    (finds : book.itemFor? product = some item)
    (keeps : ∀ line : ShoppingItem, line.product = product → (f line).product = product) :
    (book.updateItem product f).place? other =
      if other = product then (f item).purchaseOrder else book.place? other := by
  obtain rfl := product_of_itemFor? finds
  split
  · rename_i hother
    rw [hother]
    exact place?_of_find? (itemFor?_updateItem finds keeps)
  · rename_i hother
    have hsame : (book.updateItem item.product f).itemFor? other = book.itemFor? other := by
      apply find?_updateFirst_of_ne
      · intro line hline
        rw [of_decide_eq_true hline]
        exact decide_eq_false (Ne.symm hother)
      · intro line hline
        rw [keeps line (of_decide_eq_true hline)]
        exact decide_eq_false (Ne.symm hother)
    unfold place?
    rw [hsame]

end OrderBook

/-! ## The log of purchases -/

/-- The products that are bought, in the order in which they were, after one more action. -/
def notePurchase (log : List ProductId) : Action → List ProductId
  | .recordPurchase product _ _ _ => if product ∈ log then log else log ++ [product]
  | .undoPurchase product => log.erase product
  | _ => log

/-- The products that are bought after these actions, the one bought first at the front. -/
def purchaseLog (actions : List Action) : List ProductId := actions.foldl notePurchase []

def Action.isRecording : Action → Bool
  | .recordPurchase .. => true
  | _ => false

theorem notePurchase_of_noPurchase {action : Action} (h : action.isPurchase = false)
    (log : List ProductId) : notePurchase log action = log := by
  cases action <;> first | rfl | cases h

theorem countP_isRecording_of_noPurchase {action : Action} (h : action.isPurchase = false) :
    [action].countP (·.isRecording) = 0 := by
  cases action <;> first | rfl | cases h

theorem purchaseLog_concat (actions : List Action) (action : Action) :
    purchaseLog (actions ++ [action]) = notePurchase (purchaseLog actions) action := by
  unfold purchaseLog
  rw [List.foldl_append]
  rfl

/-- The places in a book are those of a log, and no later than the purchases recorded so far. -/
structure OrderBook.IsOrderedBy (book : OrderBook) (log : List ProductId) (recorded : Nat) :
    Prop where
  list : IsSoundList book.items
  whole : ∀ item ∈ book.items, item.HasWholePurchase
  mem : ∀ product, product ∈ log ↔ (book.place? product).isSome = true
  ascends : log.Pairwise fun p q =>
    ∀ m, book.place? p = some m → ∀ n, book.place? q = some n → m < n
  bounds : ∀ product n, book.place? product = some n → 1 ≤ n ∧ n ≤ recorded

namespace OrderBook.IsOrderedBy

variable {limits : Limits} {book after : OrderBook} {log : List ProductId} {recorded : Nat}
  {product : ProductId} {item : ShoppingItem}

theorem nodup (h : book.IsOrderedBy log recorded) : log.Nodup := by
  refine h.ascends.imp_of_mem fun {p q} hp _ hlt heq => ?_
  subst heq
  obtain ⟨n, hn⟩ := Option.isSome_iff_exists.mp ((h.mem p).mp hp)
  exact Nat.lt_irrefl n (hlt n hn n hn)

theorem congr (h : book.IsOrderedBy log recorded) (list : IsSoundList after.items)
    (whole : ∀ item ∈ after.items, item.HasWholePurchase)
    (same : ∀ product, after.place? product = book.place? product) :
    after.IsOrderedBy log recorded := by
  refine ⟨list, whole, fun product => ?_, ?_, fun product n hn => ?_⟩
  · rw [same]
    exact h.mem product
  · simp only [same]
    exact h.ascends
  · rw [same] at hn
    exact h.bounds product n hn

theorem mono {more : Nat} (h : book.IsOrderedBy log recorded) (le : recorded ≤ more) :
    book.IsOrderedBy log more :=
  ⟨h.list, h.whole, h.mem, h.ascends, fun product n hn =>
    ⟨(h.bounds product n hn).1, (h.bounds product n hn).2.trans le⟩⟩

theorem of_unbought (list : IsSoundList book.items)
    (whole : ∀ item ∈ book.items, item.HasWholePurchase)
    (unbought : ∀ item ∈ book.items, item.purchaseOrder = none) :
    book.IsOrderedBy [] recorded := by
  have hnone : ∀ product, book.place? product = none := by
    intro product
    refine Option.eq_none_iff_forall_ne_some.mpr fun n hn => ?_
    obtain ⟨item, hitem, _, horder⟩ := (mem_place?_iff list).mp hn
    rw [unbought item hitem] at horder
    cases horder
  refine ⟨list, whole, fun product => ?_, .nil, fun product n hn => ?_⟩
  · simp [hnone]
  · rw [hnone] at hn
    cases hn

theorem log_eq_nil (h : book.IsOrderedBy log recorded) (empty : book.items = []) : log = [] := by
  refine List.eq_nil_iff_forall_not_mem.mpr fun product hproduct => ?_
  have hsome := (h.mem product).mp hproduct
  unfold place? itemFor? at hsome
  rw [empty] at hsome
  cases hsome

theorem nextOrder_bounds (h : book.IsOrderedBy log recorded) :
    1 ≤ Draft.nextOrder book.items ∧ Draft.nextOrder book.items ≤ recorded + 1 := by
  refine ⟨Nat.le_add_left 1 _, Draft.nextOrder_le fun item hitem n hn => ?_⟩
  have hplace := place?_of_mem h.list hitem
  rw [hn] at hplace
  exact (h.bounds _ n hplace).2

theorem lt_nextOrder (h : book.IsOrderedBy log recorded) {n : Nat}
    (hn : book.place? product = some n) : n < Draft.nextOrder book.items := by
  obtain ⟨item, hitem, _, horder⟩ := (mem_place?_iff h.list).mp hn
  exact Draft.lt_nextOrder hitem horder

theorem record (h : book.IsOrderedBy log recorded) (finds : book.itemFor? product = some item)
    (quantity : Quantity) (price total : Money)
    (list : IsSoundList after.items) (whole : ∀ item ∈ after.items, item.HasWholePurchase)
    (items : after.items = (book.updateItem product fun _ =>
      item.purchased quantity price total (Draft.nextOrder book.items)).items) :
    after.IsOrderedBy (if product ∈ log then log else log ++ [product]) (recorded + 1) := by
  have hproduct := product_of_itemFor? finds
  have hplace : book.place? product = item.purchaseOrder := place?_of_find? finds
  have hafter (other : ProductId) : after.place? other =
      if other = product then item.purchaseOrder.or (some (Draft.nextOrder book.items))
      else book.place? other := by
    rw [place?_of_items items]
    exact place?_updateItem finds fun _ _ => hproduct
  by_cases known : product ∈ log
  · -- Bought before: the line keeps its place.
    obtain ⟨n, hn⟩ := Option.isSome_iff_exists.mp ((h.mem product).mp known)
    rw [if_pos known]
    refine (h.congr list whole fun other => ?_).mono (Nat.le_succ _)
    rw [hafter]
    split
    · rename_i hother
      rw [hother, hn, ← hplace, hn]
      rfl
    · rfl
  · have hnone : book.place? product = none := by
      rw [← Option.not_isSome_iff_eq_none, ← h.mem]
      exact known
    rw [hplace] at hnone
    rw [hnone] at hafter
    have hself : after.place? product = some (Draft.nextOrder book.items) := by
      rw [hafter, if_pos rfl]
      rfl
    have hothers : ∀ other ∈ log, after.place? other = book.place? other := by
      intro other hother
      have hne : other ≠ product := by
        rintro rfl
        exact known hother
      rw [hafter, if_neg hne]
    rw [if_neg known]
    refine ⟨list, whole, fun other => ?_, ?_, fun other n hn => ?_⟩
    · rw [List.mem_append, List.mem_singleton]
      by_cases hother : other = product
      · simp [hother, hself]
      · simp [hafter, hother, h.mem]
    · refine List.pairwise_append.mpr ⟨?_, List.pairwise_singleton .., ?_⟩
      · refine h.ascends.imp_of_mem fun {p q} hp hq hlt => ?_
        rw [hothers p hp, hothers q hq]
        exact hlt
      · intro p hp q hq m hm n hn
        rw [List.mem_singleton.mp hq, hself] at hn
        rw [hothers p hp] at hm
        obtain rfl := Option.some.inj hn
        exact h.lt_nextOrder hm
    · rw [hafter] at hn
      split at hn
      · obtain rfl := Option.some.inj hn
        exact h.nextOrder_bounds
      · obtain ⟨hone, hle⟩ := h.bounds other n hn
        exact ⟨hone, hle.trans (Nat.le_succ _)⟩

theorem undo (h : book.IsOrderedBy log recorded) (finds : book.itemFor? product = some item)
    (list : IsSoundList after.items) (whole : ∀ item ∈ after.items, item.HasWholePurchase)
    (items : after.items = (book.updateItem product (·.unpurchased)).items) :
    after.IsOrderedBy (log.erase product) recorded := by
  have hafter (other : ProductId) : after.place? other =
      if other = product then none else book.place? other := by
    rw [place?_of_items items]
    exact place?_updateItem finds fun _ hline => hline
  refine ⟨list, whole, fun other => ?_, ?_, fun other n hn => ?_⟩
  · rw [h.nodup.mem_erase_iff, hafter]
    by_cases hother : other = product
    · simp [hother]
    · simp [hother, h.mem]
  · refine (h.ascends.erase product).imp fun {p q} hlt m hm n hn => ?_
    rw [hafter, Option.ite_none_left_eq_some] at hm hn
    exact hlt m hm.2 n hn.2
  · rw [hafter] at hn
    split at hn
    · cases hn
    · exact h.bounds other n hn

/-! ### What the log says -/

theorem eq_of_place? (h : book.IsOrderedBy log recorded) {p q : ProductId} {n : Nat}
    (hp : book.place? p = some n) (hq : book.place? q = some n) : p = q := by
  have hapart : (log.map book.place?).Nodup := by
    refine List.pairwise_map.mpr (h.ascends.imp_of_mem fun {p q} hp _ hlt heq => ?_)
    obtain ⟨m, hm⟩ := Option.isSome_iff_exists.mp ((h.mem p).mp hp)
    exact Nat.lt_irrefl m (hlt m hm m (heq ▸ hm))
  have hlogged {r : ProductId} (hr : book.place? r = some n) : r ∈ log := by
    rw [h.mem, hr]
    rfl
  exact List.inj_on_of_nodup_map hapart (hlogged hp) (hlogged hq) (hp.trans hq.symm)

theorem nodup_orders (h : book.IsOrderedBy log recorded) : book.orders.Nodup := by
  have hapart : book.items.Pairwise fun a b =>
      ∀ n, a.purchaseOrder = some n → ∀ m, b.purchaseOrder = some m → n ≠ m := by
    refine (List.pairwise_map.mp h.list.distinct).imp_of_mem ?_
    rintro a b ha hb hne n hn m hm rfl
    exact hne (h.eq_of_place? ((place?_of_mem h.list ha).trans hn)
      ((place?_of_mem h.list hb).trans hm))
  exact List.pairwise_filterMap.mpr hapart

theorem order_bounds (h : book.IsOrderedBy log recorded) {n : Nat}
    (hn : n ∈ book.orders) : 1 ≤ n ∧ n ≤ recorded := by
  obtain ⟨item, hitem, horder⟩ := List.mem_filterMap.mp hn
  exact h.bounds item.product n ((place?_of_mem h.list hitem).trans horder)

theorem boughtInOrder_eq (h : book.IsOrderedBy log recorded) : book.boughtInOrder = log := by
  let placeOf (p : ProductId) := (book.place? p).getD 0
  let bought := book.items.filter (·.isPurchased)
  let sorted := bought.mergeSort fun a b => a.purchaseOrder.getD 0 ≤ b.purchaseOrder.getD 0
  have hsorted : sorted.Perm bought := List.mergeSort_perm _ _
  have hmem {item : ShoppingItem} (hitem : item ∈ sorted) : item ∈ book.items :=
    (List.mem_filter.mp (hsorted.mem_iff.mp hitem)).1
  have hlogged (product : ProductId) : product ∈ sorted.map (·.product) ↔ product ∈ log := by
    rw [h.mem, (hsorted.map _).mem_iff, List.mem_map]
    constructor
    · rintro ⟨item, hitem, rfl⟩
      obtain ⟨hitem, hbought⟩ := List.mem_filter.mp hitem
      rw [place?_of_mem h.list hitem, (h.whole item hitem).order, hbought]
    · intro hsome
      obtain ⟨n, hn⟩ := Option.isSome_iff_exists.mp hsome
      obtain ⟨item, hitem, rfl, horder⟩ := (mem_place?_iff h.list).mp hn
      refine ⟨item, List.mem_filter.mpr ⟨hitem, ?_⟩, rfl⟩
      rw [← (h.whole item hitem).order, horder]
      rfl
  have hperm : (sorted.map (·.product)).Perm log := by
    have hnodup : (sorted.map (·.product)).Nodup :=
      (hsorted.map _).nodup_iff.mpr (h.list.distinct.sublist (List.filter_sublist.map _))
    exact (List.perm_ext_iff_of_nodup hnodup h.nodup).mpr hlogged
  have hsortedPlaces : (sorted.map (·.product)).Pairwise fun p q => placeOf p ≤ placeOf q := by
    have hplaces : sorted.Pairwise fun a b =>
        decide (a.purchaseOrder.getD 0 ≤ b.purchaseOrder.getD 0) = true := by
      refine List.pairwise_mergeSort (fun a b c hab hbc => ?_) (fun a b => ?_) bought
      · simp only [decide_eq_true_eq] at hab hbc ⊢
        exact hab.trans hbc
      · simp only [Bool.or_eq_true, decide_eq_true_eq]
        exact Nat.le_total _ _
    refine List.pairwise_map.mpr (hplaces.imp_of_mem fun {a b} ha hb hle => ?_)
    simp only [placeOf, place?_of_mem h.list (hmem ha), place?_of_mem h.list (hmem hb)]
    exact of_decide_eq_true hle
  have hlogPlaces : log.Pairwise fun p q => placeOf p ≤ placeOf q := by
    refine h.ascends.imp_of_mem fun {p q} hp hq hlt => ?_
    obtain ⟨m, hm⟩ := Option.isSome_iff_exists.mp ((h.mem p).mp hp)
    obtain ⟨n, hn⟩ := Option.isSome_iff_exists.mp ((h.mem q).mp hq)
    simp only [placeOf, hm, hn, Option.getD_some]
    exact Nat.le_of_lt (hlt m hm n hn)
  refine hperm.eq_of_pairwise (fun p q hp hq hle hge => ?_) hsortedPlaces hlogPlaces
  obtain ⟨m, hm⟩ := Option.isSome_iff_exists.mp ((h.mem p).mp ((hlogged p).mp hp))
  obtain ⟨n, hn⟩ := Option.isSome_iff_exists.mp ((h.mem q).mp hq)
  simp only [placeOf, hm, hn, Option.getD_some] at hle hge
  obtain rfl := Nat.le_antisymm hle hge
  exact h.eq_of_place? hm hn

end OrderBook.IsOrderedBy

/-! ## Commands -/

namespace Draft

variable {limits : Limits} {d after : Draft} {user : UserId} {action : Action} {reply : Reply}

theorem Outcome.hasWholePurchase (h : d.Outcome limits user action after reply)
    (before : ∀ item ∈ d.book.items, item.HasWholePurchase) :
    ∀ item ∈ after.book.items, item.HasWholePurchase := fun item hitem =>
  (h.comesOf item hitem).hasWholePurchase before

theorem Outcome.isOrderedBy {log : List ProductId} {recorded : Nat}
    (h : d.Outcome limits user action after reply) (before : d.book.IsOrderedBy log recorded) :
    after.book.IsOrderedBy (notePurchase log action)
      (recorded + [action].countP (·.isRecording)) := by
  have hlist := h.isSoundList before.list
  have hwhole := h.hasWholePurchase before.whole
  have hchanges := h.changesItems
  generalize hitems : after.book.items = items at hchanges
  cases hchanges with
  | stays noPurchase =>
    rw [notePurchase_of_noPurchase noPurchase, countP_isRecording_of_noPurchase noPurchase]
    exact before.congr hlist hwhole (OrderBook.place?_of_items hitems)
  | lists empty =>
    obtain rfl := before.log_eq_nil empty
    refine .of_unbought hlist hwhole fun item hitem => ?_
    rw [hitems] at hitem
    obtain ⟨_, _, _, rfl⟩ := eq_toBuy_of_mem_itemsToBuy hitem
    rfl
  | buys reads finds => exact before.record finds _ _ _ hlist hwhole hitems
  | returns finds wasBought => exact before.undo finds hlist hwhole hitems
  | handsOut noPurchase handsOut =>
    rw [notePurchase_of_noPurchase noPurchase, countP_isRecording_of_noPurchase noPurchase]
    refine before.congr hlist hwhole (OrderBook.place?_congr ?_)
    rw [hitems]
    exact OrderBook.handOut_items handsOut _ fun _ _ => rfl

section Undoing

variable {d after later last : Draft} {user undoer : UserId} {product : ProductId}
  {quantity price : Binary64} {total : Option Binary64} {reply reply' : Reply} {item : ShoppingItem}

theorem Outcome.orders_of_bought
    (h : d.Outcome limits user (.recordPurchase product quantity price total) after reply)
    (finds : d.book.itemFor? product = some item) (whole : item.HasWholePurchase)
    (bought : item.isPurchased = true) :
    after.book.items.map (·.purchaseOrder) = d.book.items.map (·.purchaseOrder) := by
  cases h with
  | @purchaseRecorded _ _ _ _ q each paid found isShopping mayShop reads hfound =>
    obtain rfl := Option.some.inj (hfound.symm.trans finds)
    obtain rfl := OrderBook.product_of_itemFor? finds
    obtain ⟨n, hn⟩ := Option.isSome_iff_exists.mp (whole.order.trans bought)
    have hkeeps : (found.purchased q each paid (nextOrder d.book.items)).purchaseOrder =
        found.purchaseOrder := by
      show found.purchaseOrder.or _ = found.purchaseOrder
      rw [hn]
      rfl
    exact map_updateFirst_of_find? (f := fun _ => found.purchased q each paid _)
      (·.purchaseOrder) finds hkeeps

theorem Outcome.items_of_undone
    (h : d.Outcome limits user (.recordPurchase product quantity price total) after reply)
    (finds : d.book.itemFor? product = some item) (whole : item.HasWholePurchase)
    (unbought : item.isPurchased = false)
    (undoes : later.Outcome limits undoer (.undoPurchase product) last reply')
    (same : later.book = after.book) :
    last.book.items = d.book.items := by
  cases h with
  | @purchaseRecorded _ _ _ _ q each paid found isShopping mayShop reads hfound =>
    obtain rfl := Option.some.inj (hfound.symm.trans finds)
    obtain rfl := OrderBook.product_of_itemFor? finds
    cases undoes with
    | purchaseUndone isShopping' mayShop' finds' wasBought =>
      show updateFirst _ _ later.book.items = _
      rw [same]
      have hkeeps (x : ShoppingItem) : decide (x.product = found.product) = true →
          decide ((found.purchased q each paid (nextOrder d.book.items)).product = found.product) =
            true :=
        fun _ => decide_eq_true rfl
      exact (updateFirst_updateFirst hkeeps d.book.items).trans
        (updateFirst_eq_self finds (whole.unpurchased_purchased unbought q each paid _))

theorem Outcome.undoable
    (h : d.Outcome limits user (.recordPurchase product quantity price total) after reply)
    (same : later.book = after.book) :
    ∃ last reply', later.Outcome limits user (.undoPurchase product) last reply' := by
  cases h with
  | @purchaseRecorded _ _ _ _ q each paid found isShopping mayShop reads finds =>
    obtain rfl := OrderBook.product_of_itemFor? finds
    have hfound : later.book.itemFor? found.product =
        some (found.purchased q each paid (nextOrder d.book.items)) := by
      rw [same]
      exact OrderBook.itemFor?_updateItem finds fun _ _ => rfl
    refine ⟨_, _, .purchaseUndone ?_ ?_ hfound rfl⟩
    · unfold stage
      rw [same]
      exact isShopping
    · rw [same]
      exact mayShop

end Undoing

end Draft

/-! ## Desks -/

/-- The places in a stored run are those of the actions that were accepted for it, and for one that
is not stored none were. -/
def Store.Orders (store : Store) (run : RunId) (actions : List Action) : Prop :=
  match store.find? run with
  | none => actions = []
  | some book => book.IsOrderedBy (purchaseLog actions) (actions.countP (·.isRecording))

theorem Store.orders_iff_of_find? {store : Store} {run : RunId} {book : OrderBook}
    {actions : List Action} (finds : store.find? run = some book) :
    store.Orders run actions ↔
      book.IsOrderedBy (purchaseLog actions) (actions.countP (·.isRecording)) := by
  unfold Store.Orders
  rw [finds]

theorem Store.orders_iff_of_find?_eq_none {store : Store} {run : RunId} {actions : List Action}
    (unknown : store.find? run = none) : store.Orders run actions ↔ actions = [] := by
  unfold Store.Orders
  rw [unknown]

namespace Desk

variable {terms : Terms} {desk after : Desk} {turn : Turn} {run : RunId} {book : OrderBook}

/-- What a turn lets somebody do in a run, if it does. -/
def accepted? (terms : Terms) (run : RunId) (desk : Desk) : Turn → Option Action
  | .handle id command now =>
    if desk.served? terms (.handle id command now) = some run then some command.action else none
  | _ => none

/-- What is done in a run in these turns, one after the other. -/
def accepted (terms : Terms) (run : RunId) (desk : Desk) : List Turn → List Action
  | [] => []
  | turn :: rest =>
    (desk.accepted? terms run turn).toList ++ accepted terms run (desk.take terms turn) rest

theorem accepted?_of_not_served (h : desk.served? terms turn ≠ some run) :
    desk.accepted? terms run turn = none := by
  cases turn with
  | handle id command now => exact if_neg h
  | _ => rfl

theorem Took.orders {actions : List Action} (h : desk.Took terms turn after)
    (before : desk.repository.store.Orders run actions) :
    after.repository.store.Orders run (actions ++ (desk.accepted? terms run turn).toList) := by
  have hkept (stores : after.repository.store.find? run = desk.repository.store.find? run)
      (serves : desk.served? terms turn ≠ some run) :
      after.repository.store.Orders run (actions ++ (desk.accepted? terms run turn).toList) := by
    rw [accepted?_of_not_served serves, Option.toList_none, List.append_nil]
    unfold Store.Orders
    rw [stores]
    exact before
  cases h with
  | @created group store leader now _ fresh stores counts =>
    by_cases hrun : run = (newBook desk.counters group store leader now).run.id
    · subst hrun
      obtain rfl := (Store.orders_iff_of_find?_eq_none fresh).mp before
      rw [Store.orders_iff_of_find? (by rw [stores]; exact Store.find?_append_self fresh)]
      exact .of_unbought ⟨.nil, List.forall_mem_nil _⟩ (List.forall_mem_nil _)
        (List.forall_mem_nil _)
    · exact hkept (by rw [stores]; exact Store.find?_append_of_ne hrun) nofun
  | @handled id command now old d reply _ finds outcome serves stores counts =>
    have hid : d.book.run.id = id := outcome.run_id.trans (Store.id_of_find? finds)
    by_cases hrun : run = id
    · subst hrun
      have haccepted : desk.accepted? terms run (.handle run command now) = some command.action :=
        if_pos serves
      rw [Store.orders_iff_of_find? finds] at before
      have hstored : after.repository.store.find? run = some d.book := by
        rw [stores]
        exact find?_stored outcome finds
      rw [haccepted, Option.toList_some, Store.orders_iff_of_find? hstored, purchaseLog_concat,
        List.countP_append]
      exact outcome.isOrderedBy before
    · refine hkept ?_ ?_
      · rw [stores, Store.find?_replace_of_ne (by rw [hid]; exact hrun)]
      · rw [serves]
        exact fun heq => hrun (Option.some.inj heq).symm
  | resumed stores counts => exact hkept (by rw [stores]) nofun
  | kept stores serves counts => exact hkept (by rw [stores]) (by rw [serves]; nofun)

theorem takeAll_orders {actions : List Action} (unraced : desk.repository.IsUnraced)
    (before : desk.repository.store.Orders run actions) (turns : List Turn) :
    (desk.takeAll terms turns).repository.store.Orders run
      (actions ++ desk.accepted terms run turns) := by
  induction turns generalizing desk actions with
  | nil =>
    rw [accepted, List.append_nil]
    exact before
  | cons turn rest ih =>
    obtain ⟨hunraced, htook⟩ := take_took terms unraced turn
    rw [accepted, ← List.append_assoc]
    exact ih hunraced (htook.orders before)

/-! ### A purchase and its undoing -/

def recordTurn (run : RunId) (user : UserId) (product : ProductId) (quantity price : Binary64)
    (total : Option Binary64) (now : Instant) : Turn :=
  .handle run ⟨user, .recordPurchase product quantity price total⟩ now

def undoTurn (run : RunId) (user : UserId) (product : ProductId) (now : Instant) : Turn :=
  .handle run ⟨user, .undoPurchase product⟩ now

theorem take_served {command : Command} {now : Instant} (unraced : desk.repository.IsUnraced)
    (serves : desk.served? terms (.handle run command now) = some run) :
    ∃ book d reply, desk.repository.store.find? run = some book ∧
      (Draft.ofBook book desk.counters now).Outcome terms.limits command.user command.action d
        reply ∧
      (desk.take terms (.handle run command now)).repository.store.find? run = some d.book := by
  cases (take_took terms unraced (.handle run command now)).2 with
  | handled finds outcome _ stores counts =>
    refine ⟨_, _, _, finds, outcome, ?_⟩
    rw [stores]
    exact find?_stored outcome finds
  | kept stores unserved counts =>
    rw [serves] at unserved
    cases unserved

theorem served_of_outcome {command : Command} {now : Instant} {d : Draft} {reply : Reply}
    (undisturbed : desk.IsUndisturbed) (finds : desk.repository.store.find? run = some book)
    (isMember : terms.directory.isMember book.run.group command.user = true)
    (outcome : (Draft.ofBook book desk.counters now).Outcome terms.limits command.user
      command.action d reply) :
    desk.served? terms (.handle run command now) = some run ∧
      (desk.take terms (.handle run command now)).repository =
        .ofStore (desk.repository.store.replace d.book) := by
  obtain ⟨after, hhandle, hrepository⟩ := handle_ofStore desk.journal finds isMember outcome
  rw [← undisturbed.eq_ofStore] at hhandle
  constructor
  · simp only [served?, hhandle]
    rfl
  · rw [← hrepository]
    exact congrArg (fun result => result.2.repository) hhandle

theorem isMember_of_served {command : Command} {now : Instant} (undisturbed : desk.IsUndisturbed)
    (finds : desk.repository.store.find? run = some book)
    (serves : desk.served? terms (.handle run command now) = some run) :
    terms.directory.isMember book.run.group command.user = true := by
  by_contra hmember
  have hrefuses := @on_handle_ofStore terms run command now desk.repository.store desk.counters
    desk.journal
  rw [← undisturbed.eq_ofStore, finds] at hrefuses
  simp only [hmember, if_false] at hrefuses
  simp only [served?, hrefuses] at serves
  cases serves

theorem served_undoTurn {user : UserId} {product : ProductId} {quantity price : Binary64}
    {total : Option Binary64} {now : Instant} (undisturbed : desk.IsUndisturbed)
    (serves : desk.served? terms (recordTurn run user product quantity price total now) = some run)
    (later : Instant) :
    (desk.take terms (recordTurn run user product quantity price total now)).served? terms
      (undoTurn run user product later) = some run := by
  have hunraced : desk.repository.IsUnraced := by
    rw [undisturbed.eq_ofStore]
    exact Repository.isUnraced_ofStore _
  obtain ⟨book, d, reply, finds, outcome, hafter⟩ := take_served hunraced serves
  have hmember := isMember_of_served undisturbed finds serves
  obtain ⟨_, hrepository⟩ := served_of_outcome undisturbed finds hmember outcome
  let started : Draft := .ofBook d.book
    (desk.take terms (recordTurn run user product quantity price total now)).counters later
  have hsame : started.book = d.book := rfl
  obtain ⟨last, answer, hundo⟩ := outcome.undoable hsame
  have hundisturbed : (desk.take terms
      (recordTurn run user product quantity price total now)).IsUndisturbed := by
    show (desk.take terms (.handle run _ now)).repository.isClosed = false ∧
      (desk.take terms (.handle run _ now)).repository.disturbances = []
    rw [hrepository]
    exact ⟨rfl, rfl⟩
  have hmember' : terms.directory.isMember d.book.run.group user = true := by
    rw [outcome.follows.group]
    exact hmember
  let undo : Command := ⟨user, .undoPurchase product⟩
  have hundone : started.Outcome terms.limits undo.user undo.action last answer := hundo
  exact (served_of_outcome hundisturbed hafter hmember' hundone).1

end Desk

/-- A stored line has all that belongs to a purchase or nothing of it. No two places are the same,
they are counted from one and are no more than the purchases recorded so far, and they tell in which
order the lines were first bought since they were last given back. To record a purchase again leaves
all places as they are, and to undo one that was just made for the first time leaves all lines as
they were before it. -/
theorem purchases_coherent {terms : Terms} {turns : List Desk.Turn} {desk : Desk} {run : RunId}
    {book : OrderBook} (reaches : Desk.opened.takeAll terms turns = desk)
    (finds : desk.repository.store.find? run = some book) :
    (∀ item ∈ book.items, item.HasWholePurchase) ∧
      book.orders.Nodup ∧
      (∀ order ∈ book.orders, 1 ≤ order ∧
        order ≤ (Desk.opened.accepted terms run turns).countP (·.isRecording)) ∧
      book.boughtInOrder = purchaseLog (Desk.opened.accepted terms run turns) ∧
      ∀ record user product quantity price total now,
        record = Desk.recordTurn run user product quantity price total now →
        desk.served? terms record = some run →
          ∃ item bought, book.itemFor? product = some item ∧
            (desk.take terms record).repository.store.find? run = some bought ∧
            (item.isPurchased = true →
              bought.items.map (·.purchaseOrder) = book.items.map (·.purchaseOrder)) ∧
            (item.isPurchased = false → ∀ later,
              (desk.IsUndisturbed → (desk.take terms record).served? terms
                (Desk.undoTurn run user product later) = some run) ∧
              ∀ undo undoer, undo = Desk.undoTurn run undoer product later →
                (desk.take terms record).served? terms undo = some run →
                  ∃ returned, ((desk.take terms record).take terms undo).repository.store.find?
                      run = some returned ∧ returned.items = book.items) := by
  have hunraced : desk.repository.IsUnraced := by
    rw [← reaches]
    exact Desk.takeAll_unraced (Repository.isUnraced_ofStore _) turns
  have hopened : Desk.opened.repository.store.Orders run [] := rfl
  have horders : (Desk.opened.takeAll terms turns).repository.store.Orders run
      ([] ++ Desk.opened.accepted terms run turns) :=
    Desk.takeAll_orders (Repository.isUnraced_ofStore _) hopened turns
  rw [List.nil_append, reaches, Store.orders_iff_of_find? finds] at horders
  refine ⟨horders.whole, horders.nodup_orders, fun order => horders.order_bounds,
    horders.boughtInOrder_eq, ?_⟩
  rintro record user product quantity price total now rfl serves
  obtain ⟨old, d, reply, hold, outcome, hafter⟩ := Desk.take_served hunraced serves
  obtain rfl := Option.some.inj (finds.symm.trans hold)
  obtain ⟨item, hitem⟩ : ∃ item, book.itemFor? product = some item := by
    cases outcome with
    | purchaseRecorded isShopping mayShop reads finds => exact ⟨_, finds⟩
  have hwhole := horders.whole item (OrderBook.mem_of_itemFor? hitem)
  refine ⟨item, d.book, hitem, hafter, outcome.orders_of_bought hitem hwhole, ?_⟩
  intro unbought later
  refine ⟨fun undisturbed => Desk.served_undoTurn undisturbed serves later, ?_⟩
  rintro undo undoer rfl undoes
  have hunraced' := (Desk.take_took terms hunraced
    (Desk.recordTurn run user product quantity price total now)).1
  obtain ⟨bought, last, answer, hbought, hundo, hlast⟩ := Desk.take_served hunraced' undoes
  obtain rfl := Option.some.inj (hafter.symm.trans hbought)
  exact ⟨last.book, hlast, outcome.items_of_undone hitem hwhole unbought hundo rfl⟩

namespace Desk

/-- They want three things. The first one bought is given back and bought again. -/
def returningTurns : List Turn :=
  [.create ⟨1⟩ ⟨1⟩ ⟨1⟩ (.ofSeconds 0),
    tripTurn 1 (.placeBid ⟨1⟩ (.ofInt 2) false none),
    tripTurn 2 (.placeBid ⟨2⟩ (.ofInt 4) false none),
    tripTurn 2 (.placeBid ⟨3⟩ (.ofInt 1) false none),
    tripTurn 1 .forceConfirm,
    tripTurn 1 .startShopping,
    tripTurn 1 (.recordPurchase ⟨1⟩ (.ofInt 5) (.ofInt 1) none),
    tripTurn 1 (.recordPurchase ⟨2⟩ (.ofInt 4) (.ofInt 3) none),
    tripTurn 1 (.undoPurchase ⟨1⟩),
    tripTurn 1 (.recordPurchase ⟨1⟩ (.ofInt 2) (.ofInt 1) none)]

end Desk

/-- The second thing is now the one bought first. The third one is bought and given back. -/
theorem purchases_coherent_when_returned :
    ∃ book bought returned : OrderBook,
      (Desk.opened.takeAll Desk.tripTerms Desk.returningTurns).repository.store.find? ⟨1⟩ =
        some book ∧ book.boughtInOrder = [⟨2⟩, ⟨1⟩] ∧
      ((Desk.opened.takeAll Desk.tripTerms Desk.returningTurns).take Desk.tripTerms
        (Desk.recordTurn ⟨1⟩ ⟨1⟩ ⟨3⟩ (.ofInt 1) (.ofInt 7) none
          (.ofSeconds 0))).repository.store.find? ⟨1⟩ = some bought ∧
      (((Desk.opened.takeAll Desk.tripTerms Desk.returningTurns).take Desk.tripTerms
        (Desk.recordTurn ⟨1⟩ ⟨1⟩ ⟨3⟩ (.ofInt 1) (.ofInt 7) none (.ofSeconds 0))).take Desk.tripTerms
          (Desk.undoTurn ⟨1⟩ ⟨1⟩ ⟨3⟩ (.ofSeconds 0))).repository.store.find? ⟨1⟩ = some returned ∧
      returned.items = book.items := by
  have hbook : ((Desk.opened.takeAll Desk.tripTerms Desk.returningTurns).repository.store.find?
      ⟨1⟩).any (fun b => (b.itemFor? ⟨3⟩).any (!·.isPurchased)) = true := by
    decide +kernel
  have hlog : purchaseLog (Desk.opened.accepted Desk.tripTerms ⟨1⟩ Desk.returningTurns) =
      [⟨2⟩, ⟨1⟩] := by
    decide +kernel
  obtain ⟨book, finds, hitem⟩ := (Option.any_eq_true _ _).mp hbook
  obtain ⟨old, hold, hunbought⟩ := (Option.any_eq_true _ _).mp hitem
  obtain ⟨_, _, _, hinOrder, hrecords⟩ := purchases_coherent rfl finds
  obtain ⟨item, bought, hfound, hbought, _, hundoes⟩ :=
    hrecords _ ⟨1⟩ ⟨3⟩ (.ofInt 1) (.ofInt 7) none (.ofSeconds 0) rfl (by decide +kernel)
  obtain rfl := Option.some.inj (hold.symm.trans hfound)
  obtain ⟨hserves, hreturns⟩ := hundoes (by simpa using hunbought) (.ofSeconds 0)
  obtain ⟨returned, hreturned, hitems⟩ := hreturns _ ⟨1⟩ rfl (hserves (by decide +kernel))
  exact ⟨book, bought, returned, finds, hinOrder.trans hlog, hbought, hreturned, hitems⟩

end BuyingClub
