import BuyingClub.Proofs.Durability
import BuyingClub.Proofs.Integrity

/-!
# Belongings

A bid belongs to its bidder. Others leave it as it is, except that the leader hands goods out and
that those who shop note what was collected. What a command changes besides takes a right of the
user who gives it.
-/

namespace BuyingClub

/-! ## Lists that evolve -/

/-- How one list comes of another. What is kept stays in order, some is gone and some is new. -/
inductive Evolves {α : Type} (Kept : α → α → Prop) (Gone New : α → Prop) :
    List α → List α → Prop
  | nil : Evolves Kept Gone New [] []
  | keep {x y : α} {xs ys : List α} (kept : Kept x y) (rest : Evolves Kept Gone New xs ys) :
      Evolves Kept Gone New (x :: xs) (y :: ys)
  | drop {x : α} {xs ys : List α} (gone : Gone x) (rest : Evolves Kept Gone New xs ys) :
      Evolves Kept Gone New (x :: xs) ys
  | add {y : α} {xs ys : List α} (new : New y) (rest : Evolves Kept Gone New xs ys) :
      Evolves Kept Gone New xs (y :: ys)

namespace Evolves

variable {α : Type} {Kept Kept' : α → α → Prop} {Gone Gone' New New' : α → Prop}
  {xs ys zs : List α} {test : α → Bool} {f : α → α}

theorem refl (kept : ∀ x, Kept x x) (xs : List α) : Evolves Kept Gone New xs xs := by
  induction xs with
  | nil => exact .nil
  | cons x rest ih => exact .keep (kept x) ih

theorem mono (h : Evolves Kept Gone New xs ys) (kept : ∀ x y, Kept x y → Kept' x y)
    (gone : ∀ x, Gone x → Gone' x) (new : ∀ y, New y → New' y) :
    Evolves Kept' Gone' New' xs ys := by
  induction h with
  | nil => exact .nil
  | keep hkept _ ih => exact .keep (kept _ _ hkept) ih
  | drop hgone _ ih => exact .drop (gone _ hgone) ih
  | add hnew _ ih => exact .add (new _ hnew) ih

theorem trans (h : Evolves Kept (fun _ => False) New xs ys)
    (h' : Evolves Kept (fun _ => False) New ys zs)
    (kept : ∀ x y z, Kept x y → Kept y z → Kept x z) (new : ∀ y z, New y → Kept y z → New z) :
    Evolves Kept (fun _ => False) New xs zs := by
  -- On the second step: its first element tells which way the first step went.
  induction h' generalizing xs with
  | nil => exact h
  | keep hkept _ ih =>
    cases h with
    | keep hfirst rest => exact .keep (kept _ _ _ hfirst hkept) (ih rest)
    | drop gone _ => exact gone.elim
    | add hnew rest => exact .add (new _ _ hnew hkept) (ih rest)
  | drop gone _ _ => exact gone.elim
  | add hnew _ ih => exact .add hnew (ih h)

theorem of_map (kept : ∀ x, Kept x (f x)) (xs : List α) :
    Evolves Kept Gone New xs (xs.map f) := by
  induction xs with
  | nil => exact .nil
  | cons x rest ih => exact .keep (kept x) ih

theorem of_map_eq {β : Type} {g : α → β} (same : ys.map g = xs.map g)
    (kept : ∀ x y, g y = g x → Kept x y) : Evolves Kept Gone New xs ys := by
  induction xs generalizing ys with
  | nil =>
    rw [List.map_nil, List.map_eq_nil_iff] at same
    rw [same]
    exact .nil
  | cons x rest ih =>
    cases ys with
    | nil => cases same
    | cons y more =>
      obtain ⟨hfirst, hrest⟩ := List.cons.inj same
      exact .keep (kept x y hfirst) (ih hrest)

theorem of_updateFirst (kept : ∀ x, Kept x x)
    (found : ∀ x, xs.find? test = some x → Kept x (f x)) :
    Evolves Kept Gone New xs (updateFirst test f xs) := by
  induction xs with
  | nil => exact .nil
  | cons x rest ih =>
    unfold updateFirst
    by_cases hx : test x = true
    · rw [if_pos hx]
      exact .keep (found x (List.find?_cons_of_pos hx)) (refl kept rest)
    · rw [if_neg hx]
      rw [List.find?_cons_of_neg hx] at found
      exact .keep (kept x) (ih found)

theorem of_eraseP (kept : ∀ x, Kept x x) (found : ∀ x, xs.find? test = some x → Gone x) :
    Evolves Kept Gone New xs (xs.eraseP test) := by
  induction xs with
  | nil => exact .nil
  | cons x rest ih =>
    by_cases hx : test x = true
    · rw [List.eraseP_cons_of_pos hx]
      exact .drop (found x (List.find?_cons_of_pos hx)) (refl kept rest)
    · rw [List.eraseP_cons_of_neg hx]
      rw [List.find?_cons_of_neg hx] at found
      exact .keep (kept x) (ih found)

theorem of_new (new : ∀ y ∈ ys, New y) : Evolves Kept Gone New [] ys := by
  induction ys with
  | nil => exact .nil
  | cons y rest ih =>
    rw [List.forall_mem_cons] at new
    exact .add new.1 (ih new.2)

theorem append (h : Evolves Kept Gone New xs ys) (new : ∀ y ∈ zs, New y) :
    Evolves Kept Gone New xs (ys ++ zs) := by
  induction h with
  | nil => exact of_new new
  | keep kept _ ih => exact .keep kept ih
  | drop gone _ ih => exact .drop gone ih
  | add hnew _ ih => exact .add hnew ih

end Evolves

/-! ## The handout -/

def Bid.asks (b : Bid) : Quantity × Bool × Option String :=
  (b.quantity, b.interestedOnly, b.comment)

def Bid.goods (b : Bid) : Option Quantity × Option Money :=
  (b.distributedQuantity, b.distributedPrice)

def ShoppingItem.purchaseFields (item : ShoppingItem) :
    Option Quantity × Option Money × Option Money × Bool × Option Nat :=
  (item.purchasedQuantity, item.purchasedPrice, item.purchasedTotal, item.isPurchased,
    item.purchaseOrder)

/-- A bid as the handout may leave it: only the leader's asks for something else. -/
structure Bid.IsServed (leader : ParticipationId) (b c : Bid) : Prop where
  row : c.row = b.row
  asks : c.asks = b.asks ∨ b.participation = leader
  isPickedUp : c.isPickedUp = b.isPickedUp

/-- A bid as the handout may add it. -/
structure Bid.IsGranted (leader : ParticipationId) (c : Bid) : Prop where
  ofLeader : c.participation = leader
  notPickedUp : c.isPickedUp = false

def ServesBids (leader : ParticipationId) : List Bid → List Bid → Prop :=
  Evolves (Bid.IsServed leader) (fun _ => False) (Bid.IsGranted leader)

section Handout

variable {leader : ParticipationId} {bought : Purchase} {bids between after : List Bid}
  {now : Instant} {counters : Counters}

theorem Bid.participation_of_row {b c : Bid} (h : c.row = b.row) :
    c.participation = b.participation :=
  congrArg (fun row : BidRow => row.2.1) h

theorem Bid.IsServed.refl (b : Bid) : b.IsServed leader b := ⟨rfl, .inl rfl, rfl⟩

theorem Bid.isServed_handedOut (b : Bid) (quantity : Quantity) (price : Money) :
    b.IsServed leader (b.handedOut quantity price) :=
  ⟨rfl, .inl rfl, rfl⟩

theorem ServesBids.trans (h : ServesBids leader bids between)
    (h' : ServesBids leader between after) : ServesBids leader bids after := by
  apply Evolves.trans h h'
  · intro x y z hxy hyz
    refine ⟨hyz.row.trans hxy.row, ?_, hyz.isPickedUp.trans hxy.isPickedUp⟩
    rcases hyz.asks with hasks | hleader
    · rw [hasks]
      exact hxy.asks
    · exact .inr ((Bid.participation_of_row hxy.row).symm.trans hleader)
  · intro y z hy hyz
    have hparticipation := Bid.participation_of_row hyz.row
    exact ⟨hparticipation.trans hy.ofLeader, hyz.isPickedUp.trans hy.notPickedUp⟩

theorem prorate_serves (leader : ParticipationId) (bought : Purchase)
    (requested remaining : Quantity) (bids : List Bid) :
    ServesBids leader bids (prorate bought requested remaining bids) := by
  induction bids generalizing remaining with
  | nil => exact .nil
  | cons b rest ih =>
    unfold prorate
    split
    · exact .keep (b.isServed_handedOut _ _) (ih _)
    · exact .keep (.refl b) (ih _)

theorem fulfil_serves (leader : ParticipationId) (bought : Purchase) (bids : List Bid) :
    ServesBids leader bids (fulfil bought bids) := by
  apply Evolves.of_map
  intro b
  split
  · exact b.isServed_handedOut _ _
  · exact .refl b

theorem grantSurplus_serves (leader : ParticipationId) (product : ProductId) (surplus : Quantity)
    (now : Instant) (bids : List Bid) (counters : Counters) :
    ServesBids leader bids (grantSurplus leader product surplus now bids counters).1 := by
  unfold grantSurplus
  split
  · apply Evolves.of_updateFirst Bid.IsServed.refl
    intro b hb
    have hof : b.isOf leader product = true := by simpa using List.find?_some hb
    exact ⟨rfl, .inr (Bid.isOf_iff.mp hof).1, rfl⟩
  · apply Evolves.append (.refl Bid.IsServed.refl bids)
    intro c hc
    rw [List.mem_singleton.mp hc]
    exact ⟨rfl, rfl⟩

namespace OrderBook

theorem handOutProduct_serves (leader : ParticipationId) (now : Instant) (bought : Purchase)
    (book : OrderBook) (counters : Counters) :
    ServesBids leader book.bids (handOutProduct leader now bought book counters).2.1.bids := by
  unfold handOutProduct
  dsimp only
  split
  · exact prorate_serves ..
  · split
    · exact (grantSurplus_serves ..).trans (fulfil_serves ..)
    · exact fulfil_serves ..

theorem handOutAll_serves (leader : ParticipationId) (now : Instant) (purchases : List Purchase)
    (book : OrderBook) (counters : Counters) :
    ServesBids leader book.bids (handOutAll leader now purchases book counters).2.1.bids := by
  induction purchases generalizing book counters with
  | nil => exact .refl Bid.IsServed.refl _
  | cons bought rest ih =>
    rw [handOutAll_cons]
    exact (handOutProduct_serves ..).trans (ih ..)

theorem handOut_serves {book after : OrderBook} {counters' : Counters}
    {allocations : List Allocation}
    (h : book.handOut now counters = .ok (allocations, after, counters')) :
    ∃ leader, book.leader? = some leader ∧ ServesBids leader.id book.bids after.bids := by
  obtain ⟨leader, hleader, hall⟩ := handOut_eq_ok_iff.mp h
  have hserves := handOutAll_serves leader.id now book.purchases book counters
  rw [hall] at hserves
  exact ⟨leader, hleader, hserves⟩

end OrderBook

end Handout

/-! ## Rights -/

def Action.handsOut : Action → Bool
  | .completeShopping | .finishAdjusting _ => true
  | _ => false

namespace OrderBook

variable (book later : OrderBook) (user : UserId) (action : Action)

def IsLedBy : Prop := book.leader?.any (·.user = user) = true

def IsShoppedBy : Prop := (book.participationOf? user).any (·.mayShop) = true

/-- The user has a part in the run under this identifier. -/
def Holds (id : ParticipationId) : Prop := ∃ p ∈ book.participations, p.user = user ∧ p.id = id

structure BidStays (b c : Bid) : Prop where
  row : c.row = b.row
  asks : c.asks = b.asks ∨ later.Holds user b.participation
  goods : c.goods = b.goods ∨ (book.IsLedBy user ∧ action.handsOut = true)
  isPickedUp : c.isPickedUp = b.isPickedUp ∨
    (b.isPickedUp = false ∧ c.isPickedUp = true ∧ book.IsShoppedBy user)

structure BidEnters (c : Bid) : Prop where
  own : later.Holds user c.participation
  goods : c.goods = (none, none) ∨ (book.IsLedBy user ∧ action.handsOut = true)
  notPickedUp : c.isPickedUp = false

structure ItemStays (item new : ShoppingItem) : Prop where
  row : new.row = item.row
  product : new.product = item.product
  purchase : new.purchaseFields = item.purchaseFields ∨
    (book.run.stage = .shopping ∧ book.IsShoppedBy user)

/-- A participant before and after a command: the user, who leads and who was removed stay. -/
structure ParticipantStays (p q : Participation) : Prop where
  known : q = { p with isReady := q.isReady, isHelper := q.isHelper }
  isReady : q.isReady = p.isReady ∨ later.Holds user p.id
  isHelper : q.isHelper = p.isHelper ∨ book.IsLedBy user

structure ParticipantJoins (q : Participation) : Prop where
  joined : q = .join q.id book.run.id user false q.joinedAt
  early : book.run.stage = .planning ∨ book.run.stage = .active

/-- A command of this user changes the book no further than the rights of the user go. -/
structure Respects : Prop where
  bids : Evolves (book.BidStays later user action)
    (fun b => later.Holds user b.participation ∧ action = .retractBid b.product)
    (book.BidEnters later user action) book.bids later.bids
  items : Evolves (book.ItemStays user) (fun _ => False)
    (fun item => item.unpurchased = item ∧ book.IsLedBy user) book.items later.items
  participations : Evolves (book.ParticipantStays later user) (fun _ => False)
    (book.ParticipantJoins user) book.participations later.participations
  stage : later.run.stage = book.run.stage ∨
    (book.run.stage = .planning ∧ later.run.stage = .active) ∨
    (book.run.stage = .active ∧ later.run.stage = .planning) ∨
    (book.run.stage = .active ∧ later.run.stage = .confirmed ∧ action = .toggleReady) ∨
    book.IsLedBy user

end OrderBook

namespace Draft

variable {limits : Limits} {d after : Draft} {user : UserId} {action : Action} {reply : Reply}

theorem holds_of_participationOf? {book : OrderBook} {p : Participation}
    (h : book.participationOf? user = some p) : book.Holds user p.id := by
  have huser := List.find?_some h
  simp only [Bool.and_eq_true, decide_eq_true_eq] at huser
  exact ⟨p, List.mem_of_find?_eq_some h, huser.1, rfl⟩

theorem Gathers.holds {participations : List Participation} {next : Nat} {someone : UserId}
    {id : ParticipationId} (h : d.Gathers user participations next)
    (before : d.book.Holds someone id) : ∃ p ∈ participations, p.user = someone ∧ p.id = id := by
  obtain ⟨p, hp, huser, hid⟩ := before
  cases h with
  | stays => exact ⟨p, hp, huser, hid⟩
  | joins unknown => exact ⟨p, List.mem_append_left _ hp, huser, hid⟩
  | @marks changed f keeps =>
    have hkey : (someone, id) ∈
        (updateFirst (·.id = changed) f d.book.participations).map fun p => (p.user, p.id) := by
      rw [map_updateFirst _ _ _ fun p => by rw [keeps p]]
      exact List.mem_map.mpr ⟨p, hp, by rw [huser, hid]⟩
    obtain ⟨q, hq, hsame⟩ := List.mem_map.mp hkey
    obtain ⟨huser', hid'⟩ := Prod.mk.inj hsame
    exact ⟨q, hq, huser', hid'⟩

theorem Outcome.holds (h : d.Outcome limits user action after reply) {someone : UserId}
    {id : ParticipationId} (before : d.book.Holds someone id) : after.book.Holds someone id :=
  h.gathers.holds before

theorem Admits.holds {value : Binary64} {participation : ParticipationId} {quantity : Quantity}
    {admitted : Draft} (h : d.Admits limits user value participation quantity admitted) :
    admitted.book.Holds user participation := by
  cases h with
  | participant isOpen reads finds => exact holds_of_participationOf? finds
  | newcomer => exact ⟨_, List.mem_append_right _ (List.mem_singleton_self _), rfl, rfl⟩

end Draft

namespace OrderBook

variable {book later : OrderBook} {user : UserId} {action : Action}

theorem BidStays.refl (b : Bid) : book.BidStays later user action b b :=
  ⟨rfl, .inl rfl, .inl rfl, .inl rfl⟩

theorem ItemStays.refl (item : ShoppingItem) : book.ItemStays user item item :=
  ⟨rfl, rfl, .inl rfl⟩

theorem ParticipantStays.refl (p : Participation) : book.ParticipantStays later user p p :=
  ⟨rfl, .inl rfl, .inl rfl⟩

theorem bids_of_handOut {now : Instant} {counters counters' : Counters} {after : OrderBook}
    {allocations : List Allocation} {Gone : Bid → Prop} (leads : book.IsLedBy user)
    (handsOut : book.handOut now counters = .ok (allocations, after, counters'))
    (isHandout : action.handsOut = true)
    (holds : ∀ id, book.Holds user id → later.Holds user id) :
    Evolves (book.BidStays later user action) Gone (book.BidEnters later user action) book.bids
      after.bids := by
  obtain ⟨leader, hleader, hserves⟩ := handOut_serves handsOut
  have huser : leader.user = user := by
    unfold IsLedBy at leads
    rw [hleader] at leads
    exact of_decide_eq_true leads
  have hholds : later.Holds user leader.id :=
    holds _ ⟨leader, List.mem_of_find?_eq_some hleader, huser, rfl⟩
  apply hserves.mono
  · intro b c hserved
    refine ⟨hserved.row, ?_, .inr ⟨leads, isHandout⟩, .inl hserved.isPickedUp⟩
    rcases hserved.asks with hasks | hparticipation
    · exact .inl hasks
    · rw [hparticipation]
      exact .inr hholds
  · exact fun _ => False.elim
  · intro c hgranted
    refine ⟨?_, .inr ⟨leads, isHandout⟩, hgranted.notPickedUp⟩
    rw [hgranted.ofLeader]
    exact hholds

theorem items_of_handOut {now : Instant} {counters counters' : Counters} {after : OrderBook}
    {allocations : List Allocation} {New : ShoppingItem → Prop}
    (handsOut : book.handOut now counters = .ok (allocations, after, counters')) :
    Evolves (book.ItemStays user) (fun _ => False) New book.items after.items := by
  apply Evolves.of_map_eq (handOut_items handsOut
    (fun item => { item with requestedQuantity := 0 }) fun _ _ => rfl)
  intro item new same
  exact ⟨congrArg (·.row) same, congrArg (·.product) same, .inl (congrArg (·.purchaseFields) same)⟩

end OrderBook

namespace Draft

variable {limits : Limits} {d after : Draft} {user : UserId} {action : Action} {reply : Reply}

theorem Outcome.respectsBids (h : d.Outcome limits user action after reply) :
    Evolves (d.book.BidStays after.book user action)
      (fun b => after.book.Holds user b.participation ∧ action = .retractBid b.product)
      (d.book.BidEnters after.book user action) d.book.bids after.book.bids := by
  have hholds (id : ParticipationId) : d.book.Holds user id → after.book.Holds user id := h.holds
  cases h with
  | @bidPlaced _ _ _ _ participation _ admitted _ placed admits fits places moves =>
    have hown : after.book.Holds user participation := by
      have hparticipations : after.book.participations = admitted.book.participations := by
        rw [moves, movedIf_participations]
        exact (OrderBook.placeBid_frame places).2.1
      unfold OrderBook.Holds
      rw [hparticipations]
      exact admits.holds
    have hbids : after.book.bids = placed.book.bids := by
      rw [moves, movedIf_bids]
      rfl
    rw [hbids, ← admits.frame.2.1]
    rcases (OrderBook.placeBid_eq_ok_iff.mp places).2 with ⟨previous, finds, rfl⟩ |
      ⟨unknown, _, rfl⟩
    · apply Evolves.of_updateFirst OrderBook.BidStays.refl
      intro b hb
      obtain ⟨hparticipation, _⟩ := OrderBook.isOf_of_bidOf? hb
      refine ⟨rfl, .inr ?_, .inl rfl, .inl rfl⟩
      rw [hparticipation]
      exact hown
    · apply Evolves.append (.refl OrderBook.BidStays.refl _)
      intro c hc
      rw [List.mem_singleton.mp hc]
      exact ⟨hown, .inl rfl, rfl⟩
  | @bidRetracted product p _ _ _ isOpen finds fits retracts moves =>
    obtain ⟨_, rfl⟩ := OrderBook.retractBid_eq_ok_iff.mp retracts
    have hbids : after.book.bids = d.book.bids.eraseP (·.isOf p.id product) := by
      rw [moves, movedIf_bids]
      rfl
    rw [hbids]
    apply Evolves.of_eraseP OrderBook.BidStays.refl
    intro b hb
    obtain ⟨hparticipation, hproduct⟩ := OrderBook.isOf_of_bidOf? hb
    rw [hparticipation, hproduct]
    exact ⟨hholds _ (holds_of_participationOf? finds), rfl⟩
  | readyToggled isActive finds moves =>
    have hbids : after.book.bids = d.book.bids := by
      rw [moves, movedIf_bids]
      rfl
    rw [hbids]
    exact .refl OrderBook.BidStays.refl _
  | shoppingStarted leads allowed drawsUp =>
    obtain ⟨_, rfl, _⟩ := OrderBook.drawUpList_eq_ok_iff.mp drawsUp
    exact .refl OrderBook.BidStays.refl _
  | @shoppingBalanced _ book _ leads allowed balanced handsOut =>
    show Evolves _ _ _ d.book.bids book.bids
    exact OrderBook.bids_of_handOut leads handsOut rfl hholds
  | @adjustingFinished _ _ book _ leads isAdjusting balanced handsOut =>
    show Evolves _ _ _ d.book.bids book.bids
    exact OrderBook.bids_of_handOut leads handsOut rfl hholds
  | @pickedUp bid b isDistributing mayShop finds hasGoods =>
    obtain rfl := OrderBook.id_of_bid? finds
    apply Evolves.of_updateFirst OrderBook.BidStays.refl
    intro found hfound
    obtain rfl : found = b := Option.some.inj (hfound.symm.trans finds)
    refine ⟨rfl, .inl rfl, .inl rfl, ?_⟩
    cases hpicked : found.isPickedUp with
    | true => exact .inl rfl
    | false => exact .inr ⟨rfl, rfl, mayShop⟩
  | _ => exact .refl OrderBook.BidStays.refl _

theorem Outcome.respectsItems (h : d.Outcome limits user action after reply) :
    Evolves (d.book.ItemStays user) (fun _ => False)
      (fun item => item.unpurchased = item ∧ d.book.IsLedBy user) d.book.items
      after.book.items := by
  cases h with
  | bidPlaced admits fits places moves =>
    have hitems : after.book.items = d.book.items := by
      rw [moves, movedIf_items]
      exact (admits.frame_placed places).2
    rw [hitems]
    exact .refl OrderBook.ItemStays.refl _
  | bidRetracted isOpen finds fits retracts moves =>
    obtain ⟨_, rfl⟩ := OrderBook.retractBid_eq_ok_iff.mp retracts
    rw [moves, movedIf_items]
    exact .refl OrderBook.ItemStays.refl _
  | readyToggled isActive finds moves =>
    rw [moves, movedIf_items]
    exact .refl OrderBook.ItemStays.refl _
  | shoppingStarted leads allowed drawsUp =>
    obtain ⟨hnone, rfl, _⟩ := OrderBook.drawUpList_eq_ok_iff.mp drawsUp
    rw [hnone]
    apply Evolves.of_new
    intro item hitem
    obtain ⟨_, _, _, rfl⟩ := eq_toBuy_of_mem_itemsToBuy hitem
    exact ⟨rfl, leads⟩
  | @purchaseRecorded product _ _ _ _ _ _ item isShopping mayShop reads finds =>
    obtain rfl := OrderBook.product_of_itemFor? finds
    apply Evolves.of_updateFirst OrderBook.ItemStays.refl
    intro found hfound
    obtain rfl : found = item := Option.some.inj (hfound.symm.trans finds)
    exact ⟨rfl, rfl, .inr ⟨isShopping, mayShop⟩⟩
  | purchaseUndone isShopping mayShop finds wasBought =>
    apply Evolves.of_updateFirst OrderBook.ItemStays.refl
    intro found _
    exact ⟨rfl, rfl, .inr ⟨isShopping, mayShop⟩⟩
  | @shoppingBalanced _ book _ leads allowed balanced handsOut =>
    show Evolves _ _ _ d.book.items book.items
    exact OrderBook.items_of_handOut handsOut
  | @adjustingFinished _ _ book _ leads isAdjusting balanced handsOut =>
    show Evolves _ _ _ d.book.items book.items
    exact OrderBook.items_of_handOut handsOut
  | _ => exact .refl OrderBook.ItemStays.refl _

theorem Outcome.respectsParticipations (h : d.Outcome limits user action after reply) :
    Evolves (d.book.ParticipantStays after.book user) (fun _ => False)
      (d.book.ParticipantJoins user) d.book.participations after.book.participations := by
  have hholds (id : ParticipationId) : d.book.Holds user id → after.book.Holds user id := h.holds
  cases h with
  | @bidPlaced _ _ _ _ _ _ admitted _ placed admits fits places moves =>
    have hparticipations : after.book.participations = admitted.book.participations := by
      rw [moves, movedIf_participations]
      exact (OrderBook.placeBid_frame places).2.1
    rw [hparticipations]
    cases admits with
    | participant => exact .refl OrderBook.ParticipantStays.refl _
    | newcomer isOpen reads unknown takesNewcomers hasRoom =>
      apply Evolves.append (.refl OrderBook.ParticipantStays.refl _)
      intro q hq
      rw [List.mem_singleton.mp hq]
      refine ⟨rfl, ?_⟩
      have hstage : d.stage = .planning ∨ d.stage = .active := by
        cases hopen : d.stage <;> simp_all [Stage.isOpen]
      exact hstage
  | bidRetracted isOpen finds fits retracts moves =>
    obtain ⟨_, rfl⟩ := OrderBook.retractBid_eq_ok_iff.mp retracts
    rw [moves, movedIf_participations]
    exact .refl OrderBook.ParticipantStays.refl _
  | @readyToggled p _ isActive finds moves =>
    have hparticipations : after.book.participations =
        (d.book.updateParticipation (d.identified p).id
          fun q => { q with isReady := !(d.identified p).isReady }).participations := by
      rw [moves, movedIf_participations]
      rfl
    rw [hparticipations]
    apply Evolves.of_updateFirst OrderBook.ParticipantStays.refl
    intro found hfound
    refine ⟨rfl, .inr ?_, .inl rfl⟩
    have hid : found.id = (d.identified p).id := by simpa using List.find?_some hfound
    rw [hid, identified_id finds]
    exact hholds _ (holds_of_participationOf? finds)
  | helperSet leads isLive finds =>
    apply Evolves.of_updateFirst OrderBook.ParticipantStays.refl
    intro found _
    exact ⟨rfl, .inl rfl, .inr leads⟩
  | shoppingStarted leads allowed drawsUp =>
    obtain ⟨_, rfl, _⟩ := OrderBook.drawUpList_eq_ok_iff.mp drawsUp
    exact .refl OrderBook.ParticipantStays.refl _
  | shoppingBalanced leads allowed balanced handsOut =>
    rw [← OrderBook.handOut_participations handsOut]
    exact .refl OrderBook.ParticipantStays.refl _
  | adjustingFinished leads isAdjusting balanced handsOut =>
    rw [← OrderBook.handOut_participations handsOut]
    exact .refl OrderBook.ParticipantStays.refl _
  | _ => exact .refl OrderBook.ParticipantStays.refl _

theorem Outcome.respectsStage (h : d.Outcome limits user action after reply) :
    after.stage = d.stage ∨ (d.stage = .planning ∧ after.stage = .active) ∨
      (d.stage = .active ∧ after.stage = .planning) ∨
      (d.stage = .active ∧ after.stage = .confirmed ∧ action = .toggleReady) ∨
      d.book.IsLedBy user := by
  cases h with
  | bidPlaced admits fits places moves =>
    rw [moves, movedIf_stage]
    split
    · rename_i hc
      simp only [Bool.and_eq_true, decide_eq_true_eq] at hc
      exact .inr (.inl ⟨hc.1, rfl⟩)
    · exact .inl (stage_bidPlaced admits places)
  | bidRetracted isOpen finds fits retracts moves =>
    obtain ⟨_, rfl⟩ := OrderBook.retractBid_eq_ok_iff.mp retracts
    rw [moves, movedIf_stage]
    split
    · rename_i hc
      simp only [Bool.and_eq_true, decide_eq_true_eq] at hc
      exact .inr (.inr (.inl ⟨hc.1, rfl⟩))
    · exact .inl rfl
  | readyToggled isActive finds moves =>
    rw [moves, movedIf_stage]
    split
    · exact .inr (.inr (.inr (.inl ⟨isActive, rfl, rfl⟩)))
    · exact .inl rfl
  | purchaseRecorded isShopping mayShop reads finds => exact .inl rfl
  | purchaseUndone isShopping mayShop finds wasBought => exact .inl rfl
  | pickedUp isDistributing mayShop finds hasGoods => exact .inl rfl
  -- The others are the leader's, and say so in their first premise.
  | _ => exact .inr (.inr (.inr (.inr ‹_›)))

theorem Outcome.respects (h : d.Outcome limits user action after reply) :
    d.book.Respects after.book user action where
  bids := h.respectsBids
  items := h.respectsItems
  participations := h.respectsParticipations
  stage := h.respectsStage

end Draft

/-! ## Every stored book -/

theorem OrderBook.holds_iff {book : OrderBook} (distinct : (book.participations.map (·.id)).Nodup)
    {p : Participation} (hp : p ∈ book.participations) (someone : UserId) :
    book.Holds someone p.id ↔ p.user = someone := by
  constructor
  · rintro ⟨q, hq, huser, hid⟩
    rw [← List.inj_on_of_nodup_map distinct hq hp hid]
    exact huser
  · exact fun huser => ⟨p, hp, huser, rfl⟩

/-- Whatever happened at a desk before, a command succeeds only for a member of the group of the
run, and goes no further than the rights of that user. Unless a counter has run over, each part in
the run has one holder, its user. -/
theorem belongings_respected {steps : List (Terms × Desk.Turn)} {terms : Terms} {run : RunId}
    {command : Command} {now : Instant} {reply : Reply} {after : Desk}
    (handles : (Desk.handle terms run command now).on (Desk.opened.takeEach steps) =
      (.ok reply, after)) :
    ∃ book later, (Desk.opened.takeEach steps).repository.store.find? run = some book ∧
      after.repository.store.find? run = some later ∧
      terms.directory.isMember book.run.group command.user = true ∧
      book.Respects later command.user command.action ∧
      (Desk.opened.Lasts (steps ++ [(terms, .handle run command now)]) →
        ∀ p ∈ later.participations, ∀ someone, later.Holds someone p.id ↔ p.user = someone) := by
  have hunraced : (Desk.opened.takeEach steps).repository.IsUnraced :=
    Desk.takeEach_unraced (Repository.isUnraced_ofStore _) steps
  obtain ⟨book, d, hhandled⟩ := Desk.handle_ok hunraced handles
  obtain rfl : d.book.run.id = run :=
    hhandled.outcome.run_id.trans (Store.id_of_find? hhandled.finds)
  have hlater : after.repository.store.find? d.book.run.id = some d.book := by
    rw [hhandled.stores]
    exact Store.find?_replace_self hhandled.finds
  refine ⟨book, d.book, hhandled.finds, hlater, hhandled.isMember, hhandled.outcome.respects, ?_⟩
  intro lasts p hp someone
  have hafter : Desk.opened.takeEach (steps ++ [(terms, .handle d.book.run.id command now)]) =
      after := by
    rw [Desk.takeEach, List.foldl_append]
    exact congrArg Prod.snd handles
  have hcover : after.counters.Cover after.repository.store := by
    rw [← hafter]
    exact Desk.takeEach_cover (Repository.isUnraced_ofStore _) (.empty _) _ lasts
  have hnumbered := hcover.participations.each d.book (Store.mem_of_find? hlater)
  exact OrderBook.holds_iff hnumbered.nodup hp someone

/-- The leader of the trip of two hands out what there is. -/
theorem belongings_respected_in_handout :
    ∃ (reply : Reply) (after : Desk) (book later : OrderBook),
      (Desk.handle Desk.tripTerms ⟨1⟩ ⟨⟨1⟩, .finishAdjusting true⟩ (.ofSeconds 60)).on
          (Desk.opened.takeEach (Desk.tripTurns.map (Desk.tripTerms, ·))) = (.ok reply, after) ∧
        after.repository.store.find? ⟨1⟩ = some later ∧
        book.Respects later ⟨1⟩ (.finishAdjusting true) ∧
        ∀ p ∈ later.participations, ∀ someone, later.Holds someone p.id ↔ p.user = someone := by
  have hlasts : Desk.opened.Lasts (Desk.tripTurns.map (Desk.tripTerms, ·) ++
      [(Desk.tripTerms, .handle ⟨1⟩ ⟨⟨1⟩, .finishAdjusting true⟩ (.ofSeconds 60))]) := by
    decide +kernel
  have hanswered : ((Desk.handle Desk.tripTerms ⟨1⟩ ⟨⟨1⟩, .finishAdjusting true⟩
      (.ofSeconds 60)).on (Desk.opened.takeEach
        (Desk.tripTurns.map (Desk.tripTerms, ·)))).1.isOk = true := by
    decide +kernel
  rcases handles : (Desk.handle Desk.tripTerms ⟨1⟩ ⟨⟨1⟩, .finishAdjusting true⟩
      (.ofSeconds 60)).on (Desk.opened.takeEach (Desk.tripTurns.map (Desk.tripTerms, ·))) with
    ⟨why | reply, after⟩
  · rw [handles] at hanswered
    cases hanswered
  · obtain ⟨book, later, _, hlater, _, hrespects, hholds⟩ := belongings_respected handles
    exact ⟨reply, after, book, later, rfl, hlater, hrespects, hholds hlasts⟩

end BuyingClub
