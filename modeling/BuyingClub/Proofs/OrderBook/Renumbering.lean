import BuyingClub.Command
import BuyingClub.Proofs.OrderBook.Rows
import BuyingClub.Proofs.OrderBook.ShoppingList

/-!
# Other numbers

The same book under other numbers. No operation on a book depends on how its rows are numbered, as
long as different numbers stay different, and what it enters has the numbers that were drawn.
-/

namespace BuyingClub

/-! ## Identifiers -/

/-- Other numbers for what is numbered here, besides the runs. -/
structure Renumbering where
  participation : ParticipationId → ParticipationId
  bid : BidId → BidId
  item : ItemId → ItemId

/-- The order stays. -/
structure Renumbering.IsMonotone (ρ : Renumbering) : Prop where
  participation : ∀ a b, a < b → ρ.participation a < ρ.participation b
  bid : ∀ a b, a < b → ρ.bid a < ρ.bid b
  item : ∀ a b, a < b → ρ.item a < ρ.item b

section Identifiers

variable {kind : Kind} {f f' : Identifier kind → Identifier kind} {next next' count : Nat}

theorem Identifier.injective_of_lt (h : ∀ a b, a < b → f a < f b) : Function.Injective f := by
  have hirrefl (a : Identifier kind) : ¬ a < a := Nat.lt_irrefl a.number
  intro a b heq
  by_contra hne
  rcases Nat.lt_trichotomy a.number b.number with hlt | hsame | hlt
  · exact hirrefl _ (heq ▸ h a b hlt)
  · cases a
    cases b
    exact hne (congrArg _ hsame)
  · exact hirrefl _ (heq ▸ h b a hlt)

/-- What is drawn from two counters goes to the same. -/
def DrawAlike (f f' : Identifier kind → Identifier kind) (next next' count : Nat) : Prop :=
  ∀ i < count, f ⟨followingNumber^[i] next⟩ = f' ⟨followingNumber^[i] next'⟩

namespace DrawAlike

theorem first (h : DrawAlike f f' next next' count) (some : 0 < count) : f ⟨next⟩ = f' ⟨next'⟩ :=
  h 0 some

theorem after {done : Nat} (h : DrawAlike f f' next next' (done + count)) :
    DrawAlike f f' (followingNumber^[done] next) (followingNumber^[done] next') count := by
  intro i hi
  rw [← Function.iterate_add_apply, ← Function.iterate_add_apply]
  exact h (i + done) (by omega)

end DrawAlike

/-- What was drawn before stays, and what is drawn from the one counter goes to what is drawn from
the other. -/
def shift (next next' : Nat) (id : Identifier kind) : Identifier kind :=
  if id.number < next then id else ⟨id.number + (next' - next)⟩

theorem shift_of_lt {id : Identifier kind} (old : id.number < next) : shift next next' id = id :=
  if_pos old

theorem shift_lt {a b : Identifier kind} (h : a < b) : shift next next' a < shift next next' b := by
  have hlt : a.number < b.number := h
  show (shift next next' a).number < (shift next next' b).number
  unfold shift
  grind

theorem shift_next (later : next ≤ next') :
    shift next next' (⟨next⟩ : Identifier kind) = ⟨next'⟩ := by
  unfold shift
  rw [if_neg (Nat.lt_irrefl next)]
  exact congrArg _ (Nat.add_sub_cancel' later)

theorem drawAlike_shift (few : count < UInt64.size) (later : next ≤ next')
    (rises : next ≤ followingNumber^[count] next)
    (rises' : next' ≤ followingNumber^[count] next') :
    DrawAlike (shift next next' : Identifier kind → Identifier kind) id next next' count := by
  intro i hi
  rw [iterate_followingNumber_of_lt few rises hi, iterate_followingNumber_of_lt few rises' hi]
  unfold shift
  rw [if_neg (by simp)]
  refine congrArg _ ?_
  show next + i + (next' - next) = next' + i
  omega

/-- Whatever the counters, at most `most` numbers are drawn and as many from the one as from the
other, and what comes of it matches if they go to the same. -/
def Draws (f : Identifier kind → Identifier kind) (most next next' last last' : Nat)
    (isMatch : Prop) : Prop :=
  ∃ count ≤ most, last = followingNumber^[count] next ∧ last' = followingNumber^[count] next' ∧
    (DrawAlike f id next next' count → isMatch)

theorem Draws.isMatch {most last last' : Nat} {isMatch : Prop}
    (h : Draws (shift next next' : Identifier kind → Identifier kind) most next next' last last'
      isMatch)
    (few : most < UInt64.size) (later : next ≤ next') (rises : next ≤ last)
    (rises' : next' ≤ last') : isMatch := by
  obtain ⟨count, hcount, rfl, rfl, halike⟩ := h
  exact halike (drawAlike_shift (Nat.lt_of_le_of_lt hcount few) later rises rises')

theorem Draws.imp {most last last' : Nat} {isMatch isMatch' : Prop}
    (h : Draws f most next next' last last' isMatch) (implies : isMatch → isMatch') :
    Draws f most next next' last last' isMatch' := by
  obtain ⟨count, hcount, hlast, hlast', halike⟩ := h
  exact ⟨count, hcount, hlast, hlast', implies ∘ halike⟩

end Identifiers

namespace Renumbering

/-- The shift from these counters to later ones. -/
def shift (counters later : Counters) : Renumbering where
  participation := BuyingClub.shift counters.participation later.participation
  bid := BuyingClub.shift counters.bid later.bid
  item := BuyingClub.shift counters.item later.item

theorem shift_isMonotone (counters later : Counters) : (shift counters later).IsMonotone :=
  ⟨fun _ _ => shift_lt, fun _ _ => shift_lt, fun _ _ => shift_lt⟩

/-- Everything as it is. -/
def same : Renumbering := ⟨id, id, id⟩

/-- Every bid under one number, so that only the rest of it tells it apart. -/
def blank : Renumbering := ⟨id, fun _ => ⟨0⟩, id⟩

end Renumbering

/-! ## Rows and books -/

variable (ρ : Renumbering)

def Participation.renumber (p : Participation) : Participation :=
  { p with id := ρ.participation p.id }

def Bid.renumber (b : Bid) : Bid :=
  { b with id := ρ.bid b.id, participation := ρ.participation b.participation }

def ShoppingItem.renumber (item : ShoppingItem) : ShoppingItem :=
  { item with id := ρ.item item.id }

def OrderBook.renumber (book : OrderBook) : OrderBook :=
  { book with
    participations := book.participations.map (·.renumber ρ)
    bids := book.bids.map (·.renumber ρ)
    items := book.items.map (·.renumber ρ) }

def BidRequest.renumber (request : BidRequest) : BidRequest :=
  { request with participation := ρ.participation request.participation }

def Reply.renumber : Reply → Reply
  | .bidPlaced bid isNew stage => .bidPlaced (bid.renumber ρ) isNew stage
  | .bidRetracted bid stage => .bidRetracted (bid.renumber ρ) stage
  | .helperSet p => .helperSet (p.renumber ρ)
  | .shoppingStarted items => .shoppingStarted (items.map (·.renumber ρ))
  | .purchaseRecorded item => .purchaseRecorded (item.renumber ρ)
  | .purchaseUndone item => .purchaseUndone (item.renumber ρ)
  | .pickedUp bid => .pickedUp (bid.renumber ρ)
  | reply => reply

/-- The numbers in the book stay. -/
structure Renumbering.Fixes (book : OrderBook) : Prop where
  participations : ∀ p ∈ book.participations, ρ.participation p.id = p.id
  bids : ∀ b ∈ book.bids, ρ.bid b.id = b.id
  bidders : ∀ b ∈ book.bids, ρ.participation b.participation = b.participation
  items : ∀ item ∈ book.items, ρ.item item.id = item.id

theorem OrderBook.renumber_same (book : OrderBook) : book.renumber .same = book := by
  show { book with
    participations := book.participations.map id
    bids := book.bids.map id
    items := book.items.map id } = book
  simp only [List.map_id]

variable {ρ} {book : OrderBook}

namespace Renumbering.Fixes

theorem renumber_bid (h : ρ.Fixes book) {b : Bid} (hb : b ∈ book.bids) : b.renumber ρ = b := by
  unfold Bid.renumber
  rw [h.bids b hb, h.bidders b hb]

theorem renumber_participation (h : ρ.Fixes book) {p : Participation}
    (hp : p ∈ book.participations) : p.renumber ρ = p := by
  unfold Participation.renumber
  rw [h.participations p hp]

theorem renumber_item (h : ρ.Fixes book) {item : ShoppingItem} (hitem : item ∈ book.items) :
    item.renumber ρ = item := by
  unfold ShoppingItem.renumber
  rw [h.items item hitem]

theorem renumber (h : ρ.Fixes book) : book.renumber ρ = book := by
  have hparticipations : book.participations.map (·.renumber ρ) = book.participations.map id :=
    List.map_congr_left fun _ hp => h.renumber_participation hp
  have hbids : book.bids.map (·.renumber ρ) = book.bids.map id :=
    List.map_congr_left fun _ hb => h.renumber_bid hb
  have hitems : book.items.map (·.renumber ρ) = book.items.map id :=
    List.map_congr_left fun _ hitem => h.renumber_item hitem
  unfold OrderBook.renumber
  rw [hparticipations, hbids, hitems, List.map_id, List.map_id, List.map_id]

end Renumbering.Fixes

/-! ## What is found -/

theorem Bid.isOf_renumber (inj : Function.Injective ρ.participation) (b : Bid)
    (participation : ParticipationId) (product : ProductId) :
    (b.renumber ρ).isOf (ρ.participation participation) product =
      b.isOf participation product := by
  unfold Bid.isOf
  exact congrArg (· && _) (decide_eq_decide.mpr inj.eq_iff)

theorem any_isOf_renumber (inj : Function.Injective ρ.participation) (bids : List Bid)
    (participation : ParticipationId) (product : ProductId) :
    (bids.map (·.renumber ρ)).any (·.isOf (ρ.participation participation) product) =
      bids.any (·.isOf participation product) := by
  rw [List.any_map]
  congr 1
  funext b
  exact b.isOf_renumber inj participation product

theorem Bid.countsFor_renumber (b : Bid) (product : ProductId) :
    (b.renumber ρ).countsFor product = b.countsFor product := rfl

namespace OrderBook

theorem participation?_renumber (inj : Function.Injective ρ.participation) (id : ParticipationId) :
    (book.renumber ρ).participation? (ρ.participation id) =
      (book.participation? id).map (·.renumber ρ) := by
  unfold participation? renumber
  rw [List.find?_map]
  congr 2
  funext p
  exact decide_eq_decide.mpr inj.eq_iff

theorem bidOf?_renumber (inj : Function.Injective ρ.participation)
    (participation : ParticipationId) (product : ProductId) :
    (book.renumber ρ).bidOf? (ρ.participation participation) product =
      (book.bidOf? participation product).map (·.renumber ρ) := by
  unfold bidOf? renumber
  rw [List.find?_map]
  congr 2
  funext b
  exact b.isOf_renumber inj participation product

theorem products_renumber : (book.renumber ρ).products = book.products := by
  unfold products renumber
  rw [List.foldl_map]
  rfl

theorem demand_renumber (product : ProductId) :
    (book.renumber ρ).demand product = book.demand product := by
  unfold demand renumber
  rw [List.filter_map, List.map_map]
  rfl

theorem itemFor?_renumber (product : ProductId) :
    (book.renumber ρ).itemFor? product = (book.itemFor? product).map (·.renumber ρ) := by
  unfold itemFor? renumber
  rw [List.find?_map]
  rfl

/-! ## Bids -/

theorem checkChange_renumber (inj : Function.Injective ρ.participation)
    (participation : ParticipationId) (product : ProductId) (quantity : Quantity)
    (interestedOnly : Bool) :
    (book.renumber ρ).checkChange (ρ.participation participation) product quantity interestedOnly =
      book.checkChange participation product quantity interestedOnly := by
  have hpurchased : (book.renumber ρ).purchasedQuantity product =
      book.purchasedQuantity product := by
    unfold purchasedQuantity
    rw [itemFor?_renumber]
    cases book.itemFor? product <;> rfl
  unfold checkChange
  rw [hpurchased, bidOf?_renumber inj, demand_renumber]
  cases book.bidOf? participation product <;> rfl

theorem placeBid_renumber (inj : Function.Injective ρ.participation) {limits : Limits}
    {request : BidRequest} {now : Instant} {counters counters' : Counters}
    (next : ρ.bid ⟨counters.bid⟩ = ⟨counters'.bid⟩) :
    Agree (fun placed placed' => placed'.bid = placed.bid.renumber ρ ∧
        placed'.previous.isNone = placed.previous.isNone ∧
        placed'.book = placed.book.renumber ρ)
      (book.placeBid limits request now counters)
      ((book.renumber ρ).placeBid limits (request.renumber ρ) now counters') := by
  unfold placeBid
  refine .bind_same fun _ => ?_
  have hfinds : (book.renumber ρ).bidOf? (request.renumber ρ).participation
      (request.renumber ρ).product =
        (book.bidOf? request.participation request.product).map (·.renumber ρ) :=
    bidOf?_renumber inj request.participation request.product
  have hlimit : (book.renumber ρ).checkNewProduct limits (request.renumber ρ).product =
      book.checkNewProduct limits request.product := by
    rw [checkNewProduct, products_renumber]
    rfl
  rw [hfinds]
  cases book.bidOf? request.participation request.product with
  | some previous =>
    have hbids : updateFirst (·.isOf (ρ.participation request.participation) request.product)
        ((request.renumber ρ).revise now) (book.bids.map (·.renumber ρ)) =
          (updateFirst (·.isOf request.participation request.product) (request.revise now)
            book.bids).map (·.renumber ρ) := by
      refine updateFirst_map _ ?_ ?_ _
      · exact fun b => b.isOf_renumber inj _ _
      · exact fun _ => rfl
    exact .ok ⟨rfl, rfl, congrArg (fun bids => { book.renumber ρ with bids }) hbids⟩
  | none =>
    rw [Option.map_none]
    dsimp only
    rw [hlimit]
    refine .bind_same fun _ => .ok ?_
    have hnew : (request.renumber ρ).newBid ⟨counters'.bid⟩ now =
        (request.newBid ⟨counters.bid⟩ now).renumber ρ := by
      rw [← next]
      rfl
    have hbids : book.bids.map (·.renumber ρ) ++ [(request.renumber ρ).newBid ⟨counters'.bid⟩ now] =
        (book.bids ++ [request.newBid ⟨counters.bid⟩ now]).map (·.renumber ρ) := by
      rw [List.map_append, hnew]
      rfl
    exact ⟨hnew, rfl, congrArg (fun bids => { book.renumber ρ with bids }) hbids⟩

/-! ## The list -/

theorem itemsToBuy_renumber (run : RunId) (totals : List (ProductId × Quantity))
    {counters counters' : Counters}
    (alike : DrawAlike ρ.item id counters.item counters'.item totals.length) :
    (itemsToBuy run totals counters').1 =
      (itemsToBuy run totals counters).1.map (·.renumber ρ) := by
  induction totals generalizing counters counters' with
  | nil => rfl
  | cons entry rest ih =>
    obtain ⟨product, total⟩ := entry
    have hrest : DrawAlike ρ.item id counters.drawItem.2.item counters'.drawItem.2.item
        rest.length := by
      rw [List.length_cons, Nat.add_comm] at alike
      exact alike.after
    have hnext : ρ.item ⟨counters.item⟩ = ⟨counters'.item⟩ := alike.first (Nat.succ_pos _)
    have hfirst : ShoppingItem.toBuy ⟨counters'.item⟩ run product total =
        (ShoppingItem.toBuy ⟨counters.item⟩ run product total).renumber ρ := by
      rw [← hnext]
      rfl
    have hcons := congrArg₂ List.cons hfirst (ih hrest)
    exact hcons

theorem drawUpList_renumber (fixes : ρ.Fixes book) (counters counters' : Counters) :
    Agree (fun done done' => done'.1.run = done.1.run ∧
        Draws ρ.item book.bids.length counters.item counters'.item done.2.item done'.2.item
          (done'.1 = done.1.renumber ρ))
      (book.drawUpList counters) (book.drawUpList counters') := by
  refine .ite (fun _ => .ok ⟨rfl, ?_⟩) fun _ => .error _
  let positive := book.demands.filter fun entry => 0 < entry.2
  have hdraws (counters : Counters) : (itemsToBuy book.run.id positive counters).2.item =
      followingNumber^[positive.length] counters.item :=
    congrArg Counters.item (itemsToBuy_enters ..).2
  refine ⟨positive.length, Nat.le_trans (List.length_filter_le ..) book.length_demands_le,
    hdraws counters, hdraws counters', fun alike => ?_⟩
  have hbook := congrArg (fun kept : OrderBook => { kept with
    items := (itemsToBuy book.run.id positive counters).1.map (ShoppingItem.renumber ρ) })
      fixes.renumber
  refine Eq.trans ?_ hbook.symm
  exact congrArg (fun items => { book with items }) (itemsToBuy_renumber _ _ alike)

/-! ## Handing out -/

theorem prorate_renumber (bought : Purchase) (requested remaining : Quantity) (bids : List Bid) :
    prorate bought requested remaining (bids.map (·.renumber ρ)) =
      (prorate bought requested remaining bids).map (·.renumber ρ) := by
  induction bids generalizing remaining with
  | nil => rfl
  | cons b rest ih =>
    have hlast : (rest.map (·.renumber ρ)).any (·.countsFor bought.product) =
        rest.any (·.countsFor bought.product) := by
      rw [List.any_map]
      rfl
    rw [List.map_cons]
    unfold prorate
    rw [hlast, Bid.countsFor_renumber]
    cases b.countsFor bought.product with
    | true => exact congrArg (List.cons _) (ih _)
    | false => exact congrArg (List.cons _) (ih _)

theorem fulfil_renumber (bought : Purchase) (bids : List Bid) :
    fulfil bought (bids.map (·.renumber ρ)) = (fulfil bought bids).map (·.renumber ρ) := by
  unfold fulfil
  rw [List.map_map, List.map_map]
  refine List.map_congr_left fun b _ => ?_
  rw [Function.comp_apply, Function.comp_apply, Bid.countsFor_renumber]
  cases b.countsFor bought.product <;> rfl

theorem grantSurplus_renumber (inj : Function.Injective ρ.participation)
    (leader : ParticipationId) (product : ProductId) (surplus : Quantity) (now : Instant)
    (bids : List Bid) {counters counters' : Counters}
    (next : bids.any (·.isOf leader product) = false → ρ.bid ⟨counters.bid⟩ = ⟨counters'.bid⟩) :
    (grantSurplus (ρ.participation leader) product surplus now (bids.map (·.renumber ρ))
        counters').1 =
      (grantSurplus leader product surplus now bids counters).1.map (·.renumber ρ) := by
  unfold grantSurplus
  rw [any_isOf_renumber inj]
  split
  · refine updateFirst_map _ ?_ ?_ _
    · exact fun b => b.isOf_renumber inj _ _
    · exact fun _ => rfl
  · rename_i hnone
    have hnew : Bid.forSurplus ⟨counters'.bid⟩ (ρ.participation leader) product surplus now =
        (Bid.forSurplus ⟨counters.bid⟩ leader product surplus now).renumber ρ := by
      rw [← next (Bool.eq_false_of_not_eq_true hnone)]
      rfl
    show bids.map (·.renumber ρ) ++ _ = (bids ++ _).map (·.renumber ρ)
    rw [List.map_append]
    exact congrArg (bids.map (·.renumber ρ) ++ [·]) hnew

theorem setRequested_renumber (book : OrderBook) (product : ProductId) (requested : Quantity) :
    (book.renumber ρ).setRequested product requested =
      (book.setRequested product requested).renumber ρ := by
  let set (item : ShoppingItem) := { item with requestedQuantity := requested }
  have hitems : updateFirst (·.product = product) set (book.items.map (·.renumber ρ)) =
      (updateFirst (·.product = product) set book.items).map (·.renumber ρ) := by
    refine updateFirst_map _ ?_ ?_ _
    · exact fun _ => rfl
    · exact fun _ => rfl
  exact congrArg (fun items => { book.renumber ρ with items }) hitems

/-- Whether splitting the purchase enters a bid for the leader. -/
def isNewToLeader (book : OrderBook) (leader : ParticipationId) (bought : Purchase) : Bool :=
  0 < bought.quantity - book.demand bought.product &&
    !book.bids.any (·.isOf leader bought.product)

theorem isNewToLeader_renumber (inj : Function.Injective ρ.participation)
    (leader : ParticipationId) (bought : Purchase) :
    (book.renumber ρ).isNewToLeader (ρ.participation leader) bought =
      book.isNewToLeader leader bought := by
  have hany := any_isOf_renumber inj book.bids leader bought.product
  unfold isNewToLeader
  rw [demand_renumber]
  exact congrArg (fun known => decide _ && !known) hany

theorem handOutProduct_draws (leader : ParticipationId) (now : Instant) (bought : Purchase)
    (book : OrderBook) (counters : Counters) :
    (handOutProduct leader now bought book counters).2.2.bid =
      followingNumber^[(book.isNewToLeader leader bought).toNat] counters.bid := by
  unfold handOutProduct isNewToLeader grantSurplus
  dsimp only
  split
  · rename_i hless
    have hnone : ¬ 0 < bought.quantity - book.demand bought.product := by
      simp only [Quantity.lt_def, Quantity.hundredths_sub, Quantity.hundredths_zero] at hless ⊢
      omega
    rw [decide_eq_false hnone]
    rfl
  · split
    · rename_i hmore
      rw [decide_eq_true hmore]
      cases book.bids.any (·.isOf leader bought.product) <;> rfl
    · rename_i hnone
      rw [decide_eq_false hnone]
      rfl

theorem handOutProduct_renumber (inj : Function.Injective ρ.participation)
    (leader : ParticipationId) (now : Instant) (bought : Purchase) (book : OrderBook)
    {counters counters' : Counters}
    (next : book.isNewToLeader leader bought = true → ρ.bid ⟨counters.bid⟩ = ⟨counters'.bid⟩) :
    (handOutProduct (ρ.participation leader) now bought (book.renumber ρ) counters').1 =
        (handOutProduct leader now bought book counters).1 ∧
      (handOutProduct (ρ.participation leader) now bought (book.renumber ρ) counters').2.1 =
        (handOutProduct leader now bought book counters).2.1.renumber ρ := by
  unfold isNewToLeader at next
  unfold handOutProduct
  dsimp only
  rw [demand_renumber]
  split
  · refine ⟨rfl, ?_⟩
    have hset := fun bids => setRequested_renumber (ρ := ρ) { book with bids } bought.product
      (book.demand bought.product)
    rw [← hset]
    exact congrArg (fun bids => { book.renumber ρ with bids }.setRequested bought.product
      (book.demand bought.product)) (prorate_renumber ..)
  · split
    · rename_i hmore
      refine ⟨rfl, ?_⟩
      have hgrants : (grantSurplus (ρ.participation leader) bought.product
          (bought.quantity - book.demand bought.product) now (book.renumber ρ).bids counters').1 =
            (grantSurplus leader bought.product (bought.quantity - book.demand bought.product) now
              book.bids counters).1.map (·.renumber ρ) := by
        refine grantSurplus_renumber inj _ _ _ _ _ fun hnone => next ?_
        rw [decide_eq_true hmore, hnone]
        rfl
      have hset := fun bids => setRequested_renumber (ρ := ρ) { book with bids } bought.product
        bought.quantity
      dsimp only
      rw [← hset, hgrants]
      exact congrArg (fun bids => { book.renumber ρ with bids }.setRequested bought.product
        bought.quantity) (fulfil_renumber ..)
    · refine ⟨rfl, ?_⟩
      exact congrArg (fun bids => { book.renumber ρ with bids }) (fulfil_renumber bought book.bids)

theorem handOutAll_renumber (leader : ParticipationId) (now : Instant) (purchases : List Purchase)
    (book : OrderBook) (counters : Counters) :
    ∃ count ≤ purchases.length,
      (handOutAll leader now purchases book counters).2.2.bid =
        followingNumber^[count] counters.bid ∧
      ∀ (ρ ρ' : Renumbering) {leader' : ParticipationId} {book' : OrderBook} {counters' : Counters},
        Function.Injective ρ.participation → Function.Injective ρ'.participation →
        ρ'.participation leader' = ρ.participation leader → book'.renumber ρ' = book.renumber ρ →
        DrawAlike ρ.bid ρ'.bid counters.bid counters'.bid count →
        (handOutAll leader' now purchases book' counters').1 =
            (handOutAll leader now purchases book counters).1 ∧
          (handOutAll leader' now purchases book' counters').2.1.renumber ρ' =
            (handOutAll leader now purchases book counters).2.1.renumber ρ ∧
          (handOutAll leader' now purchases book' counters').2.2.bid =
            followingNumber^[count] counters'.bid := by
  induction purchases generalizing book counters with
  | nil => exact ⟨0, Nat.le_refl _, rfl, fun _ _ _ _ _ _ _ _ hbook _ => ⟨rfl, hbook, rfl⟩⟩
  | cons bought rest ih =>
    obtain ⟨count, hcount, hcounters, hrest⟩ :=
      ih (handOutProduct leader now bought book counters).2.1
        (handOutProduct leader now bought book counters).2.2
    have hfew : (book.isNewToLeader leader bought).toNat ≤ 1 := Bool.toNat_le _
    refine ⟨(book.isNewToLeader leader bought).toNat + count, ?_, ?_, ?_⟩
    · rw [List.length_cons]
      omega
    · rw [handOutAll_cons]
      dsimp only
      rw [hcounters, handOutProduct_draws, Nat.add_comm, Function.iterate_add_apply]
    · intro ρ ρ' leader' book' counters' inj inj' hleader hbook alike
      have hnew : book'.isNewToLeader leader' bought = book.isNewToLeader leader bought := by
        rw [← isNewToLeader_renumber inj', hleader, hbook, isNewToLeader_renumber inj]
      -- Both sides are handed out like one book with the number that they draw alike.
      obtain ⟨m, hm⟩ : ∃ m : Counters, ρ.bid ⟨counters.bid⟩ = ⟨m.bid⟩ :=
        ⟨{ counters with bid := (ρ.bid ⟨counters.bid⟩).number }, rfl⟩
      have hm' : book'.isNewToLeader leader' bought = true → ρ'.bid ⟨counters'.bid⟩ = ⟨m.bid⟩ := by
        intro hnew'
        rw [← hm]
        refine (alike.first ?_).symm
        rw [← hnew, hnew']
        exact Nat.lt_add_right _ Nat.one_pos
      obtain ⟨hallocation, hfirst⟩ := handOutProduct_renumber inj leader now bought book fun _ => hm
      obtain ⟨hallocation', hfirst'⟩ := handOutProduct_renumber inj' leader' now bought book' hm'
      rw [hleader, hbook] at hallocation' hfirst'
      have hbetween : DrawAlike ρ.bid ρ'.bid
          (handOutProduct leader now bought book counters).2.2.bid
          (handOutProduct leader' now bought book' counters').2.2.bid count := by
        rw [handOutProduct_draws, handOutProduct_draws, hnew]
        exact alike.after
      obtain ⟨hallocations, hlast, hcounters'⟩ :=
        hrest ρ ρ' inj inj' hleader (hfirst'.symm.trans hfirst) hbetween
      rw [handOutAll_cons, handOutAll_cons]
      refine ⟨?_, hlast, ?_⟩
      · exact congrArg₂ List.cons (hallocation'.symm.trans hallocation) hallocations
      · dsimp only
        rw [hcounters', handOutProduct_draws, hnew, Nat.add_comm, Function.iterate_add_apply]

theorem handOut_renumber (inj : Function.Injective ρ.participation) (fixes : ρ.Fixes book)
    (now : Instant) (counters counters' : Counters) :
    Agree (fun done done' => done'.1 = done.1 ∧ done'.2.1.run = done.2.1.run ∧
        Draws ρ.bid book.items.length counters.bid counters'.bid done.2.2.bid done'.2.2.bid
          (done'.2.1 = done.2.1.renumber ρ))
      (book.handOut now counters) (book.handOut now counters') := by
  unfold handOut
  cases hleader : book.leader? with
  | none => exact .error _
  | some leader =>
    obtain ⟨count, hcount, hcounters, halike⟩ :=
      handOutAll_renumber leader.id now book.purchases book counters
    have hblank : DrawAlike Renumbering.blank.bid Renumbering.blank.bid counters.bid counters'.bid
        count := fun _ _ => rfl
    obtain ⟨hallocations, hbooks, hcounters'⟩ := halike .blank .blank Function.injective_id
      Function.injective_id rfl rfl hblank
    have hrun := congrArg OrderBook.run hbooks
    refine .ok ⟨hallocations, hrun, count, ?_, hcounters, hcounters', fun alike => ?_⟩
    · exact Nat.le_trans hcount (List.length_filterMap_le ..)
    · have hmem : leader ∈ book.participations := List.mem_of_find?_eq_some hleader
      have hbook : book.renumber .same = book.renumber ρ := by rw [renumber_same, fixes.renumber]
      have hlast := (halike ρ .same inj Function.injective_id
        (fixes.participations leader hmem).symm hbook alike).2.1
      rw [renumber_same] at hlast
      exact hlast

end OrderBook

end BuyingClub
