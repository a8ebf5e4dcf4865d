import BuyingClub.Proofs.MemberBids
import BuyingClub.Proofs.OrderBook.Wishes
import BuyingClub.Proofs.Pickup

/-!
# Bids by different people

While a run is planned or active, people can ask for things in any order. Each bid is placed, and in
the end the same is asked for by the same people.
-/

namespace BuyingClub

/-- What someone asks for, as it comes to the desk. -/
structure Tender where
  user : UserId
  product : ProductId
  value : Binary64
  interestedOnly : Bool
  comment : Option String

namespace Tender

def command (t : Tender) : Command :=
  ⟨t.user, .placeBid t.product t.value t.interestedOnly t.comment⟩

def turn (run : RunId) (t : Tender) (now : Instant) : Desk.Turn := .handle run t.command now

/-- One after the other, each at its time. -/
def turns (run : RunId) (order : List (Tender × Instant)) : List Desk.Turn :=
  order.map fun (t, now) => t.turn run now

/-- The wish that a valid one comes to. -/
def wish (limits : Limits) (t : Tender) : Wish where
  user := some t.user
  product := t.product
  quantity := (limits.readBid t.value).toOption.getD 0
  interestedOnly := t.interestedOnly
  comment := t.comment

end Tender

namespace OrderBook

/-- Whether these bids make a planned run active: one of them is not the leader's. -/
def isStartedBy (book : OrderBook) (tenders : List Tender) : Bool :=
  book.run.stage = .planning && tenders.any fun t => !book.leader?.any (·.user = t.user)

/-- Each of these bids can be placed, in whatever order they come. -/
structure CanTake (limits : Limits) (book : OrderBook) (tenders : List Tender) : Prop where
  collects : book.run.stage = .planning ∨ book.run.stage = .active
  reads : ∀ t ∈ tenders, ∃ quantity, limits.readBid t.value = .ok quantity
  distinct : (tenders.map fun t => (t.user, t.product)).Nodup
  members : (book.users ++ tenders.map (·.user)).dedup.length ≤ limits.maxMembers
  products : (book.products ++ tenders.map (·.product)).dedup.length ≤ limits.maxProducts

/-- What has become of a book when each of these bids was placed. -/
structure HasTaken (limits : Limits) (book : OrderBook) (tenders : List Tender)
    (later : OrderBook) : Prop where
  group : later.run.group = book.run.group
  version : later.run.version = book.run.version + tenders.length
  stage : later.run.stage = if book.isStartedBy tenders then .active else book.run.stage
  stages : later.run.history.map (·.stage) =
    book.run.history.map (·.stage) ++ if book.isStartedBy tenders then [.active] else []
  leads : ∀ user, later.leader?.any (·.user = user) = book.leader?.any (·.user = user)
  users : ∀ user, user ∈ later.users ↔ user ∈ book.users ∨ user ∈ tenders.map (·.user)
  wishes : later.wishes.Perm (tenders.map (·.wish limits) ++
    book.wishes.filter fun w => w.key ∉ tenders.map fun t => (t.wish limits).key)

end OrderBook

/-! ## One bid -/

namespace OrderBook

variable {limits : Limits} {book : OrderBook}

theorem checkBid_of_readBid {value : Binary64} {quantity : Quantity}
    (reads : limits.readBid value = .ok quantity) : limits.checkBid quantity = .ok () := by
  obtain ⟨_, _, h⟩ := bind_eq_ok_iff.mp reads
  obtain ⟨_, checks, h⟩ := bind_eq_ok_iff.mp h
  cases h
  exact checks

theorem placeBid_asks {request : BidRequest} {now : Instant} {counters : Counters}
    {placed : PlacedBid} (places : book.placeBid limits request now counters = .ok placed) :
    (placed.bid.participation, placed.bid.product, placed.bid.asks) =
      (request.participation, request.product, request.quantity, request.interestedOnly,
        request.comment) := by
  rcases (placeBid_eq_ok_iff.mp places).2 with ⟨previous, finds, rfl⟩ | ⟨_, _, rfl⟩
  · obtain ⟨hparticipation, hproduct⟩ := isOf_of_bidOf? finds
    exact Prod.ext hparticipation (Prod.ext hproduct rfl)
  · rfl

end OrderBook

namespace Draft

variable {limits : Limits} {d after : Draft} {user : UserId} {product : ProductId}
  {value : Binary64} {interestedOnly : Bool} {comment : Option String} {reply : Reply}

theorem exists_bidPlaced {quantity : Quantity}
    (collects : d.stage = .planning ∨ d.stage = .active)
    (reads : limits.readBid value = .ok quantity)
    (hasRoom : user ∈ d.book.users ∨ d.book.users.length < limits.maxMembers)
    (hasPlace : product ∈ d.book.products ∨ d.book.products.length < limits.maxProducts) :
    ∃ after reply, d.Outcome limits user (.placeBid product value interestedOnly comment) after
      reply := by
  have isOpen : d.stage.isOpen = true := by
    rcases collects with hstage | hstage <;> rw [hstage] <;> rfl
  have takesNewcomers : d.stage ≠ .adjusting := by
    rcases collects with hstage | hstage <;> rw [hstage] <;> decide
  obtain ⟨participation, admitted, admits⟩ : ∃ participation admitted,
      d.Admits limits user value participation quantity admitted := by
    cases hfound : d.book.participationOf? user with
    | some p => exact ⟨p.id, d, .participant isOpen reads hfound⟩
    | none =>
      have hunknown : user ∉ d.book.users := by
        intro huser
        obtain ⟨p, hp, rfl⟩ := List.mem_map.mp huser
        obtain ⟨hmem, hactive⟩ := List.mem_filter.mp hp
        exact List.find?_eq_none.mp hfound p hmem (by simpa using hactive)
      have hfits := hasRoom.resolve_left hunknown
      rw [OrderBook.users, List.length_map] at hfits
      exact ⟨_, _, .newcomer isOpen reads hfound takesNewcomers hfits⟩
  have hproducts : admitted.book.products = d.book.products := by
    rw [OrderBook.products, admits.frame.2.1]
    rfl
  have hlimit : admitted.book.checkNewProduct limits product = .ok () := by
    rw [OrderBook.checkNewProduct_eq_ok_iff, hproducts]
    exact hasPlace
  have hquantity := OrderBook.checkBid_of_readBid reads
  obtain ⟨placed, places⟩ : ∃ placed, admitted.book.placeBid limits
      ⟨participation, product, quantity, interestedOnly, comment⟩ d.now admitted.counters =
        .ok placed := by
    cases hfound : admitted.book.bidOf? participation product with
    | some previous =>
      exact ⟨_, OrderBook.placeBid_eq_ok_iff.mpr ⟨hquantity, .inl ⟨previous, hfound, rfl⟩⟩⟩
    | none => exact ⟨_, OrderBook.placeBid_eq_ok_iff.mpr ⟨hquantity, .inr ⟨hfound, hlimit, rfl⟩⟩⟩
  have hstays : d.stage = .adjusting → admitted.book.checkChange participation product quantity
      interestedOnly = .ok () := fun hstage => absurd hstage takesNewcomers
  exact ⟨_, _, .bidPlaced admits hstays places rfl⟩

theorem movedIf_stages (c : Bool) (new : Stage) :
    (d.movedIf c new).book.run.history.map (·.stage) =
      d.book.run.history.map (·.stage) ++ if c then [new] else [] := by
  cases c <;> simp [movedIf, Run.enter]

theorem Admits.mem_users_iff {participation : ParticipationId} {quantity : Quantity}
    {admitted : Draft} (h : d.Admits limits user value participation quantity admitted)
    (someone : UserId) :
    someone ∈ admitted.book.participations.map (·.user) ↔
      someone ∈ d.book.participations.map (·.user) ∨ someone = user := by
  cases h with
  | participant isOpen reads finds =>
    obtain ⟨p, hp, huser, _⟩ := holds_of_participationOf? finds
    constructor
    · exact .inl
    · rintro (hmem | rfl)
      · exact hmem
      · exact List.mem_map.mpr ⟨p, hp, huser⟩
  | newcomer => simp [joined, Participation.join]

theorem Outcome.hasTaken {t : Tender}
    (h : d.Outcome limits t.user (.placeBid t.product t.value t.interestedOnly t.comment) after
      reply) (loaded : d.loadedVersion = d.book.run.version) (tidy : d.book.IsTidy)
    (distinct : (after.book.participations.map (·.id)).Nodup) :
    d.book.HasTaken limits [t] after.book := by
  have htidy := h.isTidy tidy
  have hleads := h.leader?_any
  have hgroup := h.follows.group
  have hversion : after.book.run.version = d.book.run.version + 1 := by rw [h.version, loaded]
  have hknown : ∀ b ∈ d.book.bids, after.book.wishOf b = d.book.wishOf b := by
    intro b hb
    have huser := h.gathers.map_participation? rfl (tidy.bidders b hb) (·.user) fun _ _ _ => rfl
    unfold OrderBook.wishOf OrderBook.bidder?
    rw [huser]
  cases h with
  | @bidPlaced _ _ _ _ participation quantity admitted _ placed admits fits places moves =>
    have hparticipations : after.book.participations = admitted.book.participations := by
      rw [moves, movedIf_participations]
      exact (OrderBook.placeBid_frame places).2.1
    have hbids : after.book.bids = placed.book.bids := by
      rw [moves, movedIf_bids]
      rfl
    obtain ⟨p, hp, huser, rfl⟩ := admits.holds
    rw [← hparticipations] at hp
    have hbyLeader : ((admitted.bidPlaced t.user t.product placed).book.participation? p.id).any
        (·.isLeader) = d.book.leader?.any (·.user = t.user) := by
      have hplaced : (admitted.bidPlaced t.user t.product placed).book.participations =
          after.book.participations := by
        rw [moves, movedIf_participations]
      unfold OrderBook.participation?
      rw [hplaced, ← hleads, ← huser]
      exact htidy.any_isLeader distinct hp
    have hstarts : (d.stage = .planning && !((admitted.bidPlaced t.user t.product
        placed).book.participation? p.id).any (·.isLeader)) = d.book.isStartedBy [t] := by
      rw [hbyLeader]
      simp only [OrderBook.isStartedBy, List.any_cons, List.any_nil, Bool.or_false]
      rfl
    rw [hstarts] at moves
    obtain ⟨hparticipation, hrest⟩ := Prod.mk.inj (OrderBook.placeBid_asks places)
    obtain ⟨hproduct, hasks⟩ := Prod.mk.inj hrest
    refine {
      group := hgroup
      version := hversion
      stage := ?_
      stages := ?_
      leads := hleads
      users := ?_
      wishes := ?_ }
    · rw [moves, ← stage, movedIf_stage, stage_bidPlaced admits places]
      rfl
    · rw [moves, movedIf_stages]
      show placed.book.run.history.map (·.stage) ++ _ = _
      rw [(admits.frame_placed places).1]
    · intro someone
      rw [htidy.users_eq, tidy.users_eq, hparticipations, admits.mem_users_iff]
      simp
    · have hperm := OrderBook.placeBid_perm (by rw [admits.frame.2.1]; exact tidy.oneBidEach) places
      rw [← hbids, admits.frame.2.1] at hperm
      have hwishes := OrderBook.wishes_of_perm htidy distinct hp hknown hperm
      have hwish : after.book.wishOf placed.bid = t.wish limits := by
        obtain ⟨hquantity, hrest⟩ := Prod.mk.inj hasks
        obtain ⟨hinterested, hcomment⟩ := Prod.mk.inj hrest
        unfold OrderBook.wishOf OrderBook.bidder? Tender.wish
        rw [hparticipation, OrderBook.participation?_of_mem distinct hp, Option.map_some, huser,
          hproduct, hquantity, hinterested, hcomment, admits.reads]
        rfl
      have hkey : (t.wish limits).key = (some p.user, t.product) := by
        rw [huser]
        rfl
      simpa [hwish, hkey] using hwishes

end Draft

/-! ## One bid after the other -/

theorem length_lt_of_dedup_le {α : Type} [DecidableEq α] {xs more : List α} {x : α} {most : Nat}
    (distinct : xs.Nodup) (new : x ∉ xs) (few : (xs ++ x :: more).dedup.length ≤ most) :
    xs.length < most := by
  have hsub : x :: xs ⊆ (xs ++ x :: more).dedup := by
    intro y hy
    rw [List.mem_dedup]
    rcases List.mem_cons.mp hy with rfl | hy <;> simp [*]
  have hlength := ((List.nodup_cons.mpr ⟨new, distinct⟩).subperm hsub).length_le
  rw [List.length_cons] at hlength
  omega

theorem length_dedup_le {α : Type} [DecidableEq α] {xs ys : List α} (h : xs ⊆ ys) :
    xs.dedup.length ≤ ys.dedup.length := by
  refine (xs.nodup_dedup.subperm fun x hx => ?_).length_le
  rw [List.mem_dedup] at hx ⊢
  exact h hx

namespace OrderBook

variable {limits : Limits} {book between later : OrderBook} {t : Tender} {rest : List Tender}

theorem isStartedBy_cons :
    book.isStartedBy (t :: rest) = (book.isStartedBy [t] || book.isStartedBy rest) := by
  simp only [isStartedBy, List.any_cons, List.any_nil, Bool.or_false, Bool.and_or_distrib_left]

theorem mem_products_iff_wishes {product : ProductId} :
    product ∈ book.products ↔ product ∈ book.wishes.map (·.product) := by
  rw [mem_products_iff, wishes, List.map_map]
  rfl

namespace HasTaken

theorem none (limits : Limits) (book : OrderBook) : book.HasTaken limits [] book where
  group := rfl
  version := rfl
  stage := by simp [isStartedBy]
  stages := by simp [isStartedBy]
  leads _ := rfl
  users _ := by simp
  wishes := by simp

theorem isStartedBy_eq (h : book.HasTaken limits [t] between) :
    between.isStartedBy rest = (!book.isStartedBy [t] && book.isStartedBy rest) := by
  have hstage := h.stage
  unfold isStartedBy at hstage ⊢
  simp only [h.leads]
  cases hstarts : (decide (book.run.stage = .planning) &&
      [t].any fun t => !book.leader?.any (·.user = t.user)) with
  | true =>
    rw [hstarts, if_pos rfl] at hstage
    simp [hstage]
  | false =>
    rw [hstarts] at hstage
    simp [hstage]

theorem cons (first : book.HasTaken limits [t] between)
    (others : between.HasTaken limits rest later)
    (distinct : ((t :: rest).map fun t => (t.user, t.product)).Nodup) :
    book.HasTaken limits (t :: rest) later where
  group := others.group.trans first.group
  version := by
    rw [others.version, first.version]
    simp only [List.length_cons, List.length_nil]
    omega
  stage := by
    have hcons : book.isStartedBy (t :: rest) = _ := isStartedBy_cons
    rw [others.stage, first.isStartedBy_eq, first.stage, hcons]
    cases book.isStartedBy [t] <;> simp
  stages := by
    have hcons : book.isStartedBy (t :: rest) = _ := isStartedBy_cons
    rw [others.stages, first.isStartedBy_eq, first.stages, hcons]
    cases book.isStartedBy [t] <;> simp
  leads user := (others.leads user).trans (first.leads user)
  users user := by
    rw [others.users, first.users]
    simp [or_assoc]
  wishes := by
    have hfresh : (t.wish limits).key ∉ rest.map fun t => (t.wish limits).key := by
      have hnew := (List.nodup_cons.mp distinct).1
      simpa [Wish.key, Tender.wish] using hnew
    have hkept := first.wishes.filter fun w => w.key ∉ rest.map fun t => (t.wish limits).key
    rw [List.filter_append, List.map_singleton, List.filter_cons_of_pos (by simpa using hfresh),
      List.filter_nil, List.filter_filter] at hkept
    have hothers : (book.wishes.filter fun w =>
        decide (w.key ∉ rest.map fun t => (t.wish limits).key) &&
          decide (w.key ∉ [t].map fun t => (t.wish limits).key)) =
        book.wishes.filter fun w => w.key ∉ (t :: rest).map fun t => (t.wish limits).key := by
      refine List.filter_congr fun w _ => ?_
      simp [Bool.and_comm]
    rw [hothers] at hkept
    exact others.wishes.trans ((hkept.append_left _).trans List.perm_middle)

end HasTaken

namespace CanTake

theorem hasRoom (h : book.CanTake limits (t :: rest)) (tidy : book.IsTidy) :
    t.user ∈ book.users ∨ book.users.length < limits.maxMembers := by
  by_cases hmem : t.user ∈ book.users
  · exact .inl hmem
  · exact .inr (length_lt_of_dedup_le tidy.nodup_users hmem h.members)

theorem hasPlace (h : book.CanTake limits (t :: rest)) :
    t.product ∈ book.products ∨ book.products.length < limits.maxProducts := by
  by_cases hmem : t.product ∈ book.products
  · exact .inl hmem
  · exact .inr (length_lt_of_dedup_le book.nodup_products hmem h.products)

theorem tail (h : book.CanTake limits (t :: rest)) (first : book.HasTaken limits [t] between) :
    between.CanTake limits rest where
  collects := by
    rw [first.stage]
    split
    · exact .inr rfl
    · exact h.collects
  reads := (List.forall_mem_cons.mp h.reads).2
  distinct := (List.nodup_cons.mp h.distinct).2
  members := by
    refine Nat.le_trans (length_dedup_le fun user huser => ?_) h.members
    rcases List.mem_append.mp huser with huser | huser
    · rcases (first.users user).mp huser with huser | huser
      · exact List.mem_append_left _ huser
      · rw [List.mem_singleton.mp huser]
        simp
    · exact List.mem_append_right _ (List.mem_cons_of_mem _ huser)
  products := by
    refine Nat.le_trans (length_dedup_le fun product hproduct => ?_) h.products
    rcases List.mem_append.mp hproduct with hproduct | hproduct
    · rw [mem_products_iff_wishes, (first.wishes.map _).mem_iff] at hproduct
      rw [List.map_append] at hproduct
      rcases List.mem_append.mp hproduct with hproduct | hproduct
      · rw [List.mem_singleton.mp hproduct]
        simp [Tender.wish]
      · have hold := (List.filter_sublist.map _).subset hproduct
        exact List.mem_append_left _ (mem_products_iff_wishes.mpr hold)
    · exact List.mem_append_right _ (List.mem_cons_of_mem _ hproduct)

end CanTake

end OrderBook

namespace Desk

variable {terms : Terms} {desk : Desk} {run : RunId} {book : OrderBook}

theorem take_tender {t : Tender} {rest : List Tender} {now : Instant}
    (undisturbed : desk.IsUndisturbed) (cover : desk.counters.Cover desk.repository.store)
    (finds : desk.repository.store.find? run = some book)
    (canTake : book.CanTake terms.limits (t :: rest))
    (isMember : terms.directory.isMember book.run.group t.user = true)
    (rises : desk.counters ≤ (desk.take terms (t.turn run now)).counters) :
    desk.served? terms (t.turn run now) = some run ∧
      (desk.take terms (t.turn run now)).IsUndisturbed ∧
      (desk.take terms (t.turn run now)).counters.Cover
        (desk.take terms (t.turn run now)).repository.store ∧
      ∃ later, (desk.take terms (t.turn run now)).repository.store.find? run = some later ∧
        book.HasTaken terms.limits [t] later := by
  have htidy := cover.tidy book (Store.mem_of_find? finds)
  obtain ⟨quantity, reads⟩ := canTake.reads t List.mem_cons_self
  obtain ⟨d, reply, houtcome⟩ : ∃ d reply, (Draft.ofBook book desk.counters now).Outcome
      terms.limits t.command.user t.command.action d reply :=
    Draft.exists_bidPlaced canTake.collects reads (canTake.hasRoom htidy) canTake.hasPlace
  obtain ⟨after, hhandle, hrepository⟩ := handle_ofStore desk.journal finds isMember houtcome
  rw [← undisturbed.eq_ofStore] at hhandle
  have htake : desk.take terms (t.turn run now) = after := congrArg Prod.snd hhandle
  have hserved : desk.served? terms (t.turn run now) = some run := by
    simp only [served?, Tender.turn, hhandle]
    rfl
  have hunraced : desk.repository.IsUnraced := by
    rw [undisturbed.eq_ofStore]
    exact Repository.isUnraced_ofStore _
  have hcover := (take_took terms hunraced (t.turn run now)).2.cover (.inr rises) cover
  have hfinds : after.repository.store.find? run = some d.book := by
    rw [hrepository]
    exact find?_stored houtcome finds
  rw [htake] at hcover ⊢
  have hdistinct := (hcover.participations.each d.book (Store.mem_of_find? hfinds)).nodup
  refine ⟨hserved, ?_, hcover, d.book, hfinds, ?_⟩
  · rw [IsUndisturbed, hrepository]
    exact ⟨rfl, rfl⟩
  · have htaken := houtcome.hasTaken rfl htidy hdistinct
    exact htaken

theorem takeAll_tenders {order : List (Tender × Instant)} (undisturbed : desk.IsUndisturbed)
    (cover : desk.counters.Cover desk.repository.store)
    (finds : desk.repository.store.find? run = some book)
    (canTake : book.CanTake terms.limits (order.map (·.1)))
    (members : ∀ t ∈ order, terms.directory.isMember book.run.group t.1.user = true)
    (lasts : desk.Lasts ((Tender.turns run order).map (terms, ·))) :
    desk.served terms (Tender.turns run order) = List.replicate order.length run ∧
      ∃ later, (desk.takeAll terms (Tender.turns run order)).repository.store.find? run =
          some later ∧
        later.IsTidy ∧ book.HasTaken terms.limits (order.map (·.1)) later := by
  induction order generalizing desk book with
  | nil =>
    exact ⟨rfl, book, finds, cover.tidy book (Store.mem_of_find? finds), .none terms.limits book⟩
  | cons first rest ih =>
    obtain ⟨t, now⟩ := first
    obtain ⟨hmember, hmembers⟩ := List.forall_mem_cons.mp members
    obtain ⟨hrises, hlasts⟩ := lasts
    obtain ⟨hserved, hundisturbed, hcover, between, hfinds, htaken⟩ :=
      take_tender undisturbed cover finds canTake hmember (hrises.resolve_left nofun)
    have hgroup : ∀ t ∈ rest, terms.directory.isMember between.run.group t.1.user = true := by
      rw [htaken.group]
      exact hmembers
    obtain ⟨hrest, later, hlater, htidy, hothers⟩ :=
      ih hundisturbed hcover hfinds (canTake.tail htaken) hgroup hlasts
    refine ⟨?_, later, hlater, htidy, htaken.cons hothers canTake.distinct⟩
    show (desk.served? terms (t.turn run now)).toList ++
      (desk.take terms (t.turn run now)).served terms (Tender.turns run rest) = _
    rw [hserved, hrest]
    rfl

end Desk

/-! ## In any order -/

namespace OrderBook

variable {limits : Limits} {book left right : OrderBook} {tenders others : List Tender}

theorem CanTake.perm (h : book.CanTake limits tenders) (perm : tenders.Perm others) :
    book.CanTake limits others where
  collects := h.collects
  reads t ht := h.reads t (perm.mem_iff.mpr ht)
  distinct := (perm.map _).nodup_iff.mp h.distinct
  members := by
    rw [← (((perm.map _).append_left _).dedup).length_eq]
    exact h.members
  products := by
    rw [← (((perm.map _).append_left _).dedup).length_eq]
    exact h.products

theorem isStartedBy_perm (perm : tenders.Perm others) :
    book.isStartedBy tenders = book.isStartedBy others := by
  rw [isStartedBy, isStartedBy, perm.any_eq]

theorem HasTaken.perm_wishes (h : book.HasTaken limits tenders left)
    (h' : book.HasTaken limits others right) (perm : tenders.Perm others) :
    left.wishes.Perm right.wishes := by
  have hsame : (book.wishes.filter fun w => w.key ∉ tenders.map fun t => (t.wish limits).key) =
      book.wishes.filter fun w => w.key ∉ others.map fun t => (t.wish limits).key :=
    List.filter_congr fun w _ => decide_eq_decide.mpr (not_congr (perm.map _).mem_iff)
  have hperm := (perm.map (·.wish limits)).append_right
    (book.wishes.filter fun w => w.key ∉ tenders.map fun t => (t.wish limits).key)
  refine h.wishes.trans (hperm.trans ?_)
  rw [hsame]
  exact h'.wishes.symm

theorem HasTaken.perm_users (h : book.HasTaken limits tenders left)
    (h' : book.HasTaken limits others right) (tidy : left.IsTidy) (tidy' : right.IsTidy)
    (perm : tenders.Perm others) :
    left.users.Perm right.users := by
  refine (List.perm_ext_iff_of_nodup tidy.nodup_users tidy'.nodup_users).mpr fun user => ?_
  rw [h.users, h'.users, (perm.map _).mem_iff]

end OrderBook

/-- Take a planned or active run, and valid bids of members on different products or by different
people that leave room in the run. In whatever order they come and whatever the clock shows, all of
them are placed, and in the end the run is in the same stage and version, came there through the
same stages, has the same totals, and the same people take part in it and ask for the same. -/
theorem bids_commute {steps : List (Terms × Desk.Turn)} {terms : Terms} {run : RunId}
    {book : OrderBook} {order reordered : List (Tender × Instant)}
    (undisturbed : (Desk.opened.takeEach steps).IsUndisturbed)
    (finds : (Desk.opened.takeEach steps).repository.store.find? run = some book)
    (canTake : book.CanTake terms.limits (order.map (·.1)))
    (members : ∀ t ∈ order.map (·.1), terms.directory.isMember book.run.group t.user = true)
    (perm : (order.map (·.1)).Perm (reordered.map (·.1)))
    (lasts : Desk.opened.Lasts (steps ++ (Tender.turns run order).map (terms, ·)))
    (lasts' : Desk.opened.Lasts (steps ++ (Tender.turns run reordered).map (terms, ·))) :
    (Desk.opened.takeEach steps).served terms (Tender.turns run order) =
        List.replicate order.length run ∧
      (Desk.opened.takeEach steps).served terms (Tender.turns run reordered) =
        List.replicate order.length run ∧
      ∃ left right,
        ((Desk.opened.takeEach steps).takeAll terms (Tender.turns run order)).repository.store.find?
          run = some left ∧
        ((Desk.opened.takeEach steps).takeAll terms
          (Tender.turns run reordered)).repository.store.find? run = some right ∧
        left.run.stage = right.run.stage ∧ left.run.version = right.run.version ∧
        left.run.history.map (·.stage) = right.run.history.map (·.stage) ∧
        left.demands = right.demands ∧ left.users.Perm right.users ∧
        left.wishes.Perm right.wishes := by
  obtain ⟨hlasts, hleft⟩ := Desk.lasts_append.mp lasts
  obtain ⟨_, hright⟩ := Desk.lasts_append.mp lasts'
  have hcover := Desk.takeEach_cover (Repository.isUnraced_ofStore _) (.empty _) steps hlasts
  obtain ⟨hserved, left, hfindsLeft, htidy, htaken⟩ := Desk.takeAll_tenders undisturbed hcover finds
    canTake (List.forall_mem_map.mp members) hleft
  obtain ⟨hserved', right, hfindsRight, htidy', htaken'⟩ := Desk.takeAll_tenders undisturbed hcover
    finds (canTake.perm perm) (fun t ht => members t.1 (perm.mem_iff.mpr (List.mem_map_of_mem ht)))
    hright
  have hlength := perm.length_eq
  rw [List.length_map, List.length_map] at hlength
  have hwishes := htaken.perm_wishes htaken' perm
  rw [← hlength] at hserved'
  refine ⟨hserved, hserved', left, right, hfindsLeft, hfindsRight, ?_, ?_, ?_,
    OrderBook.demands_eq_of_perm hwishes, htaken.perm_users htaken' htidy htidy' perm, hwishes⟩
  · rw [htaken.stage, htaken'.stage, OrderBook.isStartedBy_perm perm]
  · rw [htaken.version, htaken'.version, perm.length_eq]
  · rw [htaken.stages, htaken'.stages, OrderBook.isStartedBy_perm perm]

namespace Desk

def createdSteps : List (Terms × Turn) :=
  [(widerTerms, .create ⟨1⟩ ⟨1⟩ ⟨1⟩ (.ofSeconds 0)),
    (widerTerms, tripTurn 1 (.placeBid ⟨1⟩ (.ofInt 4) false none))]

/-- One joins for a product, another one out of interest in it, and the leader has second
thoughts. -/
def threeTenders : List (Tender × Instant) :=
  [(⟨⟨2⟩, ⟨1⟩, .ofInt 2, false, none⟩, .ofSeconds 1),
    (⟨⟨3⟩, ⟨1⟩, .ofInt 1, true, some "maybe"⟩, .ofSeconds 2),
    (⟨⟨1⟩, ⟨1⟩, .ofInt 3, false, none⟩, .ofSeconds 3)]

end Desk

/-- The run is active and all three take part, whoever came first. -/
theorem bids_commute_of_three :
    ∃ left right,
      ((Desk.opened.takeEach Desk.createdSteps).takeAll Desk.widerTerms
        (Tender.turns ⟨1⟩ Desk.threeTenders)).repository.store.find? ⟨1⟩ = some left ∧
      ((Desk.opened.takeEach Desk.createdSteps).takeAll Desk.widerTerms
        (Tender.turns ⟨1⟩ Desk.threeTenders.reverse)).repository.store.find? ⟨1⟩ = some right ∧
      left.run.stage = .active ∧ right.run.stage = .active ∧
      left.demands = [(⟨1⟩, ⟨500⟩)] ∧ right.demands = [(⟨1⟩, ⟨500⟩)] ∧
      left.users.Perm right.users ∧ left.wishes.Perm right.wishes := by
  let tenders := Desk.threeTenders.map (·.1)
  have hbook : ((Desk.opened.takeEach Desk.createdSteps).repository.store.find? ⟨1⟩).any
      (fun b => b.run.stage = .planning ∧
        (∀ t ∈ tenders, Desk.widerTerms.directory.isMember b.run.group t.user = true) ∧
        (b.users ++ tenders.map (·.user)).dedup.length ≤ Desk.widerTerms.limits.maxMembers ∧
        (b.products ++ tenders.map (·.product)).dedup.length ≤
          Desk.widerTerms.limits.maxProducts) = true := by
    decide +kernel
  have hreads : ∀ t ∈ tenders, (Desk.widerTerms.limits.readBid t.value).isOk = true := by
    decide +kernel
  obtain ⟨book, finds, hbook⟩ := (Option.any_eq_true _ _).mp hbook
  obtain ⟨planning, members, hmembers, hproducts⟩ := of_decide_eq_true hbook
  have canTake : book.CanTake Desk.widerTerms.limits tenders := {
    collects := .inl planning
    reads := fun t ht => by
      have hread := hreads t ht
      cases hq : Desk.widerTerms.limits.readBid t.value with
      | ok quantity => exact ⟨quantity, rfl⟩
      | error why =>
        rw [hq] at hread
        cases hread
    distinct := by decide +kernel
    members := hmembers
    products := hproducts }
  have perm : tenders.Perm (Desk.threeTenders.reverse.map (·.1)) := by
    rw [List.map_reverse]
    exact (List.reverse_perm _).symm
  obtain ⟨_, _, left, right, hleft, hright, hstage, _, _, hdemands, husers, hwishes⟩ :=
    bids_commute (by decide +kernel) finds canTake members perm (by decide +kernel)
      (by decide +kernel)
  have hends : ((Desk.opened.takeEach Desk.createdSteps).takeAll Desk.widerTerms
      (Tender.turns ⟨1⟩ Desk.threeTenders)).repository.store.find? ⟨1⟩ |>.any
        (fun b => b.run.stage = .active ∧ b.demands = [(⟨1⟩, ⟨500⟩)]) := by
    decide +kernel
  rw [hleft] at hends
  obtain ⟨hactive, htotals⟩ := of_decide_eq_true hends
  exact ⟨left, right, hleft, hright, hactive, hstage.symm.trans hactive, htotals,
    hdemands.symm.trans htotals, husers, hwishes⟩

end BuyingClub
