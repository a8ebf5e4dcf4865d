import BuyingClub.Proofs.Belongings

/-!
# Who asks for what

A book seen without its identifiers and times: who takes part in the run, and who asks for how much
of which product. A bid that is placed is one wish more, in place of the one its bidder had for the
product before.
-/

namespace BuyingClub

/-- A bid without its identifiers and its time. -/
structure Wish where
  user : Option UserId
  product : ProductId
  quantity : Quantity
  interestedOnly : Bool
  comment : Option String
deriving DecidableEq

namespace Wish

/-- Nobody has two wishes for one product. -/
def key (w : Wish) : Option UserId × ProductId := (w.user, w.product)

def committedQuantity (w : Wish) : Quantity := if !w.interestedOnly then w.quantity else 0

end Wish

namespace OrderBook

/-- Who takes part in the run. -/
def users (book : OrderBook) : List UserId := book.activeParticipations.map (·.user)

def wishOf (book : OrderBook) (b : Bid) : Wish :=
  ⟨book.bidder? b, b.product, b.quantity, b.interestedOnly, b.comment⟩

def wishes (book : OrderBook) : List Wish := book.bids.map book.wishOf

end OrderBook

/-! ## Totals -/

theorem addTotal_self (p : ProductId) (a b : Quantity) (totals : List (ProductId × Quantity)) :
    addTotal p a (addTotal p b totals) = addTotal p (b + a) totals := by
  have hadd (x : Quantity) : x + b + a = x + (b + a) := by
    ext
    simp only [Quantity.hundredths_add]
    omega
  have hirrefl : ¬ p < p := Nat.lt_irrefl p.number
  induction totals with
  | nil => simp [addTotal, hirrefl]
  | cons entry rest ih =>
    obtain ⟨r, total⟩ := entry
    by_cases hlt : p < r
    · simp [addTotal, hlt, hirrefl]
    · by_cases heq : p = r
      · subst heq
        simp [addTotal, hirrefl, hadd]
      · simp [addTotal, hlt, heq, ih]

theorem addTotal_comm_of_lt {p q : ProductId} (h : p < q) (a b : Quantity)
    (totals : List (ProductId × Quantity)) :
    addTotal p a (addTotal q b totals) = addTotal q b (addTotal p a totals) := by
  have htrans {x y z : ProductId} : x < y → y < z → x < z := Nat.lt_trans
  have hasymm {x y : ProductId} : x < y → ¬ y < x := Nat.lt_asymm
  have hirrefl (x : ProductId) : ¬ x < x := Nat.lt_irrefl x.number
  induction totals with
  | nil => grind [addTotal]
  | cons entry rest ih =>
    obtain ⟨r, total⟩ := entry
    have hcases : p < r ∨ p = r ∨ r < p := by grind [Identifier.lt_of_not_lt_of_ne]
    grind [addTotal]

theorem addTotal_comm (p q : ProductId) (a b : Quantity) (totals : List (ProductId × Quantity)) :
    addTotal p a (addTotal q b totals) = addTotal q b (addTotal p a totals) := by
  by_cases hlt : p < q
  · exact addTotal_comm_of_lt hlt a b totals
  by_cases heq : p = q
  · subst heq
    have hcomm : b + a = a + b := by
      ext
      simp only [Quantity.hundredths_add]
      omega
    rw [addTotal_self, addTotal_self, hcomm]
  · exact (addTotal_comm_of_lt (Identifier.lt_of_not_lt_of_ne hlt heq) b a totals).symm

namespace OrderBook

variable {book later : OrderBook}

theorem demands_eq_foldl (book : OrderBook) :
    book.demands =
      book.wishes.foldl (fun totals w => addTotal w.product w.committedQuantity totals) [] := by
  rw [wishes, List.foldl_map]
  rfl

theorem demands_eq_of_perm (same : book.wishes.Perm later.wishes) :
    book.demands = later.demands := by
  rw [demands_eq_foldl, demands_eq_foldl]
  exact same.foldl_eq' (fun v _ w _ totals => addTotal_comm ..) []

/-! ## Participants and bidders -/

theorem IsTidy.users_eq (tidy : book.IsTidy) :
    book.users = book.participations.map (·.user) := by
  rw [users, activeParticipations_eq tidy.seated.noneRemoved]

theorem IsTidy.nodup_users (tidy : book.IsTidy) : book.users.Nodup := by
  rw [tidy.users_eq]
  exact tidy.seated.users

theorem participation?_of_mem {p : Participation}
    (distinct : (book.participations.map (·.id)).Nodup) (hp : p ∈ book.participations) :
    book.participation? p.id = some p :=
  find?_of_nodup distinct hp

theorem IsTidy.isLeader_iff (tidy : book.IsTidy) {p : Participation}
    (hp : p ∈ book.participations) : p.isLeader = true ↔ book.IsLedBy p.user := by
  have hleads {q : Participation} (hq : book.leader? = some q) :
      q ∈ book.participations ∧ q.isLeader = true := by
    have htest := List.find?_some hq
    rw [Bool.and_eq_true] at htest
    exact ⟨List.mem_of_find?_eq_some hq, htest.1⟩
  constructor
  · intro hleader
    have hsome : book.leader?.isSome = true :=
      List.find?_isSome.mpr ⟨p, hp, by rw [hleader, tidy.seated.noneRemoved p hp]; rfl⟩
    obtain ⟨q, hq⟩ := Option.isSome_iff_exists.mp hsome
    obtain ⟨hmem, hqleads⟩ := hleads hq
    have hone : (book.participations.filter (·.isLeader)).length = 1 := by
      rw [← List.countP_eq_length_filter]
      exact tidy.seated.oneLeader
    obtain ⟨leader, hleader'⟩ := List.length_eq_one_iff.mp hone
    have honly {r : Participation} (hr : r ∈ book.participations) (hrleads : r.isLeader = true) :
        r = leader := by
      have hfilter := List.mem_filter.mpr ⟨hr, hrleads⟩
      rw [hleader'] at hfilter
      exact List.mem_singleton.mp hfilter
    rw [IsLedBy, hq, honly hmem hqleads, honly hp hleader]
    exact decide_eq_true rfl
  · intro hled
    obtain ⟨q, hq, huser⟩ := (Option.any_eq_true _ _).mp hled
    obtain ⟨hmem, hqleads⟩ := hleads hq
    have hsame : q = p :=
      List.inj_on_of_nodup_map tidy.seated.users hmem hp (of_decide_eq_true huser)
    rwa [← hsame]

theorem IsTidy.any_isLeader (tidy : book.IsTidy)
    (distinct : (book.participations.map (·.id)).Nodup) {p : Participation}
    (hp : p ∈ book.participations) :
    (book.participation? p.id).any (·.isLeader) = book.leader?.any (·.user = p.user) := by
  rw [participation?_of_mem distinct hp, Bool.eq_iff_iff]
  exact tidy.isLeader_iff hp

theorem IsTidy.isOf_iff (tidy : book.IsTidy) (distinct : (book.participations.map (·.id)).Nodup)
    {p : Participation} (hp : p ∈ book.participations) {b : Bid} {product : ProductId} :
    b.isOf p.id product = true ↔ (book.wishOf b).key = (some p.user, product) := by
  rw [Bid.isOf_iff, Wish.key, Prod.mk.injEq]
  refine and_congr_left fun _ => ⟨fun hid => ?_, fun huser => ?_⟩
  · rw [wishOf, bidder?, hid, participation?_of_mem distinct hp]
    rfl
  · obtain ⟨q, hq, huser⟩ := Option.map_eq_some_iff.mp huser
    have hsame : q = p :=
      List.inj_on_of_nodup_map tidy.seated.users (List.mem_of_find?_eq_some hq) hp huser
    rw [← hsame]
    exact (id_of_participation? hq).symm

/-! ## A bid that is placed -/

theorem placeBid_perm {limits : Limits} {request : BidRequest} {now : Instant}
    {counters : Counters} {placed : PlacedBid}
    (oneEach : (book.bids.map fun b => (b.participation, b.product)).Nodup)
    (places : book.placeBid limits request now counters = .ok placed) :
    placed.book.bids.Perm
      (placed.bid :: book.bids.filter fun b => !b.isOf request.participation request.product) := by
  rcases (placeBid_eq_ok_iff.mp places).2 with ⟨previous, finds, rfl⟩ | ⟨unknown, _, rfl⟩
  · have hnone := bidOf?_retractBid (.of_nodup oneEach) finds
    have hrest : (book.bids.eraseP (·.isOf request.participation request.product)).filter
        (fun b => !b.isOf request.participation request.product) =
          book.bids.eraseP (·.isOf request.participation request.product) := by
      refine List.filter_eq_self.mpr fun b hb => ?_
      simpa using List.find?_eq_none.mp hnone b hb
    have hbefore := (perm_cons_eraseP finds).filter
      fun b => !b.isOf request.participation request.product
    have hprevious : previous.isOf request.participation request.product = true :=
      Bid.isOf_iff.mpr (isOf_of_bidOf? finds)
    rw [List.filter_cons_of_neg (by simp [hprevious]), hrest] at hbefore
    exact (perm_updateFirst _ finds).trans (hbefore.symm.cons _)
  · have hall : book.bids.filter (fun b => !b.isOf request.participation request.product) =
        book.bids := by
      refine List.filter_eq_self.mpr fun b hb => ?_
      simpa using List.find?_eq_none.mp unknown b hb
    rw [hall]
    exact List.perm_append_singleton ..

theorem wishes_of_perm {p : Participation} {product : ProductId} {b : Bid} (tidy : later.IsTidy)
    (distinct : (later.participations.map (·.id)).Nodup) (hp : p ∈ later.participations)
    (same : ∀ b ∈ book.bids, later.wishOf b = book.wishOf b)
    (perm : later.bids.Perm (b :: book.bids.filter fun b => !b.isOf p.id product)) :
    later.wishes.Perm
      (later.wishOf b :: book.wishes.filter fun w => w.key ≠ (some p.user, product)) := by
  have hwishes : book.wishes = book.bids.map later.wishOf := (List.map_congr_left same).symm
  have hothers : (book.bids.filter fun b => !b.isOf p.id product).map later.wishOf =
      book.wishes.filter fun w => w.key ≠ (some p.user, product) := by
    rw [hwishes, List.filter_map]
    congr 1
    refine List.filter_congr fun b _ => ?_
    rw [Bool.eq_iff_iff, Bool.not_eq_true', ← Bool.not_eq_true, tidy.isOf_iff distinct hp]
    simp
  rw [← hothers]
  exact perm.map _

end OrderBook

end BuyingClub
