import BuyingClub.Document.Records
import BuyingClub.Proofs.Hundredths

/-!
# Documents that are read back

Every record is written so that it is read back as it was, as long as its numbers fit in their
words, its times are ones that timestamps have, and its amounts come through as doubles. An amount
that does not come through is not read as another one: nothing is read at all.
-/

namespace BuyingClub

open Document

/-! ## Fields and lists -/

namespace Document

variable {α : Type} {name key : String} {d : Document} {fields : List (String × Document)}
  {read? : Document → Option α} {write : α → Document}

theorem find?_cons_self : find? name ((name, d) :: fields) = some d := by
  simp [find?]

theorem find?_cons_of_ne (h : key ≠ name) :
    find? name ((key, d) :: fields) = find? name fields := by
  simp [find?, h]

@[simp] theorem field?_cons_self : field? name read? ((name, d) :: fields) = read? d := by
  rw [field?, find?_cons_self, Option.bind_some]

@[simp] theorem field?_cons_of_ne (h : key ≠ name) :
    field? name read? ((key, d) :: fields) = field? name read? fields := by
  rw [field?, find?_cons_of_ne h, field?]

@[simp] theorem optional?_cons_self :
    optional? name read? ((name, d) :: fields) = nullable? read? d := by
  rw [optional?, find?_cons_self]

@[simp] theorem optional?_cons_of_ne (h : key ≠ name) :
    optional? name read? ((key, d) :: fields) = optional? name read? fields := by
  rw [optional?, find?_cons_of_ne h, optional?]

theorem nullable?_of_ne_null (h : d ≠ null) : nullable? read? d = (read? d).map some := by
  unfold nullable?
  split
  · contradiction
  · rfl

theorem nullable?_ofOption {o : Option α} (written : ∀ a, write a ≠ null)
    (reads : ∀ a, o = some a → read? (write a) = some a) :
    nullable? read? (ofOption write o) = some o := by
  cases o with
  | none => rfl
  | some a =>
    rw [ofOption, nullable?_of_ne_null (written a), reads a rfl]
    rfl

theorem elements?_cons {x : α} {rest ys : List α} :
    elements? read? (list ((x :: rest).map write)) = some ys ↔
      ∃ y, read? (write x) = some y ∧
        ∃ more, elements? read? (list (rest.map write)) = some more ∧ y :: more = ys := by
  show ((x :: rest).map write).mapM read? = some ys ↔ _
  rw [List.map_cons, List.mapM_cons]
  simp only [Option.bind_eq_bind, Option.bind_eq_some_iff, pure, Option.some.injEq]
  rfl

theorem elements?_eq_self {xs : List α} (h : ∀ x ∈ xs, read? (write x) = some x) :
    elements? read? (list (xs.map write)) = some xs := by
  induction xs with
  | nil => rfl
  | cons x rest ih =>
    obtain ⟨hx, hrest⟩ := List.forall_mem_cons.mp h
    exact elements?_cons.mpr ⟨x, hx, rest, ih hrest, rfl⟩

theorem exists_of_elements?_eq_some {xs ys : List α}
    (h : elements? read? (list (xs.map write)) = some ys) :
    ∀ x ∈ xs, ∃ y, read? (write x) = some y := by
  induction xs generalizing ys with
  | nil => nofun
  | cons x rest ih =>
    obtain ⟨y, hy, more, hmore, _⟩ := elements?_cons.mp h
    exact List.forall_mem_cons.mpr ⟨⟨y, hy⟩, ih hmore⟩

end Document

/-! ## Plain values -/

theorem Document.count?_ofNat {n bound : Nat} (h : n < bound) :
    (Document.ofNat n).count? bound = some n := by
  have hcount : 0 ≤ (n : Int) ∧ (n : Int) < bound := by omega
  show (if 0 ≤ (n : Int) ∧ (n : Int) < bound then some (n : Int).toNat else none) = some n
  rw [if_pos hcount, Int.toNat_natCast]

theorem Document.size?_ofNat {n : Nat} (h : n < 2 ^ 64) : (Document.ofNat n).size? = some n :=
  count?_ofNat h

theorem Identifier.ofDocument?_toDocument {kind : Kind} {id : Identifier kind}
    (h : id.number < 2 ^ 64) : Identifier.ofDocument? id.toDocument = some id := by
  unfold ofDocument? toDocument
  rw [size?_ofNat h]
  rfl

/-- A time that is read off its timestamp. -/
def Instant.IsWritable (t : Instant) : Prop := Instant.read? t.text = some t

instance (t : Instant) : Decidable t.IsWritable := inferInstanceAs (Decidable (_ = _))

theorem Instant.ofDocument?_toDocument {t : Instant} (h : t.IsWritable) :
    Instant.ofDocument? t.toDocument = some t := by
  unfold ofDocument? toDocument
  exact (Option.bind_some ..).trans h

theorem Stage.ofDocument?_toDocument (s : Stage) : Stage.ofDocument? s.toDocument = some s :=
  Stage.ofName?_name s

/-- An amount that comes through as a double. -/
def Hundredths.ComesThrough (n : Int) : Prop := ofBinary64 (toBinary64 n) = .ok n

instance (n : Int) : Decidable (Hundredths.ComesThrough n) := inferInstanceAs (Decidable (_ = _))

theorem Quantity.ofDocument?_eq (q : Quantity) : Quantity.ofDocument? q.toDocument =
    ((Hundredths.ofBinary64 (Hundredths.toBinary64 q.hundredths)).map Quantity.mk).toOption := by
  unfold ofDocument? toDocument Document.number? Quantity.ofBinary64 Quantity.toBinary64
  rw [Option.bind_some]

theorem Money.ofDocument?_eq (m : Money) : Money.ofDocument? m.toDocument =
    ((Hundredths.ofBinary64 (Hundredths.toBinary64 m.cents)).map Money.mk).toOption := by
  unfold ofDocument? toDocument Document.number? Money.ofBinary64 Money.toBinary64
  rw [Option.bind_some]

theorem Quantity.ofDocument?_toDocument {q : Quantity}
    (h : Hundredths.ComesThrough q.hundredths) : Quantity.ofDocument? q.toDocument = some q := by
  rw [Quantity.ofDocument?_eq, h]
  rfl

theorem Money.ofDocument?_toDocument {m : Money} (h : Hundredths.ComesThrough m.cents) :
    Money.ofDocument? m.toDocument = some m := by
  rw [Money.ofDocument?_eq, h]
  rfl

theorem Money.comesThrough_of_ofDocument? {m other : Money} (h : m.cents.natAbs < 2 ^ 40)
    (reads : Money.ofDocument? m.toDocument = some other) : Hundredths.ComesThrough m.cents := by
  rcases Hundredths.ofBinary64_toBinary64_or h with hthrough | hdefect
  · exact hthrough
  · rw [Money.ofDocument?_eq, hdefect] at reads
    cases reads

theorem Document.text_ne_null (s : String) : text s ≠ null := nofun

theorem Document.ofNat_ne_null (n : Nat) : ofNat n ≠ null := nofun

theorem Quantity.toDocument_ne_null (q : Quantity) : q.toDocument ≠ .null := nofun

theorem Money.toDocument_ne_null (m : Money) : m.toDocument ≠ .null := nofun

/-! ## Runs -/

theorem StageEntry.ofDocument?_toDocument {e : StageEntry} (h : e.enteredAt.IsWritable) :
    StageEntry.ofDocument? e.toDocument = some e := by
  unfold ofDocument?
  simp only [Option.bind_eq_bind, Option.bind_eq_some_iff]
  refine ⟨_, rfl, e.stage, ?_, e.enteredAt, ?_, rfl⟩
  · simp [Stage.ofDocument?_toDocument]
  · simp [Instant.ofDocument?_toDocument h]

/-- Numbers of 64 bits and times that timestamps have. -/
structure Run.FitsWords (r : Run) : Prop where
  id : r.id.number < 2 ^ 64
  group : r.group.number < 2 ^ 64
  store : r.store.number < 2 ^ 64
  history : ∀ e ∈ r.history, e.enteredAt.IsWritable
  version : r.version < 2 ^ 64

instance (r : Run) : Decidable r.FitsWords :=
  decidable_of_iff (r.id.number < 2 ^ 64 ∧ r.group.number < 2 ^ 64 ∧ r.store.number < 2 ^ 64 ∧
      (∀ e ∈ r.history, e.enteredAt.IsWritable) ∧ r.version < 2 ^ 64)
    ⟨fun ⟨id, group, store, history, version⟩ => ⟨id, group, store, history, version⟩,
      fun ⟨id, group, store, history, version⟩ => ⟨id, group, store, history, version⟩⟩

theorem Run.ofDocument?_toDocument {r : Run} (h : r.FitsWords) :
    Run.ofDocument? r.toDocument = some r := by
  unfold ofDocument?
  simp only [Option.bind_eq_bind, Option.bind_eq_some_iff]
  refine ⟨_, rfl, r.id, ?_, r.group, ?_, r.store, ?_, r.stage, ?_, r.history, ?_, r.version, ?_,
    rfl⟩
  · simp [Identifier.ofDocument?_toDocument h.id]
  · simp [Identifier.ofDocument?_toDocument h.group]
  · simp [Identifier.ofDocument?_toDocument h.store]
  · simp [Stage.ofDocument?_toDocument]
  · simp [elements?_eq_self fun e he => StageEntry.ofDocument?_toDocument (h.history e he)]
  · simp [size?_ofNat h.version]

/-! ## Entries -/

structure Participation.FitsWords (p : Participation) : Prop where
  id : p.id.number < 2 ^ 64
  run : p.run.number < 2 ^ 64
  user : p.user.number < 2 ^ 64
  joinedAt : p.joinedAt.IsWritable

instance (p : Participation) : Decidable p.FitsWords :=
  decidable_of_iff (p.id.number < 2 ^ 64 ∧ p.run.number < 2 ^ 64 ∧ p.user.number < 2 ^ 64 ∧
      p.joinedAt.IsWritable)
    ⟨fun ⟨id, run, user, joinedAt⟩ => ⟨id, run, user, joinedAt⟩,
      fun ⟨id, run, user, joinedAt⟩ => ⟨id, run, user, joinedAt⟩⟩

theorem Participation.ofDocument?_toDocument {p : Participation} (h : p.FitsWords) :
    Participation.ofDocument? p.toDocument = some p := by
  unfold ofDocument?
  simp only [Option.bind_eq_bind, Option.bind_eq_some_iff]
  refine ⟨_, rfl, p.id, ?_, p.run, ?_, p.user, ?_, p.isLeader, ?_, p.isReady, ?_, p.isRemoved, ?_,
    p.isHelper, ?_, p.joinedAt, ?_, rfl⟩
  · simp [Identifier.ofDocument?_toDocument h.id]
  · simp [Identifier.ofDocument?_toDocument h.run]
  · simp [Identifier.ofDocument?_toDocument h.user]
  · simp [bool?]
  · simp [bool?]
  · simp [bool?]
  · simp [bool?]
  · simp [Instant.ofDocument?_toDocument h.joinedAt]

structure Bid.FitsWords (b : Bid) : Prop where
  id : b.id.number < 2 ^ 64
  participation : b.participation.number < 2 ^ 64
  product : b.product.number < 2 ^ 64
  updatedAt : b.updatedAt.IsWritable

instance (b : Bid) : Decidable b.FitsWords :=
  decidable_of_iff (b.id.number < 2 ^ 64 ∧ b.participation.number < 2 ^ 64 ∧
      b.product.number < 2 ^ 64 ∧ b.updatedAt.IsWritable)
    ⟨fun ⟨id, participation, product, updatedAt⟩ => ⟨id, participation, product, updatedAt⟩,
      fun ⟨id, participation, product, updatedAt⟩ => ⟨id, participation, product, updatedAt⟩⟩

/-- All amounts of a bid come through. -/
structure Bid.ComesThrough (b : Bid) : Prop where
  quantity : Hundredths.ComesThrough b.quantity.hundredths
  distributedQuantity : ∀ q, b.distributedQuantity = some q → Hundredths.ComesThrough q.hundredths
  distributedPrice : ∀ m, b.distributedPrice = some m → Hundredths.ComesThrough m.cents

theorem Bid.ofDocument?_toDocument {b : Bid} (h : b.FitsWords) (amounts : b.ComesThrough) :
    Bid.ofDocument? b.toDocument = some b := by
  have hcomment : nullable? text? (ofOption text b.comment) = some b.comment :=
    nullable?_ofOption text_ne_null fun _ _ => rfl
  have hquantity := nullable?_ofOption Quantity.toDocument_ne_null fun q hq =>
    Quantity.ofDocument?_toDocument (amounts.distributedQuantity q hq)
  have hprice := nullable?_ofOption Money.toDocument_ne_null fun m hm =>
    Money.ofDocument?_toDocument (amounts.distributedPrice m hm)
  unfold ofDocument?
  simp only [Option.bind_eq_bind, Option.bind_eq_some_iff]
  refine ⟨_, rfl, b.id, ?_, b.participation, ?_, b.product, ?_, b.quantity, ?_,
    b.interestedOnly, ?_, b.comment, ?_, b.distributedQuantity, ?_, b.distributedPrice, ?_,
    b.isPickedUp, ?_, b.updatedAt, ?_, rfl⟩
  · simp [Identifier.ofDocument?_toDocument h.id]
  · simp [Identifier.ofDocument?_toDocument h.participation]
  · simp [Identifier.ofDocument?_toDocument h.product]
  · simp [Quantity.ofDocument?_toDocument amounts.quantity]
  · simp [bool?]
  · simp [hcomment]
  · simp [hquantity]
  · simp [hprice]
  · simp [bool?]
  · simp [Instant.ofDocument?_toDocument h.updatedAt]

structure ShoppingItem.FitsWords (item : ShoppingItem) : Prop where
  id : item.id.number < 2 ^ 64
  run : item.run.number < 2 ^ 64
  product : item.product.number < 2 ^ 64
  purchaseOrder : ∀ n, item.purchaseOrder = some n → n < 2 ^ 32

instance (item : ShoppingItem) : Decidable item.FitsWords :=
  decidable_of_iff (item.id.number < 2 ^ 64 ∧ item.run.number < 2 ^ 64 ∧
      item.product.number < 2 ^ 64 ∧ ∀ n ∈ item.purchaseOrder, n < 2 ^ 32)
    ⟨fun ⟨id, run, product, order⟩ => ⟨id, run, product, order⟩,
      fun ⟨id, run, product, order⟩ => ⟨id, run, product, order⟩⟩

/-- All amounts of a line come through, but perhaps for the total. -/
structure ShoppingItem.ComesThrough (item : ShoppingItem) : Prop where
  requestedQuantity : Hundredths.ComesThrough item.requestedQuantity.hundredths
  purchasedQuantity : ∀ q, item.purchasedQuantity = some q → Hundredths.ComesThrough q.hundredths
  purchasedPrice : ∀ m, item.purchasedPrice = some m → Hundredths.ComesThrough m.cents

def ShoppingItem.TotalComesThrough (item : ShoppingItem) : Prop :=
  ∀ m, item.purchasedTotal = some m → Hundredths.ComesThrough m.cents

instance (item : ShoppingItem) : Decidable item.TotalComesThrough :=
  inferInstanceAs (Decidable (∀ m ∈ item.purchasedTotal, Hundredths.ComesThrough m.cents))

theorem ShoppingItem.ofDocument?_toDocument {item : ShoppingItem} (h : item.FitsWords)
    (amounts : item.ComesThrough) (total : item.TotalComesThrough) :
    ShoppingItem.ofDocument? item.toDocument = some item := by
  have hquantity := nullable?_ofOption Quantity.toDocument_ne_null fun q hq =>
    Quantity.ofDocument?_toDocument (amounts.purchasedQuantity q hq)
  have hprice := nullable?_ofOption Money.toDocument_ne_null fun m hm =>
    Money.ofDocument?_toDocument (amounts.purchasedPrice m hm)
  have htotal := nullable?_ofOption Money.toDocument_ne_null fun m hm =>
    Money.ofDocument?_toDocument (total m hm)
  have horder := nullable?_ofOption ofNat_ne_null fun n hn =>
    count?_ofNat (h.purchaseOrder n hn)
  unfold ofDocument?
  simp only [Option.bind_eq_bind, Option.bind_eq_some_iff]
  refine ⟨_, rfl, item.id, ?_, item.run, ?_, item.product, ?_, item.requestedQuantity, ?_,
    item.purchasedQuantity, ?_, item.purchasedPrice, ?_, item.purchasedTotal, ?_, item.isPurchased,
    ?_, item.purchaseOrder, ?_, rfl⟩
  · simp [Identifier.ofDocument?_toDocument h.id]
  · simp [Identifier.ofDocument?_toDocument h.run]
  · simp [Identifier.ofDocument?_toDocument h.product]
  · simp [Quantity.ofDocument?_toDocument amounts.requestedQuantity]
  · simp [hquantity]
  · simp [hprice]
  · simp [htotal]
  · simp [bool?]
  · simpa using horder

theorem ShoppingItem.totalComesThrough_of_ofDocument? {item other : ShoppingItem}
    (small : ∀ m, item.purchasedTotal = some m → m.cents.natAbs < 2 ^ 40)
    (reads : ShoppingItem.ofDocument? item.toDocument = some other) : item.TotalComesThrough := by
  intro m hm
  unfold ofDocument? at reads
  simp only [Option.bind_eq_bind, Option.bind_eq_some_iff] at reads
  obtain ⟨fields, hfields, _, _, _, _, _, _, _, _, _, _, _, _, total, htotal, _⟩ := reads
  obtain rfl := Option.some.inj hfields
  have hread : nullable? Money.ofDocument? (ofOption Money.toDocument item.purchasedTotal) =
      some total := by simpa using htotal
  rw [hm, ofOption, nullable?_of_ne_null m.toDocument_ne_null] at hread
  obtain ⟨paid, hpaid, _⟩ := Option.map_eq_some_iff.mp hread
  exact Money.comesThrough_of_ofDocument? (small m hm) hpaid

/-! ## Order books -/

structure OrderBook.FitsWords (book : OrderBook) : Prop where
  run : book.run.FitsWords
  participations : ∀ p ∈ book.participations, p.FitsWords
  bids : ∀ b ∈ book.bids, b.FitsWords
  items : ∀ item ∈ book.items, item.FitsWords

instance (book : OrderBook) : Decidable book.FitsWords :=
  decidable_of_iff (book.run.FitsWords ∧ (∀ p ∈ book.participations, p.FitsWords) ∧
      (∀ b ∈ book.bids, b.FitsWords) ∧ ∀ item ∈ book.items, item.FitsWords)
    ⟨fun ⟨run, participations, bids, items⟩ => ⟨run, participations, bids, items⟩,
      fun ⟨run, participations, bids, items⟩ => ⟨run, participations, bids, items⟩⟩

/-- All amounts of a book come through, but perhaps for the totals that were paid. -/
structure OrderBook.ComesThrough (book : OrderBook) : Prop where
  bids : ∀ b ∈ book.bids, b.ComesThrough
  items : ∀ item ∈ book.items, item.ComesThrough

def OrderBook.TotalsComeThrough (book : OrderBook) : Prop :=
  ∀ item ∈ book.items, item.TotalComesThrough

instance (book : OrderBook) : Decidable book.TotalsComeThrough :=
  inferInstanceAs (Decidable (∀ item ∈ book.items, item.TotalComesThrough))

theorem OrderBook.ofDocument?_toDocument {book : OrderBook} (h : book.FitsWords)
    (amounts : book.ComesThrough) (totals : book.TotalsComeThrough) :
    OrderBook.ofDocument? book.toDocument = some book := by
  have hparticipations := elements?_eq_self fun p hp =>
    Participation.ofDocument?_toDocument (h.participations p hp)
  have hbids := elements?_eq_self fun b hb =>
    Bid.ofDocument?_toDocument (h.bids b hb) (amounts.bids b hb)
  have hitems := elements?_eq_self fun item hitem =>
    ShoppingItem.ofDocument?_toDocument (h.items item hitem) (amounts.items item hitem)
      (totals item hitem)
  unfold ofDocument?
  simp only [Option.bind_eq_bind, Option.bind_eq_some_iff]
  refine ⟨_, rfl, book.run, ?_, book.participations, ?_, book.bids, ?_, book.items, ?_, rfl⟩
  · simp [Run.ofDocument?_toDocument h.run]
  · simp [hparticipations]
  · simp [hbids]
  · simp [hitems]

theorem OrderBook.totalsComeThrough_of_ofDocument? {book other : OrderBook}
    (small : ∀ item ∈ book.items, ∀ m, item.purchasedTotal = some m → m.cents.natAbs < 2 ^ 40)
    (reads : OrderBook.ofDocument? book.toDocument = some other) : book.TotalsComeThrough := by
  intro item hitem
  unfold ofDocument? at reads
  simp only [Option.bind_eq_bind, Option.bind_eq_some_iff] at reads
  obtain ⟨fields, hfields, _, _, _, _, _, _, items, hitems, _⟩ := reads
  obtain rfl := Option.some.inj hfields
  have hread : elements? ShoppingItem.ofDocument?
      (.list (book.items.map ShoppingItem.toDocument)) = some items := by simpa using hitems
  obtain ⟨line, hline⟩ := exists_of_elements?_eq_some hread item hitem
  exact ShoppingItem.totalComesThrough_of_ofDocument? (small item hitem) hline

end BuyingClub
