import BuyingClub.Proofs.Numbering
import BuyingClub.Store

/-!
# Counters after a restart

The watermark of a store is, kind by kind, the greatest number in its books. Counters that start
after it are past all of them.
-/

namespace BuyingClub.Store

variable {store : Store} {kind : Kind} {part : Watermark → Nat} {bound : Nat}

theorem foldl_max_lt_iff {numbers : List Nat} {start : Nat} :
    numbers.foldl Nat.max start < bound ↔ start < bound ∧ ∀ n ∈ numbers, n < bound := by
  induction numbers generalizing start with
  | nil => simp
  | cons n rest ih =>
    rw [List.foldl_cons, ih, List.forall_mem_cons, ← and_assoc]
    exact and_congr_left' Nat.max_lt

theorem greatest_lt_iff {numbers : List Nat} :
    watermark.greatest numbers < bound ↔ 0 < bound ∧ ∀ n ∈ numbers, n < bound :=
  foldl_max_lt_iff

theorem part_foldl_max {books : List OrderBook} {start : Watermark}
    (max : ∀ a b, part (a.max b) = Nat.max (part a) (part b)) :
    part (books.foldl (fun mark book => mark.max (watermark.watermarkOf book)) start) =
      (books.map fun book => part (watermark.watermarkOf book)).foldl Nat.max (part start) := by
  induction books generalizing start with
  | nil => rfl
  | cons book rest ih =>
    rw [List.foldl_cons, ih, max]
    rfl

theorem watermark_lt_iff (zero : part .zero = 0)
    (max : ∀ a b, part (a.max b) = Nat.max (part a) (part b)) :
    part store.watermark < bound ↔
      0 < bound ∧ ∀ book ∈ store.books, part (watermark.watermarkOf book) < bound := by
  unfold watermark
  rw [part_foldl_max max, foldl_max_lt_iff, zero, List.forall_mem_map]

theorem lt_followingNumber_watermark (part : Watermark → Nat)
    (ids : OrderBook → List (Identifier kind)) (zero : part .zero = 0)
    (max : ∀ a b, part (a.max b) = Nat.max (part a) (part b))
    (greatest : ∀ book, part (watermark.watermarkOf book) =
      watermark.greatest ((ids book).map (·.number)))
    (notLast : ∀ book ∈ store.books, ∀ id ∈ ids book, id.number + 1 < UInt64.size) :
    ∀ book ∈ store.books, ∀ id ∈ ids book,
      id.number < followingNumber (part store.watermark) := by
  have hlt : ∀ bound, part store.watermark < bound ↔
      0 < bound ∧ ∀ book ∈ store.books, ∀ id ∈ ids book, id.number < bound := by
    intro bound
    rw [watermark_lt_iff zero max]
    refine and_congr_right fun hbound => forall₂_congr fun book _ => ?_
    rw [greatest, greatest_lt_iff, List.forall_mem_map]
    exact and_iff_right hbound
  have hsize : part store.watermark < UInt64.size - 1 := by
    refine (hlt _).mpr ⟨by decide, fun book hbook id hid => ?_⟩
    have hid := notLast book hbook id hid
    omega
  have hfollowing : followingNumber (part store.watermark) = part store.watermark + 1 :=
    Nat.mod_eq_of_lt (by omega)
  rw [hfollowing]
  exact ((hlt _).mp (Nat.lt_succ_self _)).2

end BuyingClub.Store
