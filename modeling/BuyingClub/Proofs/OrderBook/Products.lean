import BuyingClub.OrderBook
import BuyingClub.Proofs.Results

/-!
# The products of a book

An ascending list holds no identifier twice, so the list of products counts them.
-/

namespace BuyingClub

section Ascending

variable {kind : Kind} {x y : Identifier kind} {xs : List (Identifier kind)}

theorem Identifier.lt_of_not_lt_of_ne (h : ¬ x < y) (hne : x ≠ y) : y < x := by
  have hnumber : x.number ≠ y.number := by
    intro heq
    cases x
    cases y
    cases heq
    exact hne rfl
  exact Nat.lt_of_le_of_ne (Nat.le_of_not_lt h) hnumber.symm

theorem mem_insertAscending_iff : y ∈ insertAscending x xs ↔ y = x ∨ y ∈ xs := by
  induction xs with
  | nil => simp [insertAscending]
  | cons z rest ih =>
    unfold insertAscending
    split
    · simp
    · split
      · rename_i heq
        simp [heq]
      · simp only [List.mem_cons, ih]
        tauto

theorem pairwise_insertAscending (h : xs.Pairwise (· < ·)) :
    (insertAscending x xs).Pairwise (· < ·) := by
  induction xs with
  | nil => simp [insertAscending]
  | cons z rest ih =>
    obtain ⟨hz, hrest⟩ := List.pairwise_cons.mp h
    unfold insertAscending
    split
    · rename_i hlt
      refine List.pairwise_cons.mpr ⟨fun w hw => ?_, h⟩
      rcases List.mem_cons.mp hw with rfl | hw
      · exact hlt
      · exact Nat.lt_trans hlt (hz w hw)
    · rename_i hnlt
      split
      · exact h
      · rename_i hne
        refine List.pairwise_cons.mpr ⟨fun w hw => ?_, ih hrest⟩
        rcases mem_insertAscending_iff.mp hw with rfl | hw
        · exact Identifier.lt_of_not_lt_of_ne hnlt hne
        · exact hz w hw

theorem mem_foldl_insertAscending {α : Type} (f : α → Identifier kind) {ys : List α} :
    x ∈ ys.foldl (fun known y => insertAscending (f y) known) xs ↔ x ∈ xs ∨ x ∈ ys.map f := by
  induction ys generalizing xs with
  | nil => simp
  | cons y rest ih =>
    rw [List.foldl_cons, ih, mem_insertAscending_iff, List.map_cons, List.mem_cons]
    tauto

theorem pairwise_foldl_insertAscending {α : Type} (f : α → Identifier kind) (ys : List α)
    (h : xs.Pairwise (· < ·)) :
    (ys.foldl (fun known y => insertAscending (f y) known) xs).Pairwise (· < ·) := by
  induction ys generalizing xs with
  | nil => exact h
  | cons y rest ih => exact ih (pairwise_insertAscending h)

theorem nodup_of_ascending (h : xs.Pairwise (· < ·)) : xs.Nodup := by
  refine h.imp fun {a b} hlt heq => ?_
  rw [heq] at hlt
  exact Nat.lt_irrefl _ hlt

end Ascending

namespace OrderBook

variable {book : OrderBook} {product : ProductId}

theorem mem_products_iff : product ∈ book.products ↔ product ∈ book.bids.map (·.product) := by
  unfold products
  rw [mem_foldl_insertAscending]
  simp

theorem products_ascend (book : OrderBook) : book.products.Pairwise (· < ·) :=
  pairwise_foldl_insertAscending (·.product) book.bids .nil

theorem nodup_products (book : OrderBook) : book.products.Nodup :=
  nodup_of_ascending book.products_ascend

theorem length_products_le {products : List ProductId}
    (h : ∀ b ∈ book.bids, b.product ∈ products) : book.products.length ≤ products.length := by
  refine (book.nodup_products.subperm fun product hproduct => ?_).length_le
  obtain ⟨b, hb, rfl⟩ := List.mem_map.mp (mem_products_iff.mp hproduct)
  exact h b hb

theorem product_mem_products {b : Bid} (hb : b ∈ book.bids) : b.product ∈ book.products :=
  mem_products_iff.mpr (List.mem_map_of_mem hb)

end OrderBook

end BuyingClub
