import BuyingClub.OrderBook
import Mathlib

/-!
# Changes of one element of a list

What `updateFirst` and `eraseP` leave as it is, and what they do to a sum.
-/

namespace BuyingClub

variable {α : Type} {test : α → Bool} {f : α → α} {xs : List α} {x y : α}

/-! ## Members -/

theorem mem_updateFirst (h : x ∈ updateFirst test f xs) :
    x ∈ xs ∨ ∃ y, xs.find? test = some y ∧ x = f y := by
  induction xs with
  | nil => simp [updateFirst] at h
  | cons z rest ih =>
    unfold updateFirst at h
    split at h
    · rename_i hz
      rcases List.mem_cons.mp h with rfl | h
      · exact .inr ⟨z, by simp [hz], rfl⟩
      · exact .inl (List.mem_cons_of_mem _ h)
    · rename_i hz
      rcases List.mem_cons.mp h with rfl | h
      · exact .inl (List.mem_cons_self ..)
      · rcases ih h with h | ⟨y, hy, rfl⟩
        · exact .inl (List.mem_cons_of_mem _ h)
        · exact .inr ⟨y, by simp [hz, hy], rfl⟩

/-! ## The place of a change -/

theorem exists_append_of_find? (finds : xs.find? test = some y) :
    ∃ before later, xs = before ++ y :: later ∧ (∀ x ∈ before, test x = false) ∧
      (∀ f, updateFirst test f xs = before ++ f y :: later) ∧ xs.eraseP test = before ++ later := by
  induction xs with
  | nil => cases finds
  | cons z rest ih =>
    unfold updateFirst
    rw [List.find?_cons] at finds
    split at finds
    · rename_i hz
      obtain rfl : z = y := Option.some.inj finds
      rw [List.eraseP_cons_of_pos hz]
      exact ⟨[], rest, rfl, List.forall_mem_nil _, fun f => if_pos hz, rfl⟩
    · rename_i hz
      obtain ⟨before, later, rfl, hbefore, hupdate, herase⟩ := ih finds
      rw [List.eraseP_cons_of_neg (by simp [hz]), herase]
      refine ⟨z :: before, later, rfl, List.forall_mem_cons.mpr ⟨hz, hbefore⟩, fun f => ?_, rfl⟩
      rw [if_neg (by simp [hz]), hupdate]
      rfl

theorem updateFirst_of_find?_eq_none (h : xs.find? test = none) : updateFirst test f xs = xs := by
  induction xs with
  | nil => rfl
  | cons z rest ih =>
    obtain ⟨hz, hrest⟩ := List.forall_mem_cons.mp (List.find?_eq_none.mp h)
    unfold updateFirst
    rw [if_neg hz, ih (List.find?_eq_none.mpr hrest)]

/-! ## Finding -/

theorem find?_of_unique (hx : x ∈ xs) (passes : test x = true)
    (unique : ∀ y ∈ xs, test y = true → y = x) : xs.find? test = some x := by
  cases hfound : xs.find? test with
  | none => exact absurd passes (List.find?_eq_none.mp hfound x hx)
  | some y =>
    rw [unique y (List.mem_of_find?_eq_some hfound) (List.find?_some hfound)]

theorem find?_of_nodup {β : Type} [DecidableEq β] {key : α → β} (distinct : (xs.map key).Nodup)
    (hx : x ∈ xs) : xs.find? (fun y => decide (key y = key x)) = some x :=
  find?_of_unique hx (decide_eq_true rfl) fun _ hy hkey =>
    List.inj_on_of_nodup_map distinct hy hx (of_decide_eq_true hkey)

theorem find?_updateFirst_self (keeps : ∀ y, test y = true → test (f y) = true) :
    (updateFirst test f xs).find? test = (xs.find? test).map f := by
  induction xs with
  | nil => rfl
  | cons z rest ih =>
    unfold updateFirst
    by_cases hz : test z = true
    · simp [hz, keeps z hz]
    · simp [hz, ih]

theorem find?_updateFirst_of_ne {other : α → Bool} (before : ∀ y, test y = true → other y = false)
    (after : ∀ y, test y = true → other (f y) = false) :
    (updateFirst test f xs).find? other = xs.find? other := by
  induction xs with
  | nil => rfl
  | cons z rest ih =>
    unfold updateFirst
    by_cases hz : test z = true
    · simp [hz, before z hz, after z hz]
    · simp [hz, List.find?_cons, ih]

theorem map_find?_updateFirst {β : Type} {other : α → Bool} (g : α → β)
    (keepsSearch : ∀ y, other (f y) = other y) (keeps : ∀ y, g (f y) = g y) :
    ((updateFirst test f xs).find? other).map g = (xs.find? other).map g := by
  induction xs with
  | nil => rfl
  | cons z rest ih =>
    unfold updateFirst
    by_cases hz : test z = true
    · by_cases ho : other z = true
      · simp [hz, ho, keepsSearch, keeps]
      · simp [hz, ho, keepsSearch]
    · by_cases ho : other z = true
      · simp [hz, ho]
      · simp [hz, ho, ih]

/-! ## Maps and filters -/

theorem map_updateFirst_of_find? {β : Type} (g : α → β) (h : xs.find? test = some y)
    (keeps : g (f y) = g y) : (updateFirst test f xs).map g = xs.map g := by
  obtain ⟨before, later, heq, _, hupdate, _⟩ := exists_append_of_find? h
  rw [hupdate, heq]
  simp only [List.map_append, List.map_cons, keeps]

theorem updateFirst_map {β : Type} {test' : β → Bool} {f' : β → β} (g : α → β)
    (keepsTest : ∀ x, test' (g x) = test x) (keeps : ∀ x, f' (g x) = g (f x)) (xs : List α) :
    updateFirst test' f' (xs.map g) = (updateFirst test f xs).map g := by
  induction xs with
  | nil => rfl
  | cons z rest ih =>
    rw [List.map_cons]
    unfold updateFirst
    rw [keepsTest, ih]
    split
    · rw [List.map_cons, keeps]
    · rw [List.map_cons]

theorem filter_updateFirst_of_ne {other : α → Bool} (before : ∀ y, test y = true → other y = false)
    (after : ∀ y, test y = true → other (f y) = false) :
    (updateFirst test f xs).filter other = xs.filter other := by
  induction xs with
  | nil => rfl
  | cons z rest ih =>
    unfold updateFirst
    by_cases hz : test z = true
    · simp [hz, before z hz, after z hz]
    · simp [hz, List.filter_cons, ih]

theorem filter_updateFirst_self {other : α → Bool} (covers : ∀ y, test y = true → other y = true)
    (keeps : ∀ y, other (f y) = other y) :
    (updateFirst test f xs).filter other = updateFirst test f (xs.filter other) := by
  induction xs with
  | nil => rfl
  | cons z rest ih =>
    cases hz : test z with
    | true => simp [updateFirst, hz, keeps, covers z hz]
    | false => cases ho : other z <;> simp [updateFirst, hz, ho, ih]

theorem updateFirst_eq_map (unique : xs.Pairwise fun y z => test y = true → test z = false) :
    updateFirst test f xs = xs.map fun y => if test y then f y else y := by
  induction xs with
  | nil => rfl
  | cons z rest ih =>
    obtain ⟨hz, hrest⟩ := List.pairwise_cons.mp unique
    unfold updateFirst
    rw [List.map_cons]
    split
    · rename_i htest
      congr 1
      refine ((List.map_congr_left fun y hy => ?_).trans (List.map_id rest)).symm
      rw [hz y hy htest]
      rfl
    · rw [ih hrest]

/-! ## Pairs -/

theorem pairwise_updateFirst {R : α → α → Prop} (h : xs.Pairwise R) (finds : xs.find? test = some y)
    (left : ∀ x ∈ xs, R x y → R x (f y)) (right : ∀ x ∈ xs, R y x → R (f y) x) :
    (updateFirst test f xs).Pairwise R := by
  obtain ⟨before, later, rfl, _, hupdate, _⟩ := exists_append_of_find? finds
  rw [hupdate]
  rw [List.pairwise_append, List.pairwise_cons] at h ⊢
  obtain ⟨hbefore, ⟨hafter, hlater⟩, hacross⟩ := h
  refine ⟨hbefore, ⟨fun x hx => right x (by simp [hx]) (hafter x hx), hlater⟩, fun x hx z hz => ?_⟩
  rcases List.mem_cons.mp hz with rfl | hz
  · exact left x (List.mem_append_left _ hx) (hacross x hx y (List.mem_cons_self ..))
  · exact hacross x hx z (List.mem_cons_of_mem _ hz)

/-! ## The element set apart -/

theorem perm_updateFirst (f : α → α) (finds : xs.find? test = some y) :
    (updateFirst test f xs).Perm (f y :: xs.eraseP test) := by
  obtain ⟨before, later, _, _, hupdate, herase⟩ := exists_append_of_find? finds
  rw [hupdate, herase]
  exact List.perm_middle

theorem perm_cons_eraseP (finds : xs.find? test = some y) : xs.Perm (y :: xs.eraseP test) := by
  obtain ⟨before, later, heq, _, _, herase⟩ := exists_append_of_find? finds
  rw [herase, heq]
  exact List.perm_middle

/-! ## One change for another -/

theorem updateFirst_congr {g : α → α} (h : xs.find? test = some y) (same : f y = g y) :
    updateFirst test f xs = updateFirst test g xs := by
  obtain ⟨before, later, _, _, hupdate, _⟩ := exists_append_of_find? h
  rw [hupdate, hupdate, same]

theorem updateFirst_updateFirst {g : α → α} (keeps : ∀ x, test x = true → test (f x) = true)
    (xs : List α) : updateFirst test g (updateFirst test f xs) = updateFirst test (g ∘ f) xs := by
  induction xs with
  | nil => rfl
  | cons z rest ih =>
    by_cases hz : test z = true
    · simp [updateFirst, hz, keeps z hz]
    · simp [updateFirst, hz, ih]

theorem updateFirst_eq_self (h : xs.find? test = some y) (same : f y = y) :
    updateFirst test f xs = xs := by
  obtain ⟨before, later, heq, _, hupdate, _⟩ := exists_append_of_find? h
  rw [hupdate, same, ← heq]

/-! ## Sums -/

theorem sum_filter (g : α → Int) (test : α → Bool) (xs : List α) :
    ((xs.filter test).map g).sum = (xs.map fun x => if test x then g x else 0).sum := by
  induction xs with
  | nil => rfl
  | cons z rest ih =>
    rw [List.map_cons, List.sum_cons, ← ih]
    cases hz : test z <;> simp [hz]

theorem sum_updateFirst (g : α → Int) (h : xs.find? test = some y) :
    ((updateFirst test f xs).map g).sum = (xs.map g).sum - g y + g (f y) := by
  obtain ⟨before, later, heq, _, hupdate, _⟩ := exists_append_of_find? h
  rw [hupdate, heq]
  simp only [List.map_append, List.map_cons, List.sum_append, List.sum_cons]
  omega

theorem sum_eraseP (g : α → Int) (h : xs.find? test = some y) :
    ((xs.eraseP test).map g).sum = (xs.map g).sum - g y := by
  obtain ⟨before, later, heq, _, _, herase⟩ := exists_append_of_find? h
  rw [herase, heq]
  simp only [List.map_append, List.map_cons, List.sum_append, List.sum_cons]
  omega

theorem any_eraseP (h : xs.find? test = some y) {other : α → Bool} (misses : other y = false) :
    (xs.eraseP test).any other = xs.any other := by
  obtain ⟨before, later, heq, _, _, herase⟩ := exists_append_of_find? h
  rw [herase, heq]
  simp only [List.any_append, List.any_cons, misses, Bool.false_or]

end BuyingClub
