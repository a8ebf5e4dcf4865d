import BuyingClub.Proofs.Amount

/-!
# Checked amounts

The operations on amounts as they are done in 64 bits: a result that does not fit is no result.
-/

namespace BuyingClub

theorem mapM_eq_some {α β : Type} {f : α → Option β} {g : α → β} {xs : List α}
    (h : ∀ x ∈ xs, f x = some (g x)) : xs.mapM f = some (xs.map g) := by
  induction xs with
  | nil => rfl
  | cons x rest ih =>
    obtain ⟨hx, hrest⟩ := List.forall_mem_cons.mp h
    rw [List.mapM_cons, hx, ih hrest]
    rfl

/-! ## Hundredths -/

namespace Hundredths

def fit? (n : Int) : Option Int := if FitsAmount n then some n else none

/-- The sum, if it fits and so does every sum on the way to it. -/
def sum? (ns : List Int) : Option Int := ns.foldlM (fun total n => fit? (total + n)) 0

theorem fit?_of_fits {n : Int} (h : FitsAmount n) : fit? n = some n := if_pos h

theorem foldlM_fit? {ns : List Int} {total : Int} (start : 0 ≤ total) (nonneg : ∀ n ∈ ns, 0 ≤ n)
    (fits : FitsAmount (total + ns.sum)) :
    ns.foldlM (fun total n => fit? (total + n)) total = some (total + ns.sum) := by
  induction ns generalizing total with
  | nil => simp
  | cons n rest ih =>
    have hn := nonneg n List.mem_cons_self
    have hrest : ∀ m ∈ rest, 0 ≤ m := fun m hm => nonneg m (List.mem_cons_of_mem _ hm)
    have hsum : 0 ≤ rest.sum := List.sum_nonneg hrest
    rw [List.sum_cons, ← Int.add_assoc] at fits ⊢
    have hstep : FitsAmount (total + n) := by
      unfold FitsAmount at fits ⊢
      omega
    rw [List.foldlM_cons, fit?_of_fits hstep]
    exact ih (by omega) hrest fits

theorem sum?_of_fits {ns : List Int} (nonneg : ∀ n ∈ ns, 0 ≤ n) (fits : FitsAmount ns.sum) :
    sum? ns = some ns.sum := by
  unfold sum?
  rw [foldlM_fit? (Int.le_refl 0) nonneg] <;> rw [Int.zero_add]
  exact fits

theorem fit?_eq_some_iff {n m : Int} : fit? n = some m ↔ m = n ∧ FitsAmount n := by
  unfold fit?
  split
  · rename_i h
    simp [h, eq_comm]
  · rename_i h
    simp [h]

theorem sum?_append_singleton (ns : List Int) (n : Int) :
    sum? (ns ++ [n]) = (sum? ns).bind fun total => fit? (total + n) := by
  unfold sum?
  rw [List.foldlM_append]
  cases ns.foldlM (fun total n => fit? (total + n)) 0 with
  | none => rfl
  | some total => simp

theorem of_sum? {ns : List Int} {total : Int} (h : sum? ns = some total) :
    total = ns.sum ∧ FitsAmount total := by
  induction ns using List.reverseRecOn generalizing total with
  | nil =>
    cases h
    decide
  | append_singleton rest n ih =>
    rw [sum?_append_singleton] at h
    obtain ⟨before, hbefore, hfit⟩ := Option.bind_eq_some_iff.mp h
    obtain ⟨rfl, hfits⟩ := fit?_eq_some_iff.mp hfit
    obtain ⟨rfl, _⟩ := ih hbefore
    simp [hfits]

end Hundredths

/-! ## Quantities -/

namespace Quantity

def fit? (q : Quantity) : Option Quantity := (Hundredths.fit? q.hundredths).map (⟨·⟩)

def add? (a b : Quantity) : Option Quantity := (a + b).fit?

def sub? (a b : Quantity) : Option Quantity := (a - b).fit?

def abs? (q : Quantity) : Option Quantity := q.abs.fit?

def sum? (qs : List Quantity) : Option Quantity :=
  (Hundredths.sum? (qs.map (·.hundredths))).map (⟨·⟩)

/-- The quotient as it is, with no bits cut off. -/
def scale? (q part whole : Quantity) : Option Quantity :=
  if whole = 0 then some 0
  else fit? ⟨roundDiv (q.hundredths * part.hundredths) whole.hundredths⟩

/-- A quantity that fits and is not negative. -/
def IsFit (q : Quantity) : Prop := 0 ≤ q.hundredths ∧ q.hundredths < 2 ^ 63

variable {a b : Quantity}

theorem IsFit.fits (h : a.IsFit) : FitsAmount a.hundredths := by
  unfold IsFit at h
  unfold FitsAmount
  omega

theorem fit?_of_fits (h : FitsAmount a.hundredths) : a.fit? = some a := by
  unfold fit?
  rw [Hundredths.fit?_of_fits h]
  rfl

theorem add?_of_isFit (h : (a + b).IsFit) : a.add? b = some (a + b) := fit?_of_fits h.fits

example : add? ⟨2 ^ 63 - 1⟩ ⟨1⟩ = none := by decide

theorem sub?_of_isFit (ha : a.IsFit) (hb : b.IsFit) : a.sub? b = some (a - b) := by
  -- It fits on either side of zero.
  apply fit?_of_fits
  unfold IsFit at ha hb
  rw [hundredths_sub]
  unfold FitsAmount
  omega

theorem isFit_abs_sub (ha : a.IsFit) (hb : b.IsFit) : (a - b).abs.IsFit := by
  have habs : (a - b).abs.hundredths = (a.hundredths - b.hundredths).natAbs := rfl
  unfold IsFit at ha hb ⊢
  omega

theorem abs?_of_isFit (h : a.abs.IsFit) : a.abs? = some a.abs := fit?_of_fits h.fits

theorem sum?_of_isFit {qs : List Quantity} (nonneg : ∀ q ∈ qs, 0 ≤ q) (fits : qs.sum.IsFit) :
    sum? qs = some qs.sum := by
  have hfits := fits.fits
  rw [hundredths_sum] at hfits
  have hsum : Hundredths.sum? (qs.map (·.hundredths)) = some (qs.map (·.hundredths)).sum := by
    refine Hundredths.sum?_of_fits (fun n hn => ?_) hfits
    obtain ⟨q, hq, rfl⟩ := List.mem_map.mp hn
    exact nonneg q hq
  unfold sum?
  rw [hsum, ← hundredths_sum]
  rfl

theorem fit?_eq_some_iff {a b : Quantity} : a.fit? = some b ↔ b = a ∧ FitsAmount a.hundredths := by
  unfold fit?
  rw [Option.map_eq_some_iff]
  constructor
  · rintro ⟨n, hn, rfl⟩
    obtain ⟨rfl, hfits⟩ := Hundredths.fit?_eq_some_iff.mp hn
    exact ⟨rfl, hfits⟩
  · rintro ⟨rfl, hfits⟩
    exact ⟨_, Hundredths.fit?_of_fits hfits, rfl⟩

theorem of_sum? {qs : List Quantity} {total : Quantity} (h : sum? qs = some total) :
    total = qs.sum ∧ FitsAmount total.hundredths := by
  obtain ⟨n, hn, rfl⟩ := Option.map_eq_some_iff.mp h
  obtain ⟨rfl, hfits⟩ := Hundredths.of_sum? hn
  rw [← hundredths_sum] at hfits ⊢
  exact ⟨rfl, hfits⟩

theorem sum?_append_singleton_iff {qs : List Quantity} {q : Quantity} :
    (sum? (qs ++ [q])).isSome = true ↔
      (sum? qs).isSome = true ∧ FitsAmount (qs.sum + q).hundredths := by
  unfold sum?
  rw [List.map_append, List.map_singleton, Hundredths.sum?_append_singleton]
  cases h : Hundredths.sum? (qs.map (·.hundredths)) with
  | none => simp
  | some total =>
    obtain ⟨rfl, _⟩ := Hundredths.of_sum? h
    rw [hundredths_add, hundredths_sum]
    simp [Hundredths.fit?]

theorem scale?_of_short {q part whole : Quantity} (hq : q.IsFit) (hpart : 0 ≤ part)
    (hshort : part < whole) : q.scale? part whole = some (q.scale part whole) := by
  obtain ⟨hquotient, hlow, hhigh⟩ := hundredths_scale_of_lt hq.1 hq.fits hpart hshort
  have hne : whole ≠ 0 := by
    rintro rfl
    exact Int.not_lt.mpr hpart hshort
  have hscaled : (q.scale part whole).IsFit := by
    simp only [le_def, hundredths_zero] at hlow hhigh
    unfold IsFit at hq ⊢
    omega
  unfold scale?
  rw [if_neg hne, ← hquotient]
  exact fit?_of_fits hscaled.fits

end Quantity

/-! ## Money -/

namespace Money

def sum? (ms : List Money) : Option Money :=
  (Hundredths.sum? (ms.map (·.cents))).map (⟨·⟩)

theorem cents_sum (ms : List Money) : ms.sum.cents = (ms.map (·.cents)).sum := by
  induction ms with
  | nil => rfl
  | cons m rest ih => simp [ih]

theorem sum?_of_le {ms : List Money} {bound : Int} {count : Nat} (nonneg : ∀ m ∈ ms, 0 ≤ m)
    (le : ∀ m ∈ ms, m.cents ≤ bound) (length_le : ms.length ≤ count)
    (fits : FitsAmount (count * bound)) (hbound : 0 ≤ bound) : sum? ms = some ms.sum := by
  have hnonneg : ∀ n ∈ ms.map (·.cents), 0 ≤ n := by
    intro n hn
    obtain ⟨m, hm, rfl⟩ := List.mem_map.mp hn
    exact nonneg m hm
  have hle : (ms.map (·.cents)).sum ≤ ms.length * bound := by
    have hsum := List.sum_le_card_nsmul (ms.map (·.cents)) bound fun n hn => by
      obtain ⟨m, hm, rfl⟩ := List.mem_map.mp hn
      exact le m hm
    simpa using hsum
  have hcount : (ms.length : Int) * bound ≤ count * bound :=
    Int.mul_le_mul_of_nonneg_right (by omega) hbound
  have hfits : FitsAmount (ms.map (·.cents)).sum := by
    have hlow := List.sum_nonneg hnonneg
    unfold FitsAmount at fits ⊢
    omega
  unfold sum?
  rw [Hundredths.sum?_of_fits hnonneg hfits, ← cents_sum]
  rfl

end Money

end BuyingClub
