import BuyingClub.Proofs.Checked.Amount

/-!
# Rounding in 128 bits

A product of two amounts is divided in 128 bits, which not every integer fits. No step goes beyond
them if both factors fit 64 bits, but for the square of the least of those.
-/

namespace BuyingClub

/-- The range of signed 128-bit numbers. -/
def FitsWide (n : Int) : Prop := -2 ^ 127 ≤ n ∧ n < 2 ^ 127

instance (n : Int) : Decidable (FitsWide n) := inferInstanceAs (Decidable (_ ∧ _))

/-! ## Steps -/

def wide? (n : Int) : Option Int := if FitsWide n then some n else none

/-- The quotient cut towards zero. -/
def divWide? (n d : Int) : Option Int := if d = 0 then none else wide? (n.tdiv d)

/-- One denominator more than `twice`, over twice the denominator. -/
def roundHalfUp? (twice d : Int) : Option Int := do
  let raised ← wide? (twice + d)
  let divisor ← wide? (2 * d)
  divWide? raised divisor

def roundHalfAway? (n d : Int) : Option Int :=
  if 0 ≤ n then do
    let twice ← wide? (2 * n)
    roundHalfUp? twice d
  else do
    let twice ← wide? (-2 * n)
    let quotient ← roundHalfUp? twice d
    wide? (-quotient)

def roundDiv? (n d : Int) : Option Int :=
  if d < 0 then do
    let opposite ← wide? (-n)
    let positive ← wide? (-d)
    roundHalfAway? opposite positive
  else roundHalfAway? n d

/-- `a * b / d` to the nearest integer. -/
def mulDiv? (a b d : Int) : Option Int := do
  let product ← wide? (a * b)
  roundDiv? product d

/-! ## Nothing is lost -/

variable {n d a b : Int}

theorem wide?_of_fits (h : FitsWide n) : wide? n = some n := if_pos h

theorem roundHalfUp_lt (hn : 0 ≤ n) (hn' : n ≤ 2 ^ 126 - 2 ^ 63) (hd : 0 < d) (hd' : d ≤ 2 ^ 63) :
    0 ≤ roundHalfUp n d ∧ roundHalfUp n d < 2 ^ 127 := by
  have hlow := Int.ediv_nonneg (show 0 ≤ 2 * n + d by omega) (show 0 ≤ 2 * d by omega)
  have hhigh := Int.ediv_le_self (2 * d) (show 0 ≤ 2 * n + d by omega)
  unfold roundHalfUp
  omega

theorem roundHalfUp?_eq (hn : 0 ≤ n) (hn' : n ≤ 2 ^ 126 - 2 ^ 63) (hd : 0 < d) (hd' : d ≤ 2 ^ 63) :
    roundHalfUp? (2 * n) d = some (roundHalfUp n d) := by
  have hraised : FitsWide (2 * n + d) := by
    unfold FitsWide
    omega
  have hdivisor : FitsWide (2 * d) := by
    unfold FitsWide
    omega
  have hquotient : FitsWide (roundHalfUp n d) := by
    have hrange := roundHalfUp_lt hn hn' hd hd'
    unfold FitsWide
    omega
  have hne : 2 * d ≠ 0 := by omega
  unfold roundHalfUp? divWide?
  simp only [wide?_of_fits, hraised, hdivisor, hne, if_false, Option.bind_eq_bind, Option.bind_some]
  -- Nothing is negative here, so the quotient is cut downwards.
  rw [Int.tdiv_eq_ediv_of_nonneg (by omega)]
  exact wide?_of_fits hquotient

theorem roundHalfAway?_eq (hn : |n| ≤ 2 ^ 126 - 2 ^ 63) (hd : 0 < d) (hd' : d ≤ 2 ^ 63) :
    roundHalfAway? n d = some (roundHalfAway n d) := by
  obtain ⟨hlow, hhigh⟩ := abs_le.mp hn
  unfold roundHalfAway? roundHalfAway
  split
  · have htwice : FitsWide (2 * n) := by
      unfold FitsWide
      omega
    simp only [wide?_of_fits htwice, Option.bind_eq_bind, Option.bind_some]
    exact roundHalfUp?_eq (by omega) hhigh hd hd'
  · have hneg : -2 * n = 2 * -n := by omega
    have htwice : FitsWide (2 * -n) := by
      unfold FitsWide
      omega
    have hquotient : FitsWide (-roundHalfUp (-n) d) := by
      have hrange := roundHalfUp_lt (show 0 ≤ -n by omega) (by omega) hd hd'
      unfold FitsWide
      omega
    rw [hneg]
    simp only [wide?_of_fits htwice, roundHalfUp?_eq (show 0 ≤ -n by omega) (by omega) hd hd',
      wide?_of_fits hquotient, Option.bind_eq_bind, Option.bind_some]

theorem roundDiv?_eq (hn : |n| ≤ 2 ^ 126 - 2 ^ 63) (hd : d ≠ 0) (hd' : |d| ≤ 2 ^ 63) :
    roundDiv? n d = some (roundDiv n d) := by
  obtain ⟨hlow, hhigh⟩ := abs_le.mp hn
  obtain ⟨hlow', hhigh'⟩ := abs_le.mp hd'
  unfold roundDiv? roundDiv
  split
  · have hopposite : FitsWide (-n) := by
      unfold FitsWide
      omega
    have hpositive : FitsWide (-d) := by
      unfold FitsWide
      omega
    simp only [wide?_of_fits hopposite, wide?_of_fits hpositive, Option.bind_eq_bind,
      Option.bind_some]
    exact roundHalfAway?_eq (by rwa [abs_neg]) (by omega) (by omega)
  · exact roundHalfAway?_eq hn (by omega) hhigh'

theorem abs_mul_le (ha : FitsAmount a) (hb : FitsAmount b) (h : ¬(a = -2 ^ 63 ∧ b = -2 ^ 63)) :
    |a * b| ≤ 2 ^ 126 - 2 ^ 63 := by
  unfold FitsAmount at ha hb
  have ha' : |a| ≤ 2 ^ 63 := abs_le.mpr ⟨by omega, by omega⟩
  have hb' : |b| ≤ 2 ^ 63 := abs_le.mpr ⟨by omega, by omega⟩
  rw [abs_mul]
  rcases Decidable.not_and_iff_or_not.mp h with hne | hne
  · have hsmaller : |a| ≤ 2 ^ 63 - 1 := abs_le.mpr ⟨by omega, by omega⟩
    exact mul_le_mul hsmaller hb' (abs_nonneg b) (by decide)
  · have hsmaller : |b| ≤ 2 ^ 63 - 1 := abs_le.mpr ⟨by omega, by omega⟩
    exact mul_le_mul ha' hsmaller (abs_nonneg b) (by decide)

theorem mulDiv?_eq (ha : FitsAmount a) (hb : FitsAmount b) (h : ¬(a = -2 ^ 63 ∧ b = -2 ^ 63))
    (hd : d ≠ 0) (hd' : FitsAmount d) : mulDiv? a b d = some (roundDiv (a * b) d) := by
  have hmost := abs_mul_le ha hb h
  have hproduct : FitsWide (a * b) := by
    obtain ⟨hlow, hhigh⟩ := abs_le.mp hmost
    unfold FitsWide
    omega
  unfold FitsAmount at hd'
  unfold mulDiv?
  simp only [wide?_of_fits hproduct, Option.bind_eq_bind, Option.bind_some]
  exact roundDiv?_eq hmost hd (abs_le.mpr ⟨by omega, by omega⟩)

/-! ## Shares and prices -/

theorem Quantity.IsFit.mulDiv?_eq {q part whole : Quantity} (hq : q.IsFit) (hpart : part.IsFit)
    (hwhole : whole.IsFit) (hpos : 0 < whole) :
    mulDiv? q.hundredths part.hundredths whole.hundredths =
      some (roundDiv (q.hundredths * part.hundredths) whole.hundredths) := by
  have hlow := hq.1
  have hpos : 0 < whole.hundredths := hpos
  exact BuyingClub.mulDiv?_eq hq.fits hpart.fits (by omega) hpos.ne' hwhole.fits

theorem Quantity.scale_le_scale {q q' part part' whole : Quantity} (hq : q.IsFit) (hq' : q'.IsFit)
    (hpart : 0 ≤ part) (hle : part' ≤ whole) (hpos : 0 < whole) (less : q ≤ q')
    (smaller : part ≤ part') : q.scale part whole ≤ q'.scale part' whole := by
  have hpart' : 0 ≤ part' := Int.le_trans hpart smaller
  obtain ⟨hshare, _⟩ := hundredths_scale hq.1 hq.fits hpart (Int.le_trans smaller hle) hpos
  obtain ⟨hshare', _⟩ := hundredths_scale hq'.1 hq'.fits hpart' hle hpos
  rw [le_def, hshare, hshare']
  exact roundDiv_le_roundDiv hpos (Int.mul_le_mul less smaller hpart hq'.1)

/-- Of a numerator that is as large as products of two amounts are but for the square of the least,
and of a denominator that is as large as amounts are, the quotient to the nearest integer is
computed in 128 bits. A half goes away from zero, so rounding goes along with signs, and it goes
along with the order. A part of a whole takes of a quantity the share nearest to its ratio, which is
no less than nothing, no more than the quantity, and no less than that of a smaller quantity or
part. -/
theorem rounding_exact :
    (∀ n d : Int, d ≠ 0 → |n| ≤ 2 ^ 126 - 2 ^ 63 → |d| ≤ 2 ^ 63 →
      roundDiv? n d = some (roundDiv n d) ∧ IsNearestAway (n / d) (roundDiv n d) ∧
        roundDiv (-n) d = -roundDiv n d ∧ roundDiv n (-d) = -roundDiv n d) ∧
      (∀ a b : Int, FitsAmount a → FitsAmount b → ¬(a = -2 ^ 63 ∧ b = -2 ^ 63) →
        |a * b| ≤ 2 ^ 126 - 2 ^ 63) ∧
      (∀ n m d : Int, 0 < d → n ≤ m → roundDiv n d ≤ roundDiv m d) ∧
      ∀ q part whole : Quantity, q.IsFit → part.IsFit → whole.IsFit → part ≤ whole → 0 < whole →
        mulDiv? q.hundredths part.hundredths whole.hundredths =
            some (q.scale part whole).hundredths ∧
          IsNearestAway (q.hundredths * part.hundredths / whole.hundredths)
            (q.scale part whole).hundredths ∧
          0 ≤ q.scale part whole ∧ q.scale part whole ≤ q ∧
          ∀ q' part' : Quantity, q'.IsFit → part'.IsFit → q' ≤ q → part' ≤ part →
            q'.scale part' whole ≤ q.scale part whole := by
  refine ⟨?_, fun a b => abs_mul_le, fun n m d => roundDiv_le_roundDiv, ?_⟩
  · intro n d hd hn hd'
    exact ⟨roundDiv?_eq hn hd hd', roundDiv_isNearestAway n hd, roundDiv_neg_left n hd,
      roundDiv_neg_right n hd⟩
  · intro q part whole hq hpart hwhole hle hpos
    obtain ⟨hshare, hlow, hhigh⟩ := Quantity.hundredths_scale hq.1 hq.fits hpart.1 hle hpos
    refine ⟨?_, ?_, hlow, hhigh, ?_⟩
    · rw [hshare]
      exact hq.mulDiv?_eq hpart hwhole hpos
    · have hpos : 0 < whole.hundredths := hpos
      have hnearest := roundDiv_isNearestAway (q.hundredths * part.hundredths) hpos.ne'
      rw [hshare]
      rwa [Int.cast_mul] at hnearest
    · intro q' part' hq' hpart' less smaller
      exact Quantity.scale_le_scale hq' hq hpart'.1 hle hpos less smaller

/-- The largest negative numerator over the largest denominator, and halves on both sides of
zero. -/
theorem rounding_exact_at_the_ends :
    roundDiv? (-(2 ^ 126 - 2 ^ 63)) (-2 ^ 63) = some (2 ^ 63 - 1) ∧
      roundDiv? (-7) 2 = some (-4) ∧ IsNearestAway ((-7 : Int) / (2 : Int)) (-4) ∧
      mulDiv? (2 ^ 63 - 1) 1 2 = some (2 ^ 62) := by
  obtain ⟨hrounds, _, _, hscales⟩ := rounding_exact
  obtain ⟨hlarge, _⟩ := hrounds (-(2 ^ 126 - 2 ^ 63)) (-2 ^ 63) (by decide) (by decide) (by decide)
  obtain ⟨hhalf, hnearest, _⟩ := hrounds (-7) 2 (by decide) (by decide) (by decide)
  obtain ⟨hshare, _⟩ := hscales ⟨2 ^ 63 - 1⟩ ⟨1⟩ ⟨2⟩ ⟨by decide, by decide⟩ ⟨by decide, by decide⟩
    ⟨by decide, by decide⟩ (by decide) (by decide)
  exact ⟨hlarge, hhalf, hnearest, hshare⟩

end BuyingClub
