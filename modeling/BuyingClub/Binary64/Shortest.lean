import BuyingClub.Binary64

/-!
# Shortest decimal text

A double is written with the fewest digits that read back as it, without an exponent. Among the
decimals with that many digits it is the nearest one, and of two equally near ones the greater.
-/

namespace BuyingClub

/-- The decimal `coefficient · 10 ^ exponent`. -/
structure Decimal where
  coefficient : Nat
  exponent : Int
deriving DecidableEq

namespace Decimal

def digitsText (n : Nat) : List Char := Nat.toDigits 10 n

/-- All digits, without an exponent; a point only if digits follow it. -/
def positional (d : Decimal) : List Char :=
  let digits := digitsText d.coefficient
  if 0 ≤ d.exponent then
    digits ++ List.replicate d.exponent.toNat '0'
  else
    let places := (-d.exponent).toNat
    let padded := List.replicate (places + 1 - digits.length) '0' ++ digits
    let whole := padded.length - places
    padded.take whole ++ '.' :: padded.drop whole

end Decimal

namespace Magnitude

/-! ## The numbers that read back

Bounds are counted in quarters of a unit, where both ends of the interval are whole.
-/

/-- The least number that rounds to `x`, or the midpoint below it. -/
def lowerEnd (x : Magnitude) : Nat :=
  let e := scale x.units
  if x.units = 2 ^ (52 + e) ∧ 0 < e then 4 * x.units - 2 ^ e else 4 * x.units - 2 * 2 ^ e

/-- The midpoint above `x`. -/
def upperEnd (x : Magnitude) : Nat :=
  4 * x.units + 2 * 2 ^ scale x.units

/-- Whether the midpoints on both sides round to `x`: its last bit is zero. -/
def endsIncluded (x : Magnitude) : Bool :=
  x.units / 2 ^ scale x.units % 2 = 0

/-- Whether `n / d` quarters of a unit round to `x`. -/
def readsBack (x : Magnitude) (n d : Nat) : Bool :=
  if x.endsIncluded then x.lowerEnd * d ≤ n && n ≤ x.upperEnd * d
  else x.lowerEnd * d < n && n < x.upperEnd * d

/-! ## The grid of multiples of a power of ten -/

/-- `10 ^ p` in quarters of a unit, as a numerator and a denominator. -/
def gridStep (p : Int) : Nat × Nat :=
  (10 ^ p.toNat * (4 * one), 10 ^ (-p).toNat)

/-- The multiple of `10 ^ p` nearest to `x` among the neighbours of `x` that read back as it. -/
def onGrid? (x : Magnitude) (p : Int) : Option Nat :=
  let (step, d) := gridStep p
  let value := 4 * x.units * d
  let below := value / step
  let low := below ≠ 0 && x.readsBack (below * step) d
  let high := x.readsBack ((below + 1) * step) d
  if low && high then
    if value - below * step < (below + 1) * step - value then some below else some (below + 1)
  else if low then some below
  else if high then some (below + 1)
  else none

/-- The exponents of ten from `308` down to `-324`, between which every double has its last
digit. -/
def exponents : List Int :=
  (List.range 633).map fun k : Nat => 308 - (k : Int)

/-- The decimal on the coarsest grid that has one reading back as `x`. -/
def shortest (x : Magnitude) : Decimal :=
  if x.units = 0 then ⟨0, 0⟩
  else
    (exponents.findSome? fun p => (x.onGrid? p).map (⟨·, p⟩)).getD ⟨0, 0⟩

end Magnitude

/-! ## Text -/

namespace Binary64

def signText (negative : Bool) : String := if negative then "-" else ""

def text : Binary64 → String
  | nan => "NaN"
  | infinite s => signText s ++ "inf"
  | finite s x => signText s ++ String.ofList x.shortest.positional

end Binary64

end BuyingClub
