import BuyingClub.Rounding

/-!
# Double-precision numbers

A finite double is a whole number of the smallest positive one, `2⁻¹⁰⁷⁴`, with a sign. Products
and quotients are exact ratios of naturals, rounded once to the nearest double with ties to even.
-/

namespace BuyingClub

-- Powers are those of the core library, also where Mathlib brings its own.
@[default_instance 20000]
instance (priority := 20000) corePow {α : Type} [NatPow α] : Pow α Nat := instPowNat

/-! ## Magnitudes -/

/-- A natural number that 53 significant bits can hold below `2²⁰⁹⁸`. -/
def Representable (units : Nat) : Prop :=
  ∃ m e, m < 2 ^ 53 ∧ e ≤ 2045 ∧ units = m * 2 ^ e

/-- The absolute value of a finite double, counted in units of `2⁻¹⁰⁷⁴`. -/
structure Magnitude where
  units : Nat
  representable : Representable units
deriving DecidableEq

namespace Magnitude

/-- The number of units in one. -/
def one : Nat := 2 ^ 1074

instance : Zero Magnitude := ⟨0, 0, 0, by decide, by decide, by decide⟩

/-- How far the last of the 53 significant bits of `x` stands above the units. -/
def scale (x : Nat) : Nat := x.log2 - 52

/-- The magnitude nearest to `n / d` units, ties to even; nothing beyond the largest one. -/
def ofRatio? (n d : Nat) : Option Magnitude :=
  let e := scale (n / d)
  let m := roundDivEven n (d * 2 ^ e)
  if h : m < 2 ^ 53 ∧ e ≤ 2045 then
    some ⟨m * 2 ^ e, m, e, h.1, h.2, rfl⟩
  else if h : m = 2 ^ 53 ∧ e < 2045 then
    some ⟨m * 2 ^ e, 2 ^ 52, e + 1, by decide, by omega, by
      rw [h.1, Nat.pow_succ 2 e]; omega⟩
  else none

end Magnitude

/-! ## Signed numbers -/

inductive Binary64 where
  | nan
  | infinite (negative : Bool)
  | finite (negative : Bool) (magnitude : Magnitude)
deriving DecidableEq

namespace Binary64

/-- The double nearest to `n / d` units with the given sign, or infinity. -/
def ofRatio (negative : Bool) (n d : Nat) : Binary64 :=
  match Magnitude.ofRatio? n d with
  | some m => finite negative m
  | none => infinite negative

def ofInt (n : Int) : Binary64 :=
  ofRatio (decide (n < 0)) (n.natAbs * Magnitude.one) 1

/-- The double nearest to `± digits · 10 ^ exponent`. Far outside the range of doubles the power of
ten is not computed. -/
def ofDecimal (negative : Bool) (digits : Nat) (exponent : Int) : Binary64 :=
  let size := (Nat.toDigits 10 digits).length + exponent
  if digits = 0 ∨ size < -400 then finite negative 0
  else if 400 < size then infinite negative
  else ofRatio negative (digits * 10 ^ exponent.toNat * Magnitude.one) (10 ^ (-exponent).toNat)

/-- The quotient by a positive natural number. -/
def divNat : Binary64 → Nat → Binary64
  | nan, _ => nan
  | infinite s, _ => infinite s
  | finite s x, d => ofRatio s x.units d

/-- The product; zero times infinity is not a number. -/
def mul : Binary64 → Binary64 → Binary64
  | nan, _ => nan
  | _, nan => nan
  | infinite s, infinite t => infinite (s != t)
  | infinite s, finite t y => if y.units = 0 then nan else infinite (s != t)
  | finite s x, infinite t => if x.units = 0 then nan else infinite (s != t)
  | finite s x, finite t y => ofRatio (s != t) (x.units * y.units) Magnitude.one

/-! ## Bits -/

/-- The exponent field and the 52 stored bits of a magnitude, as one number. -/
def magnitudeBits (x : Magnitude) : Nat :=
  if x.units < 2 ^ 52 then x.units
  else
    let e := Magnitude.scale x.units
    (e + 1) * 2 ^ 52 + (x.units / 2 ^ e - 2 ^ 52)

/-- The sign bit, when set. -/
def signBit (negative : Bool) : Nat := if negative then 2 ^ 63 else 0

/-- The bits of the interchange format; one pattern stands for all that is not a number. -/
def bits : Binary64 → Nat
  | nan => 0x7ff8000000000000
  | infinite s => signBit s + 0x7ff0000000000000
  | finite s x => signBit s + magnitudeBits x

end Binary64

end BuyingClub
