import BuyingClub.Binary64.Shortest

/-!
# Quantities and money

Both are whole numbers of hundredths, so that what is split adds up again exactly. Decimal input is
taken only if it has at most two places.
-/

namespace BuyingClub

/-! ## Hundredths -/

/-- Why a decimal number is no amount. -/
inductive AmountDefect where
  | notFinite
  | tooFine (value : Binary64)
  | outOfRange (value : Binary64)
deriving DecidableEq

def AmountDefect.message : AmountDefect → String
  | notFinite => "value is not a finite number"
  | tooFine value => value.text ++ " has more than two decimal places"
  | outOfRange value => value.text ++ " is out of range"

/-- The range of signed 64-bit numbers. -/
def FitsAmount (n : Int) : Prop := -2 ^ 63 ≤ n ∧ n < 2 ^ 63

instance (n : Int) : Decidable (FitsAmount n) := inferInstanceAs (Decidable (_ ∧ _))

namespace Hundredths

/-- How far a hundredfold may lie from a whole number: the double nearest to a millionth, in
units. -/
def tolerance : Nat := ((Magnitude.ofRatio? Magnitude.one 1000000).map (·.units)).getD 0

/-- The largest hundredfold, in units. -/
def largest : Nat := 2 ^ 62 * Magnitude.one

/-- The whole number nearest to `x`, a half upwards. -/
def nearestWhole (x : Magnitude) : Nat :=
  (2 * x.units + Magnitude.one) / (2 * Magnitude.one)

/-- The distance of `x` from the nearest whole number, in units. It has at most as many significant
bits as `x`, so a subtraction of doubles gives it exactly. -/
def distanceToWhole (x : Magnitude) : Nat :=
  let whole := nearestWhole x * Magnitude.one
  if whole ≤ x.units then x.units - whole else whole - x.units

/-- The hundredths of a decimal number. The hundredfold is rounded as a product of doubles before it
is compared with a whole number: `1.15` times a hundred lands just below `115`. -/
def ofBinary64 (value : Binary64) : Except AmountDefect Int :=
  match value with
  | .finite negative x =>
    match Magnitude.ofRatio? (x.units * 100) 1 with
    | none => .error (.outOfRange value)
    | some scaled =>
      if largest < scaled.units then .error (.outOfRange value)
      else if tolerance < distanceToWhole scaled then .error (.tooFine value)
      else .ok (if negative then -(nearestWhole scaled : Int) else nearestWhole scaled)
  | _ => .error .notFinite

/-- The double nearest to a hundredth of the double nearest to `n`. -/
def toBinary64 (n : Int) : Binary64 :=
  (Binary64.ofInt n).divNat 100

/-- Two places after the point, always. -/
def text (n : Int) : String :=
  let sign := if n < 0 then "-" else ""
  let cents := n.natAbs % 100
  sign ++ toString (n.natAbs / 100) ++ "." ++ toString (cents / 10) ++ toString (cents % 10)

end Hundredths

/-! ## Quantities -/

/-- A quantity of goods. Bids are never negative; differences between quantities may be. -/
@[ext]
structure Quantity where
  hundredths : Int
deriving DecidableEq

namespace Quantity

instance : Inhabited Quantity := ⟨⟨0⟩⟩
instance : Zero Quantity := ⟨⟨0⟩⟩
instance : Add Quantity := ⟨fun a b => ⟨a.hundredths + b.hundredths⟩⟩
instance : Sub Quantity := ⟨fun a b => ⟨a.hundredths - b.hundredths⟩⟩
instance : Neg Quantity := ⟨fun a => ⟨-a.hundredths⟩⟩
instance : LE Quantity := ⟨fun a b => a.hundredths ≤ b.hundredths⟩
instance : LT Quantity := ⟨fun a b => a.hundredths < b.hundredths⟩
instance (a b : Quantity) : Decidable (a ≤ b) := inferInstanceAs (Decidable (_ ≤ (_ : Int)))
instance (a b : Quantity) : Decidable (a < b) := inferInstanceAs (Decidable (_ < (_ : Int)))
instance : Min Quantity := ⟨fun a b => if a ≤ b then a else b⟩
instance : Max Quantity := ⟨fun a b => if a ≤ b then b else a⟩

@[simp] theorem hundredths_zero : (0 : Quantity).hundredths = 0 := rfl

@[simp] theorem hundredths_add (a b : Quantity) :
    (a + b).hundredths = a.hundredths + b.hundredths := rfl

@[simp] theorem hundredths_sub (a b : Quantity) :
    (a - b).hundredths = a.hundredths - b.hundredths := rfl

@[simp] theorem hundredths_neg (a : Quantity) : (-a).hundredths = -a.hundredths := rfl

theorem le_def (a b : Quantity) : a ≤ b ↔ a.hundredths ≤ b.hundredths := Iff.rfl

theorem lt_def (a b : Quantity) : a < b ↔ a.hundredths < b.hundredths := Iff.rfl

/-- Whole units. -/
def units (n : Int) : Quantity := ⟨n * 100⟩

def abs (q : Quantity) : Quantity := ⟨q.hundredths.natAbs⟩

def ofBinary64 (value : Binary64) : Except AmountDefect Quantity :=
  (Hundredths.ofBinary64 value).map (⟨·⟩)

def toBinary64 (q : Quantity) : Binary64 := Hundredths.toBinary64 q.hundredths

def text (q : Quantity) : String := Hundredths.text q.hundredths

/-- `q * part / whole`, divided last and rounded to the nearest hundredth; zero if `whole` is. A
result outside 64 bits keeps its low 64 bits. -/
def scale (q part whole : Quantity) : Quantity :=
  if whole = 0 then 0
  else ⟨(roundDiv (q.hundredths * part.hundredths) whole.hundredths).bmod (2 ^ 64)⟩

end Quantity

/-! ## Money -/

/-- An amount of money, in cents. -/
@[ext]
structure Money where
  cents : Int
deriving DecidableEq

namespace Money

instance : Inhabited Money := ⟨⟨0⟩⟩
instance : Zero Money := ⟨⟨0⟩⟩
instance : Add Money := ⟨fun a b => ⟨a.cents + b.cents⟩⟩
instance : LE Money := ⟨fun a b => a.cents ≤ b.cents⟩
instance : LT Money := ⟨fun a b => a.cents < b.cents⟩
instance (a b : Money) : Decidable (a ≤ b) := inferInstanceAs (Decidable (_ ≤ (_ : Int)))
instance (a b : Money) : Decidable (a < b) := inferInstanceAs (Decidable (_ < (_ : Int)))

@[simp] theorem cents_zero : (0 : Money).cents = 0 := rfl

@[simp] theorem cents_add (a b : Money) : (a + b).cents = a.cents + b.cents := rfl

theorem le_def (a b : Money) : a ≤ b ↔ a.cents ≤ b.cents := Iff.rfl

theorem lt_def (a b : Money) : a < b ↔ a.cents < b.cents := Iff.rfl

def ofBinary64 (value : Binary64) : Except AmountDefect Money :=
  (Hundredths.ofBinary64 value).map (⟨·⟩)

def toBinary64 (m : Money) : Binary64 := Hundredths.toBinary64 m.cents

def text (m : Money) : String := Hundredths.text m.cents

/-- What `quantity` costs at this price per unit, to the nearest cent. -/
def times (price : Money) (quantity : Quantity) : Except AmountDefect Money :=
  let cents := roundDiv (price.cents * quantity.hundredths) 100
  if FitsAmount cents then .ok ⟨cents⟩
  else .error (.outOfRange (price.toBinary64.mul quantity.toBinary64))

end Money

end BuyingClub
