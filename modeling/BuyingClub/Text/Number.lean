import BuyingClub.Binary64

/-!
# Reading numbers

Whole numbers are ASCII digits after an optional plus. Decimal numbers are an optional sign and
digits with an optional point on either side of them and an optional exponent, or one of the words
for infinity and for what is not a number, in any case.
-/

namespace BuyingClub

def digitValue (c : Char) : Nat := c.toNat - '0'.toNat

def digitsValue (digits : List Char) : Nat :=
  digits.foldl (fun n c => 10 * n + digitValue c) 0

/-- The digits that `text` opens with, and the rest. -/
def splitDigits (text : List Char) : List Char × List Char :=
  text.span Char.isDigit

/-- A number of 64 bits. -/
def readCount? (text : List Char) : Option Nat :=
  let digits := match text with
    | '+' :: rest => rest
    | _ => text
  if digits ≠ [] && digits.all Char.isDigit && digitsValue digits < 2 ^ 64 then
    some (digitsValue digits)
  else none

/-- Whether there is a minus, and the text after the sign. -/
def splitSign : List Char → Bool × List Char
  | '-' :: rest => (true, rest)
  | '+' :: rest => (false, rest)
  | text => (false, text)

/-- The exponent that is all of `text`; zero for no text. -/
def readExponent? : List Char → Option Int
  | [] => some 0
  | c :: rest =>
    if c = 'e' ∨ c = 'E' then
      let (negative, digits) := splitSign rest
      if digits ≠ [] && digits.all Char.isDigit then
        some (if negative then -(digitsValue digits : Int) else digitsValue digits)
      else none
    else none

namespace Binary64

/-- An unsigned number in digits, given the sign before it. -/
def readDigits? (negative : Bool) (text : List Char) : Option Binary64 :=
  let (whole, rest) := splitDigits text
  let (fraction, rest) := match rest with
    | '.' :: after => splitDigits after
    | _ => ([], rest)
  if whole = [] && fraction = [] then none
  else (readExponent? rest).map fun e =>
    ofDecimal negative (digitsValue (whole ++ fraction)) (e - fraction.length)

def read? (text : List Char) : Option Binary64 :=
  let (negative, rest) := splitSign text
  let word := String.ofList (rest.map Char.toLower)
  if word = "inf" || word = "infinity" then some (infinite negative)
  else if word = "nan" then some nan
  else readDigits? negative rest

end Binary64

end BuyingClub
