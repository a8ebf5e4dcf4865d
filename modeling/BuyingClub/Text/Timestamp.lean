import BuyingClub.Instant
import BuyingClub.Text.Number

/-!
# Timestamps

Instants as dates of the Gregorian calendar with a time of day in universal time, such as
`2024-02-29T12:34:56Z`.
-/

namespace BuyingClub

/-! ## The calendar -/

structure Date where
  year : Int
  month : Nat
  day : Nat
deriving DecidableEq

namespace Date

/-- The days from the first of March to the first day of a month. Years are counted from March, so
that a leap day is their last day. -/
def daysBefore (month : Nat) : Int :=
  (153 * ((month + 9) % 12 : Nat) + 2) / 5

/-- The days from the start of 1970. -/
def toDays (d : Date) : Int :=
  let year := if d.month ≤ 2 then d.year - 1 else d.year
  365 * year + year / 4 - year / 100 + year / 400 + daysBefore d.month + d.day - 719469

def ofDays (days : Int) : Date :=
  let shifted := days + 719468
  let era := shifted / 146097
  let dayOfEra := shifted % 146097
  let yearOfEra := (dayOfEra - dayOfEra / 1460 + dayOfEra / 36524 - dayOfEra / 146096) / 365
  let dayOfYear := dayOfEra - (365 * yearOfEra + yearOfEra / 4 - yearOfEra / 100)
  let monthFromMarch := (5 * dayOfYear + 2) / 153
  let month := (monthFromMarch + 2) % 12 + 1
  { year := era * 400 + yearOfEra + (if month ≤ 2 then 1 else 0)
    month := month.toNat
    day := (dayOfYear - (153 * monthFromMarch + 2) / 5 + 1).toNat }

end Date

/-- A time of day. The second `60` of a minute is its leap second. -/
structure TimeOfDay where
  hour : Nat
  minute : Nat
  second : Nat
deriving DecidableEq

def TimeOfDay.isValid (t : TimeOfDay) : Bool :=
  t.hour < 24 && t.minute < 60 && t.second ≤ 60

namespace Instant

def date (t : Instant) : Date := .ofDays (t.seconds / 86400)

def timeOfDay (t : Instant) : TimeOfDay :=
  let second := (t.seconds % 86400).toNat
  { hour := second / 3600
    minute := second / 60 % 60
    second := second % 60 + (if t.isLeap then 1 else 0) }

def ofDateTime (date : Date) (time : TimeOfDay) : Instant :=
  let minute := 60 * (24 * date.toDays + time.hour) + time.minute
  if time.second = 60 then leapSecondOf minute else ofSeconds (60 * minute + time.second)

end Instant

/-! ## Text -/

/-- The digits of `n` with zeros before them up to a width. -/
def paddedDigits (width n : Nat) : List Char :=
  let digits := Nat.toDigits 10 n
  List.replicate (width - digits.length) '0' ++ digits

/-- Four digits, or a sign and more. -/
def yearText (year : Int) : List Char :=
  let digits := paddedDigits 4 year.natAbs
  if year < 0 then '-' :: digits else if 9999 < year then '+' :: digits else digits

/-- The number that exactly `width` digits write. -/
def readPadded? (width : Nat) (digits : List Char) : Option Nat :=
  if digits.length = width && digits.all Char.isDigit then some (digitsValue digits) else none

namespace Instant

def text (t : Instant) : String :=
  let two := paddedDigits 2
  String.ofList (yearText t.date.year ++ '-' :: two t.date.month ++ '-' :: two t.date.day ++
    'T' :: two t.timeOfDay.hour ++ ':' :: two t.timeOfDay.minute ++ ':' :: two t.timeOfDay.second ++
    ['Z'])

/-- A date that the calendar has. -/
def readDate? (year month day : List Char) : Option Date := do
  let date : Date := ⟨← readPadded? 4 year, ← readPadded? 2 month, ← readPadded? 2 day⟩
  if Date.ofDays date.toDays = date then some date else none

/-- Any minute may have a leap second. -/
def readTime? (hour minute second : List Char) : Option TimeOfDay := do
  let time : TimeOfDay := ⟨← readPadded? 2 hour, ← readPadded? 2 minute, ← readPadded? 2 second⟩
  if time.isValid then some time else none

def read? (text : String) : Option Instant :=
  match text.toList with
  | [y1, y2, y3, y4, '-', m1, m2, '-', d1, d2, 'T', h1, h2, ':', n1, n2, ':', s1, s2, 'Z'] => do
    let date ← readDate? [y1, y2, y3, y4] [m1, m2] [d1, d2]
    let time ← readTime? [h1, h2] [n1, n2] [s1, s2]
    return ofDateTime date time
  | _ => none

end Instant

end BuyingClub
