import BuyingClub.Binary64

/-!
# Documents

Data that describes itself: what records are written as and read from. Whole numbers and doubles
are told apart.
-/

namespace BuyingClub

inductive Document where
  | null
  | bool (value : Bool)
  | integer (value : Int)
  | number (value : Binary64)
  | text (value : String)
  | list (elements : List Document)
  | record (fields : List (String × Document))

namespace Document

/-! ## Plain values -/

def bool? : Document → Option Bool
  | bool b => some b
  | _ => none

/-- A whole number that is not negative and below `bound`. -/
def count? (bound : Nat) : Document → Option Nat
  | integer n => if 0 ≤ n ∧ n < bound then some n.toNat else none
  | _ => none

/-- Whole numbers are taken for doubles too. -/
def number? : Document → Option Binary64
  | integer n => some (.ofInt n)
  | number x => some x
  | _ => none

def text? : Document → Option String
  | text s => some s
  | _ => none

def list? : Document → Option (List Document)
  | list xs => some xs
  | _ => none

/-- Null is no value; anything else must be one that `read?` takes. -/
def nullable? {α : Type} (read? : Document → Option α) : Document → Option (Option α)
  | null => some none
  | d => (read? d).map some

def ofOption {α : Type} (write : α → Document) : Option α → Document
  | none => null
  | some a => write a

/-! ## Records -/

/-- The fields of a record. A list of values in the order of `names` stands for a record too, one
that is complete or, if the rest has defaults, one that breaks off. -/
def fields? (names : List String) (mayBreakOff : Bool) :
    Document → Option (List (String × Document))
  | record fields => some fields
  | list values =>
    if values.length = names.length ∨ mayBreakOff ∧ values.length < names.length then
      some (names.zip values)
    else none
  | _ => none

/-- The value of a field. -/
def find? (name : String) (fields : List (String × Document)) : Option Document :=
  (fields.find? (·.1 = name)).map (·.2)

/-- A field that must be there. -/
def field? {α : Type} (name : String) (read? : Document → Option α)
    (fields : List (String × Document)) : Option α :=
  (find? name fields).bind read?

/-- A field that may be absent or null. -/
def optional? {α : Type} (name : String) (read? : Document → Option α)
    (fields : List (String × Document)) : Option (Option α) :=
  match find? name fields with
  | none => some none
  | some d => nullable? read? d

/-- A field that has a default. -/
def fieldOr? {α : Type} (name : String) (fallback : α) (read? : Document → Option α)
    (fields : List (String × Document)) : Option α :=
  match find? name fields with
  | none => some fallback
  | some d => read? d

/-- Every element must be readable. -/
def elements? {α : Type} (read? : Document → Option α) (d : Document) : Option (List α) :=
  d.list?.bind fun xs => xs.mapM read?

end Document

end BuyingClub
