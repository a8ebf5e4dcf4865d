import BuyingClub.Identifier

/-!
# The directory

Who belongs to which group, and what stores, products and users are called.
-/

namespace BuyingClub

/-- Names for identifiers; a later entry replaces an earlier one. -/
abbrev Names (kind : Kind) := List (Identifier kind × String)

namespace Names

variable {kind : Kind}

def find? (names : Names kind) (id : Identifier kind) : Option String :=
  (names.reverse.find? fun entry => entry.1 = id).map fun entry => entry.2

/-- The name, or the identifier itself where there is none. -/
def display (names : Names kind) (id : Identifier kind) : String :=
  (names.find? id).getD id.text

end Names

structure Directory where
  members : List (GroupId × UserId)
  stores : Names .store
  products : Names .product
  users : Names .user

def Directory.isMember (directory : Directory) (group : GroupId) (user : UserId) : Bool :=
  directory.members.contains (group, user)

end BuyingClub
