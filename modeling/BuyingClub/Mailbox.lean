/-!
# Mailboxes

Requests wait in mailboxes, each of which is made with a capacity.
-/

namespace BuyingClub.Mailbox

def maxCapacity : Nat := (UInt64.size - 1) / 8

/-- Whether a mailbox can be made with this capacity. -/
def isCapacity (n : Nat) : Bool := 0 < n && n ≤ maxCapacity

end BuyingClub.Mailbox
