/-!
# Instants

Points in time, to the second. A leap second follows the last second of a minute. It is told apart
from that second, but it is not counted.
-/

namespace BuyingClub

structure Instant where
  /-- Seconds since the start of 1970, universal time, without leap seconds. -/
  seconds : Int
  /-- Whether this is the leap second that follows. -/
  isLeap : Bool
  endsMinute : isLeap = true → seconds % 60 = 59
deriving DecidableEq

namespace Instant

def ofSeconds (n : Int) : Instant := ⟨n, false, nofun⟩

/-- The leap second at the end of a minute, counted in minutes since the start of 1970. -/
def leapSecondOf (minute : Int) : Instant := ⟨60 * minute + 59, true, fun _ => by omega⟩

instance : Inhabited Instant := ⟨ofSeconds 0⟩

end Instant

end BuyingClub
