/-!
# Division to the nearest integer

`roundDiv` settles a half away from zero, `roundDivEven` towards the even neighbour.
-/

namespace BuyingClub

/-- Twice the numerator plus one denominator, over twice the denominator: `n / d` to the nearest
integer with a half rounded up, for a numerator and a denominator that are not negative. -/
def roundHalfUp (n d : Int) : Int :=
  (2 * n + d) / (2 * d)

/-- `n / d` to the nearest integer for `0 < d`; a half goes away from zero. -/
def roundHalfAway (n d : Int) : Int :=
  if 0 ≤ n then roundHalfUp n d else -roundHalfUp (-n) d

/-- `n / d` to the nearest integer for `d ≠ 0`; a half goes away from zero. -/
def roundDiv (n d : Int) : Int :=
  if d < 0 then roundHalfAway (-n) (-d) else roundHalfAway n d

/-- `n / d` to the nearest natural number; a half goes to the even neighbour. -/
def roundDivEven (n d : Nat) : Nat :=
  let below := n / d
  let rest := n % d
  if 2 * rest < d then below
  else if d < 2 * rest then below + 1
  else if below % 2 = 0 then below
  else below + 1

end BuyingClub
