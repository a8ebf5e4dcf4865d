import BuyingClub.Amount
import BuyingClub.Text.Blank
import BuyingClub.Text.Number

/-!
# Limits

How much a run may hold. Variables of the environment replace the default limits; a variable that
is no valid limit is passed over.
-/

namespace BuyingClub

structure Limits where
  /-- Products with bids, per run. -/
  maxProducts : Nat
  /-- Participants per run, the leader included. -/
  maxMembers : Nat
  maxBidQuantity : Quantity
  maxPurchaseQuantity : Quantity
  maxPrice : Money
  /-- Room for waiting requests, per worker. -/
  mailboxSize : Nat
deriving DecidableEq

namespace Limits

def default : Limits where
  maxProducts := 100
  maxMembers := 100
  maxBidQuantity := ⟨999999⟩
  maxPurchaseQuantity := ⟨9999999⟩
  maxPrice := ⟨9999999⟩
  mailboxSize := 32

instance : Inhabited Limits := ⟨default⟩

/-! ## The environment -/

def readCount (text : String) : Option Nat :=
  readCount? (trimBlanks text.toList)

/-- A decimal number that is an amount and not negative. -/
def readHundredths (text : String) : Option Int :=
  match Binary64.read? (trimBlanks text.toList) with
  | none => none
  | some value =>
    match Hundredths.ofBinary64 value with
    | .ok n => if 0 ≤ n then some n else none
    | .error _ => none

/-- The default limits, with the valid variables in their place. -/
def ofEnvironment (valueOf : String → Option String) : Limits :=
  let count (name : String) (fallback : Nat) : Nat :=
    ((valueOf name).bind readCount).getD fallback
  let hundredths (name : String) (fallback : Int) : Int :=
    ((valueOf name).bind readHundredths).getD fallback
  { maxProducts := count "GROUP_RUN_MAX_PRODUCTS" default.maxProducts
    maxMembers := count "GROUP_RUN_MAX_MEMBERS" default.maxMembers
    maxBidQuantity := ⟨hundredths "GROUP_RUN_MAX_BID_QUANTITY" default.maxBidQuantity.hundredths⟩
    maxPurchaseQuantity :=
      ⟨hundredths "GROUP_RUN_MAX_PURCHASE_QUANTITY" default.maxPurchaseQuantity.hundredths⟩
    maxPrice := ⟨hundredths "GROUP_RUN_MAX_PRICE" default.maxPrice.cents⟩
    mailboxSize := count "GROUP_RUN_MAILBOX_SIZE" default.mailboxSize }

end Limits

end BuyingClub
