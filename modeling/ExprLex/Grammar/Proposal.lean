import ExprLex.Token.Kind

namespace ExprLex

inductive Flaw where
  | unterminatedString
  | malformedNumber
deriving DecidableEq

inductive Proposal where
  | accept (length : Nat) (kind : Kind)
  | reject (length : Nat) (flaw : Flaw)
deriving DecidableEq

namespace Flaw

def name : Flaw → String
  | .unterminatedString => "unterminated-string"
  | .malformedNumber => "malformed-number"

end Flaw

namespace Proposal

def length : Proposal → Nat
  | .accept length _ => length
  | .reject length _ => length

def isReject : Proposal → Bool
  | .accept _ _ => false
  | .reject _ _ => true

def what : Proposal → String
  | .accept _ kind => kind.name
  | .reject _ flaw => flaw.name

end Proposal

abbrev Offer := Nat × Proposal

namespace Offer

def beats (offer best : Offer) : Bool :=
  best.2.length < offer.2.length || (offer.2.length == best.2.length && offer.1 < best.1)

/-- The better of the best so far and one more offer. Empty offers never count. -/
def prefer (best : Option Offer) (offer : Offer) : Option Offer :=
  if offer.2.length = 0 then best
  else match best with
    | none => some offer
    | some other => if offer.beats other then some offer else best

def longest (offers : List Offer) : Option Offer := offers.foldl prefer none

end Offer
end ExprLex
