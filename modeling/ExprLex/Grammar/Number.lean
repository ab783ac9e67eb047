import ExprLex.Grammar.Proposal

namespace ExprLex.Grammar

def isHexDigit (c : Char) : Bool :=
  c.isDigit || ('a' ≤ c && c ≤ 'f') || ('A' ≤ c && c ≤ 'F')

def digitCount (isDigit : Char → Bool) (text : List Char) : Nat := (text.takeWhile isDigit).length

def beginsWith (accepted : List Char) : List Char → Bool
  | c :: _ => accepted.contains c
  | [] => false

def markLength (accepted text : List Char) : Nat := if beginsWith accepted text then 1 else 0

def longMarks : List Char := ['L', 'l']

def realMarks : List Char := ['F', 'f', 'D', 'd']

def exponentMarks : List Char := ['E', 'e']

def signs : List Char := ['+', '-']

def integer (text : List Char) : Option Proposal :=
  let whole := digitCount Char.isDigit text
  if whole = 0 then none
  else some (.accept (whole + markLength longMarks (text.drop whole)) .integer)

def hexInteger : List Char → Option Proposal
  | '0' :: x :: rest =>
      if x = 'x' || x = 'X' then
        let digits := digitCount isHexDigit rest
        if digits = 0 then some (.reject 2 .malformedNumber)
        else some (.accept (2 + digits + markLength longMarks (rest.drop digits)) .hexInteger)
      else none
  | _ => none

inductive Exponent where
  | absent
  | complete (length : Nat)
  | cutShort (length : Nat)
deriving DecidableEq

def exponent (text : List Char) : Exponent :=
  if beginsWith exponentMarks text then
    let lead := 1 + markLength signs (text.drop 1)
    match digitCount Char.isDigit (text.drop lead) with
    | 0 => .cutShort lead
    | digits => .complete (lead + digits)
  else .absent

/-- A real number whose mantissa is the first `mantissa` characters: what remains is an optional
exponent and an optional type mark. -/
def finishReal (text : List Char) (mantissa : Nat) : Proposal :=
  let close (length : Nat) : Proposal :=
    .accept (length + markLength realMarks (text.drop length)) .real
  match exponent (text.drop mantissa) with
  | .cutShort length => .reject (mantissa + length) .malformedNumber
  | .complete length => close (mantissa + length)
  | .absent => close mantissa

def leadingDot : List Char → Option Proposal
  | '.' :: rest =>
      match digitCount Char.isDigit rest with
      | 0 => none
      | fraction => some (finishReal ('.' :: rest) (1 + fraction))
  | _ => none

/-- Digits, a dot and digits. Two dots after the digits are a range and no fraction. -/
def fraction (text : List Char) : Option Proposal :=
  let whole := digitCount Char.isDigit text
  if whole = 0 then none
  else match text.drop whole with
    | '.' :: rest =>
        match digitCount Char.isDigit rest with
        | 0 =>
            if beginsWith ['.'] rest then none else some (.reject (whole + 1) .malformedNumber)
        | digits => some (finishReal text (whole + 1 + digits))
    | _ => none

def scientific (text : List Char) : Option Proposal :=
  let whole := digitCount Char.isDigit text
  if whole = 0 || !beginsWith exponentMarks (text.drop whole) then none
  else some (finishReal text whole)

def marked (text : List Char) : Option Proposal :=
  let whole := digitCount Char.isDigit text
  if whole = 0 || !beginsWith realMarks (text.drop whole) then none
  else some (.accept (whole + 1) .real)

def realForms : List (List Char → Option Proposal) := [leadingDot, fraction, scientific, marked]

def real (text : List Char) : Option Proposal :=
  let offers := realForms.zipIdx.filterMap fun (form, rank) => (form text).map (rank, ·)
  (Offer.longest offers).map (·.2)

end ExprLex.Grammar
