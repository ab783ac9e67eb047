import ExprLex.Literal.Binary
import ExprLex.Literal.Digits

namespace ExprLex.Literal

structure Decimal where
  negative : Bool
  significand : Nat
  exponent : Int

inductive RealText where
  | finite (value : Decimal)
  | nonFinite

namespace Decimal

/-- Exponents stop growing once they have reached this. -/
def exponentCap : Nat := 65536

def exponentValue (digits : List Char) : Nat :=
  digits.foldl (fun total c => if total < exponentCap then 10 * total + digitValue c else total) 0

def exponent? : List Char → Option Int
  | [] => some 0
  | e :: rest =>
      if e = 'e' || e = 'E' then
        let (negative, digits) := match rest with
          | '-' :: digits => (true, digits)
          | '+' :: digits => (false, digits)
          | digits => (false, digits)
        if digits.isEmpty || !digits.all Char.isDigit then none
        else
          let value : Int := exponentValue digits
          some (if negative then -value else value)
      else none

def unsigned? (negative : Bool) (text : List Char) : Option Decimal := do
  let whole := text.takeWhile Char.isDigit
  let (fraction, rest) := match text.dropWhile Char.isDigit with
    | '.' :: rest => (rest.takeWhile Char.isDigit, rest.dropWhile Char.isDigit)
    | rest => ([], rest)
  if whole.isEmpty && fraction.isEmpty then none
  else
    let exponent ← exponent? rest
    return ⟨negative, digitsValue 10 (whole ++ fraction), exponent - fraction.length⟩

def magnitude (format : BinaryFormat) (decimal : Decimal) : Nat :=
  match decimal.exponent with
  | .ofNat exponent => format.nearest (decimal.significand * Nat.pow 10 exponent) 1
  | .negSucc exponent => format.nearest decimal.significand (Nat.pow 10 (exponent + 1))

def bits? (format : BinaryFormat) (decimal : Decimal) : Option Nat :=
  let magnitude := decimal.magnitude format
  if magnitude < format.infinity then
    some (if decimal.negative then format.signBit + magnitude else magnitude)
  else none

end Decimal

namespace RealText

def nonFiniteNames : List String := ["inf", "infinity", "nan"]

def ofChars? (text : List Char) : Option RealText :=
  let (negative, body) := match text with
    | '-' :: body => (true, body)
    | '+' :: body => (false, body)
    | body => (false, body)
  match Decimal.unsigned? negative body with
  | some value => some (.finite value)
  | none =>
      if nonFiniteNames.contains (String.ofList (body.map Char.toLower)) then some .nonFinite
      else none

end RealText
end ExprLex.Literal
