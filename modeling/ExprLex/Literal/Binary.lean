namespace ExprLex.Literal

def twoTo (exponent : Nat) : Nat := Nat.pow 2 exponent

/-- The layout of a binary format: sign, exponent and fraction bits from high to low. -/
structure BinaryFormat where
  fractionBits : Nat
  exponentBits : Nat

namespace BinaryFormat

def single : BinaryFormat := ⟨23, 8⟩

def double : BinaryFormat := ⟨52, 11⟩

def minExponent (format : BinaryFormat) : Int :=
  2 - (twoTo (format.exponentBits - 1) : Int) - format.fractionBits

def infinity (format : BinaryFormat) : Nat :=
  (twoTo format.exponentBits - 1) * twoTo format.fractionBits

def signBit (format : BinaryFormat) : Nat := twoTo (format.exponentBits + format.fractionBits)

def roundedQuotient (numerator denominator : Nat) : Nat :=
  let quotient := numerator / denominator
  let twice := 2 * (numerator % denominator)
  if denominator < twice || (twice == denominator && quotient % 2 == 1) then quotient + 1
  else quotient

def scaled (numerator denominator : Nat) : Int → Nat × Nat
  | .ofNat exponent => (numerator, denominator * twoTo exponent)
  | .negSucc exponent => (numerator * twoTo (exponent + 1), denominator)

def placeExponent (format : BinaryFormat) (numerator denominator : Nat) : Int :=
  let guess : Int := (Nat.log2 numerator : Int) - Nat.log2 denominator - format.fractionBits
  let (high, low) := scaled numerator denominator guess
  let exponent := if high < low * twoTo format.fractionBits then guess - 1 else guess
  max exponent format.minExponent

/-- The bits of the number nearest to `numerator / denominator`. The significand is added to the
exponent field, so a carry out of rounding raises the exponent by itself. -/
def nearest (format : BinaryFormat) (numerator denominator : Nat) : Nat :=
  if numerator = 0 then 0
  else
    let exponent := format.placeExponent numerator denominator
    let (high, low) := scaled numerator denominator exponent
    (exponent - format.minExponent).toNat * twoTo format.fractionBits + roundedQuotient high low

end BinaryFormat
end ExprLex.Literal
