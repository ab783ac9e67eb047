import ExprLex.Log.Code
import ExprLex.Span
import ExprLex.Text.Quoted

namespace ExprLex

inductive NumberGap where
  | hexDigits
  | fraction
  | exponent
deriving DecidableEq

inductive Problem where
  | unrecognizedCharacter (character : Char) (span : Span)
  | unterminatedString (delimiter : Char) (span : Span)
  | malformedNumber (text : String) (gap : NumberGap) (span : Span)
  | sourceTooLarge (bytes limit : Nat)
  | tooManyTokens (limit : Nat) (span : Span)
  | stringTooLarge (bytes limit : Nat) (span : Span)
  | identifierTooLong (chars limit : Nat) (span : Span)
deriving DecidableEq

namespace NumberGap

def reason : NumberGap → String
  | .hexDigits => "hexadecimal prefix has no digits"
  | .fraction => "decimal point has no fraction digits"
  | .exponent => "exponent has no digits"

/-- The last character that was recognised tells what should have followed. -/
def ofText (text : List Char) : NumberGap :=
  match text.getLast? with
  | some 'x' | some 'X' => .hexDigits
  | some '.' => .fraction
  | _ => .exponent

end NumberGap

namespace Problem

def name : Problem → String
  | .unrecognizedCharacter .. => "UnrecognizedCharacter"
  | .unterminatedString .. => "UnterminatedStringLiteral"
  | .malformedNumber .. => "MalformedNumericLiteral"
  | .sourceTooLarge .. => "SourceTooLarge"
  | .tooManyTokens .. => "TooManyTokens"
  | .stringTooLarge .. => "StringLiteralTooLarge"
  | .identifierTooLong .. => "IdentifierTooLong"

def message : Problem → String
  | .unrecognizedCharacter character span =>
      "unrecognized character " ++ Text.quotedChar character ++ " at " ++ span.text
  | .unterminatedString delimiter span =>
      "unterminated string literal starting at " ++ span.text ++ " (missing closing "
        ++ String.singleton delimiter ++ ")"
  | .malformedNumber text gap span =>
      "malformed numeric literal '" ++ text ++ "' at " ++ span.text ++ ": " ++ gap.reason
  | .sourceTooLarge bytes limit =>
      "expression too large: " ++ toString bytes ++ " bytes (max " ++ toString limit ++ ")"
  | .tooManyTokens limit span =>
      "too many tokens: limit of " ++ toString limit ++ " reached at " ++ span.text
  | .stringTooLarge bytes limit span =>
      "string literal too large: " ++ toString bytes ++ " bytes (max " ++ toString limit ++ ") at "
        ++ span.text
  | .identifierTooLong chars limit span =>
      "identifier too long: " ++ toString chars ++ " characters (max " ++ toString limit ++ ") at "
        ++ span.text

def code : Problem → Log.Code
  | .unrecognizedCharacter .. => Log.Code.unrecognizedCharacter
  | .unterminatedString .. => Log.Code.unterminatedString
  | .malformedNumber .. => Log.Code.malformedNumber
  | .sourceTooLarge .. => Log.Code.sourceTooLarge
  | .tooManyTokens .. => Log.Code.tooManyTokens
  | .stringTooLarge .. => Log.Code.stringTooLarge
  | .identifierTooLong .. => Log.Code.identifierTooLong

def span? : Problem → Option Span
  | .unrecognizedCharacter _ span => some span
  | .unterminatedString _ span => some span
  | .malformedNumber _ _ span => some span
  | .sourceTooLarge _ _ => none
  | .tooManyTokens _ span => some span
  | .stringTooLarge _ _ span => some span
  | .identifierTooLong _ _ span => some span

def offset (problem : Problem) : Nat := problem.span?.elim 0 (·.start.offset)

def isLimit : Problem → Bool
  | .sourceTooLarge .. | .tooManyTokens .. | .stringTooLarge .. | .identifierTooLong .. => true
  | _ => false

end Problem
end ExprLex
