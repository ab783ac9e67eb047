import ExprLex.Literal.Decimal
import ExprLex.Token.Basic

namespace ExprLex.Literal

/-- Integers are 32 or 64 bits wide; real numbers are given by their bits. -/
inductive Value where
  | int (n : Nat)
  | long (n : Nat)
  | float (bits : UInt32)
  | double (bits : UInt64)
  | string (text : String)
  | boolean (b : Bool)
  | null
deriving DecidableEq

inductive Problem where
  | notALiteral (kind : Kind)
  | outOfRange (lexeme : String)
  | malformed (kind : Kind) (lexeme : String)
deriving DecidableEq

namespace Problem

def name : Problem → String
  | .notALiteral _ => "NotALiteral"
  | .outOfRange _ => "OutOfRange"
  | .malformed _ _ => "Malformed"

def message : Problem → String
  | .notALiteral kind => kind.name ++ " token does not carry a literal value"
  | .outOfRange lexeme => "numeric literal '" ++ lexeme ++ "' is out of range for its type"
  | .malformed kind lexeme =>
      "'" ++ lexeme ++ "' is not a well-formed " ++ kind.name ++ " lexeme"

end Problem

def dropMark? (accepted text : List Char) : Option (List Char) :=
  match text.getLast? with
  | some last => if accepted.contains last then some text.dropLast else none
  | none => none

def between? (quote : Char) : List Char → Option (List Char)
  | first :: rest => if first = quote then dropMark? [quote] rest else none
  | [] => none

def undouble (quote : Char) (done : List Char) : List Char → List Char
  | c :: d :: rest =>
      if c = quote ∧ d = quote then undouble quote (quote :: done) rest
      else undouble quote (c :: done) (d :: rest)
  | [c] => (c :: done).reverse
  | [] => done.reverse

def decodeString (kind : Kind) (lexeme : String) : Except Problem String :=
  match kind with
  | .singleQuoted =>
      match between? '\x27' lexeme.toList with
      | some body => .ok (String.ofList (undouble '\x27' [] body))
      | none => .error (.malformed kind lexeme)
  | .doubleQuoted =>
      match between? '"' lexeme.toList with
      | some body => .ok (String.ofList body)
      | none => .error (.malformed kind lexeme)
  | _ => .error (.notALiteral kind)

def intMax : Nat := 2147483647

def longMax : Nat := 9223372036854775807

def digitsOf (kind : Kind) (lexeme : String) (body : List Char) :
    Except Problem (Nat × List Char) :=
  match kind with
  | .integer => .ok (10, body)
  | .hexInteger =>
      match body with
      | '0' :: 'x' :: digits | '0' :: 'X' :: digits => .ok (16, digits)
      | _ => .error (.malformed kind lexeme)
  | _ => .error (.notALiteral kind)

def isDigitIn (base : Nat) (c : Char) : Bool :=
  c.isDigit || (base == 16 && (('a' ≤ c && c ≤ 'f') || ('A' ≤ c && c ≤ 'F')))

def decodeInteger (kind : Kind) (lexeme : String) : Except Problem Value := do
  let (body, long) := match dropMark? ['L', 'l'] lexeme.toList with
    | some body => (body, true)
    | none => (lexeme.toList, false)
  let (base, digits) ← digitsOf kind lexeme body
  if digits.isEmpty || !digits.all (isDigitIn base) then throw (.malformed kind lexeme)
  let value := digitsValue base digits
  if long then
    if value ≤ longMax then return .long value else throw (.outOfRange lexeme)
  else
    if value ≤ intMax then return .int value else throw (.outOfRange lexeme)

def finiteBits (format : BinaryFormat) (lexeme : String) (text : List Char) :
    Except Problem Nat :=
  match RealText.ofChars? text with
  | none => .error (.malformed .real lexeme)
  | some .nonFinite => .error (.outOfRange lexeme)
  | some (.finite value) =>
      match value.bits? format with
      | some bits => .ok bits
      | none => .error (.outOfRange lexeme)

def decodeReal (lexeme : String) : Except Problem Value :=
  let text := lexeme.toList
  match dropMark? ['F', 'f'] text with
  | some body => return .float (.ofNat (← finiteBits .single lexeme body))
  | none =>
      return .double (.ofNat (← finiteBits .double lexeme ((dropMark? ['D', 'd'] text).getD text)))

def ofToken (token : Token) : Except Problem Value :=
  match token.kind with
  | .integer | .hexInteger => decodeInteger token.kind token.lexeme
  | .real => decodeReal token.lexeme
  | .singleQuoted | .doubleQuoted => return .string (← decodeString token.kind token.lexeme)
  | .trueLit => .ok (.boolean true)
  | .falseLit => .ok (.boolean false)
  | .nullLit => .ok .null
  | kind => .error (.notALiteral kind)

end ExprLex.Literal
