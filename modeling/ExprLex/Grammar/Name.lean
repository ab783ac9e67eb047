import ExprLex.Grammar.Proposal

namespace ExprLex.Grammar

def isNameStart (c : Char) : Bool := c.isAlpha || c == '_'

def isNamePart (c : Char) : Bool := c.isAlphanum || c == '_'

def nameFrom : List Char → Nat → Nat
  | '\\' :: '.' :: rest, read => nameFrom rest (read + 2)
  | c :: rest, read => if isNamePart c then nameFrom rest (read + 1) else read
  | [], read => read

def identifier : List Char → Option Proposal
  | c :: rest => if isNameStart c then some (.accept (nameFrom rest 1) .identifier) else none
  | [] => none

def isSpace (c : Char) : Bool := c == ' ' || c == '\t' || c == '\n' || c == '\r'

def whitespace (text : List Char) : Option Proposal :=
  match (text.takeWhile isSpace).length with
  | 0 => none
  | length => some (.accept length .whitespace)

end ExprLex.Grammar
