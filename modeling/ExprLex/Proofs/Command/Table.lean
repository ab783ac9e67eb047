import ExprLex.Command.Report
import Mathlib

namespace ExprLex.Command

def AtLeft (width : Nat) (text cell : String) : Prop :=
  cell.length = max width text.length ∧
    ∃ n, cell = text ++ String.ofList (List.replicate n ' ')

def AtRight (width : Nat) (text cell : String) : Prop :=
  cell.length = max width text.length ∧
    ∃ n, cell = String.ofList (List.replicate n ' ') ++ text

def letters : List (Char × Char) :=
  [('\x00', '0'), ('\t', 't'), ('\r', 'r'), ('\n', 'n'), ('\\', '\\'), ('"', '"')]

/-- How a character is shown between double quotes. All of ASCII but the controls shows itself. -/
inductive Shown : Char → List Char → Prop
  | letter {c letter : Char} (named : (c, letter) ∈ letters) : Shown c ['\\', letter]
  | code {c : Char} (unnamed : c ∉ letters.map Prod.fst)
      (hides : Text.isExtending c = true ∨ Text.isPrintable c = false)
      (foreign : c.toNat < 0x20 ∨ 0x7f ≤ c.toNat) :
      Shown c ("\\u\x7b".toList ++ Nat.toDigits 16 c.toNat ++ ['\x7d'])
  | plain {c : Char} (unnamed : c ∉ letters.map Prod.fst)
      (shows : Text.isExtending c = false ∧ Text.isPrintable c = true)
      (proper : 0x20 ≤ c.toNat ∧ c.toNat ≠ 0x7f) : Shown c [c]

def Quotes (text quoted : String) : Prop :=
  ∃ parts, List.Forall₂ Shown text.toList parts ∧ quoted.toList = '"' :: (parts.flatten ++ ['"'])

/-- Whether a line shows a token: its kind, the bytes that it covers and, between quotes, its
text. -/
def Row (token : Token) (line : String) : Prop :=
  ∃ kind start stop lexeme, AtLeft 24 token.kind.name kind ∧
    AtRight 6 (toString token.span.start.offset) start ∧
    AtLeft 6 (toString token.span.stop.offset) stop ∧ Quotes token.lexeme lexeme ∧
    line = kind ++ " " ++ start ++ ".." ++ stop ++ " " ++ lexeme ++ "\n"

def Rows (tokens : List Token) (text : String) : Prop :=
  ∃ lines, List.Forall₂ Row tokens lines ∧ text = String.join lines

def Entry (entry : String × Nat) (line : String) : Prop :=
  ∃ label, AtLeft 13 entry.1 label ∧ line = label ++ toString entry.2 ++ "\n"

def UsageEntry (entry : Kind × Nat) (line : String) : Prop :=
  ∃ operator, AtLeft 22 entry.1.name operator ∧
    line = "  " ++ operator ++ " " ++ toString entry.2 ++ "\n"

/-- Whether a text shows statistics, behind an empty line. -/
def Summary (metrics : Metrics) (text : String) : Prop :=
  ∃ entries usage, List.Forall₂ Entry [("tokens:", metrics.total), ("literals:", metrics.literals),
      ("keywords:", metrics.reserved), ("identifiers:", metrics.identifiers),
      ("operators:", metrics.operators), ("punctuation:", metrics.punctuation),
      ("whitespace:", metrics.whitespace)] entries ∧
    List.Forall₂ UsageEntry metrics.usage usage ∧
    text = "\n" ++ String.join entries ++ String.join usage

end ExprLex.Command
