import ExprLex.Grammar.Name
import ExprLex.Grammar.Number
import ExprLex.Grammar.Quotation
import ExprLex.Text.Quoted
import ExprLex.Token.Word

namespace ExprLex

structure Rule where
  name : String
  propose : List Char → Option Proposal

structure Selection where
  proposal : Proposal
  rank : Nat
  rule : String

namespace Rule

def spelled (spelling : List Char) (kind : Kind) (text : List Char) : Option Proposal :=
  if spelling.isPrefixOf text then some (.accept spelling.length kind) else none

/-- The rule that reads exactly `spelling`. It is kept apart so that a rule holds its spelling as
characters and does not take a string apart at every call. -/
@[noinline] def ofSpelling (name : String) (spelling : List Char) (kind : Kind) : Rule :=
  ⟨name, spelled spelling kind⟩

def fixed (kind : Kind) : Rule :=
  match kind.fixedText with
  | some spelling => ofSpelling kind.name spelling.toList kind
  | none => ⟨kind.name, fun _ => none⟩

def word (word : Word) : Rule := ofSpelling word.text word.text.toList word.kind

def pattern (kind : Kind) (propose : List Char → Option Proposal) : Rule := ⟨kind.name, propose⟩

/-- In order of rank. Reserved words stand before identifiers, so that they win over these. -/
def catalogue : List Rule := [
  word .newOp, fixed .semicolonParen, pattern .integer Grammar.integer,
  pattern .hexInteger Grammar.hexInteger, fixed .assign, fixed .equal, fixed .notEqual,
  fixed .less, fixed .lessOrEqual, fixed .greater, fixed .greaterOrEqual, word .inOp, word .isOp,
  word .betweenOp, word .matchesOp, word .nullLit, fixed .semicolon, fixed .dot, fixed .comma,
  fixed .leftParen, fixed .rightParen, fixed .leftBrace, fixed .rightBrace, fixed .leftBracket,
  fixed .rightBracket, fixed .bar, word .andOp, word .orOp, word .falseLit, word .trueLit,
  fixed .plus, fixed .minus, fixed .divide, fixed .times, fixed .modulo, fixed .power, fixed .bang,
  fixed .hash, fixed .question, fixed .coalesce, fixed .lambdaOpen, fixed .projectOpen,
  fixed .selectOpen, fixed .selectFirstOpen, fixed .selectLastOpen, fixed .typeOpen,
  pattern .singleQuoted Grammar.singleQuoted, pattern .doubleQuoted Grammar.doubleQuoted,
  pattern .identifier Grammar.identifier, fixed .escapedDot,
  pattern .whitespace Grammar.whitespace, fixed .dollar, fixed .atSign, fixed .range, fixed .colon,
  pattern .real Grammar.real]

def ofName? (name : String) : Option Rule := catalogue.find? fun rule => rule.name == name

def text (rule : Rule) : String :=
  "Rule \x7b name: " ++ Text.quotedString rule.name ++ " \x7d"

def offersFrom (text : List Char) : (rank : Nat) → (rules : List Rule) → List Offer
  | _, [] => []
  | rank, rule :: rules =>
      match rule.propose text with
      | some proposal => (rank, proposal) :: offersFrom text (rank + 1) rules
      | none => offersFrom text (rank + 1) rules

def offers (rules : List Rule) (text : List Char) : List Offer := offersFrom text 0 rules

def selectFrom (rules : List Rule) (text : List Char) : Option Selection := do
  let (rank, proposal) ← Offer.longest (offers rules text)
  let rule ← rules[rank]?
  return ⟨proposal, rank, rule.name⟩

def select (text : List Char) : Option Selection := selectFrom catalogue text

end Rule
end ExprLex
