import ExprLex.Settings
import ExprLex.Token.Basic

namespace ExprLex

abbrev Usage := List (Kind × Nat)

structure Metrics where
  total : Nat := 0
  literals : Nat := 0
  reserved : Nat := 0
  identifiers : Nat := 0
  operators : Nat := 0
  punctuation : Nat := 0
  whitespace : Nat := 0
  longestString : Nat := 0
  longestIdentifier : Nat := 0
  usage : Usage := []

namespace Usage

def count (kind : Kind) : Usage → Usage
  | [] => [(kind, 1)]
  | (other, uses) :: usage =>
      if kind = other then (kind, uses + 1) :: usage
      else if kind.name < other.name then (kind, 1) :: (other, uses) :: usage
      else (other, uses) :: count kind usage

def uses (usage : Usage) (kind : Kind) : Nat := (usage.lookup kind).getD 0

end Usage

namespace Metrics

def recordGroup (metrics : Metrics) (token : Token) (trackOperators : Bool) : Metrics :=
  match token.kind.group with
  | .literal =>
      { metrics with
        literals := metrics.literals + 1
        longestString :=
          if token.kind.isString then max metrics.longestString token.lexeme.utf8ByteSize
          else metrics.longestString }
  | .identifier =>
      { metrics with
        identifiers := metrics.identifiers + 1
        longestIdentifier := max metrics.longestIdentifier token.lexeme.length }
  | .operator =>
      { metrics with
        operators := metrics.operators + 1
        usage := if trackOperators then metrics.usage.count token.kind else metrics.usage }
  | .punctuation => { metrics with punctuation := metrics.punctuation + 1 }
  | .whitespace => { metrics with whitespace := metrics.whitespace + 1 }
  | .endOfInput => metrics

def record (metrics : Metrics) (preferences : Preferences) (token : Token) : Metrics :=
  if token.isEnd then metrics
  else
    let counted := { metrics with total := metrics.total + 1 }
    if preferences.detailedMetrics then
      let words := { counted with
        reserved := counted.reserved + (if token.kind.isReserved then 1 else 0) }
      words.recordGroup token preferences.trackOperators
    else counted

end Metrics
end ExprLex
