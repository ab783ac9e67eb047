import ExprLex.Token.Kind

namespace ExprLex

inductive Word where
  | andOp
  | orOp
  | inOp
  | isOp
  | betweenOp
  | matchesOp
  | newOp
  | trueLit
  | falseLit
  | nullLit
deriving DecidableEq

namespace Word

def all : List Word :=
  [.andOp, .orOp, .inOp, .isOp, .betweenOp, .matchesOp, .newOp, .trueLit, .falseLit, .nullLit]

def text : Word → String
  | .andOp => "and"
  | .orOp => "or"
  | .inOp => "in"
  | .isOp => "is"
  | .betweenOp => "between"
  | .matchesOp => "matches"
  | .newOp => "new"
  | .trueLit => "true"
  | .falseLit => "false"
  | .nullLit => "null"

def ofText? : String → Option Word
  | "and" => some .andOp
  | "or" => some .orOp
  | "in" => some .inOp
  | "is" => some .isOp
  | "between" => some .betweenOp
  | "matches" => some .matchesOp
  | "new" => some .newOp
  | "true" => some .trueLit
  | "false" => some .falseLit
  | "null" => some .nullLit
  | _ => none

def isReserved (text : String) : Bool := (ofText? text).isSome

def kind : Word → Kind
  | .andOp => .andOp
  | .orOp => .orOp
  | .inOp => .inOp
  | .isOp => .isOp
  | .betweenOp => .betweenOp
  | .matchesOp => .matchesOp
  | .newOp => .newOp
  | .trueLit => .trueLit
  | .falseLit => .falseLit
  | .nullLit => .nullLit

def isLiteral : Word → Bool
  | .trueLit | .falseLit | .nullLit => true
  | _ => false

end Word
end ExprLex
