namespace ExprLex

inductive Kind where
  | integer
  | hexInteger
  | real
  | singleQuoted
  | doubleQuoted
  | identifier
  | dot
  | escapedDot
  | comma
  | semicolon
  | semicolonParen
  | colon
  | leftParen
  | rightParen
  | leftBrace
  | rightBrace
  | leftBracket
  | rightBracket
  | bar
  | assign
  | equal
  | notEqual
  | less
  | lessOrEqual
  | greater
  | greaterOrEqual
  | plus
  | minus
  | times
  | divide
  | modulo
  | power
  | bang
  | hash
  | dollar
  | atSign
  | question
  | coalesce
  | range
  | andOp
  | orOp
  | inOp
  | isOp
  | betweenOp
  | matchesOp
  | trueLit
  | falseLit
  | nullLit
  | newOp
  | typeOpen
  | lambdaOpen
  | projectOpen
  | selectOpen
  | selectFirstOpen
  | selectLastOpen
  | whitespace
  | endOfInput
deriving DecidableEq

inductive Group where
  | literal
  | identifier
  | operator
  | punctuation
  | whitespace
  | endOfInput
deriving DecidableEq

inductive Channel where
  | visible
  | hidden
deriving DecidableEq

namespace Group

def all : List Group := [.literal, .identifier, .operator, .punctuation, .whitespace, .endOfInput]

def name : Group → String
  | .literal => "literal"
  | .identifier => "identifier"
  | .operator => "operator"
  | .punctuation => "punctuation"
  | .whitespace => "whitespace"
  | .endOfInput => "eof"

end Group

namespace Channel

def all : List Channel := [.visible, .hidden]

def name : Channel → String
  | .visible => "default"
  | .hidden => "hidden"

end Channel

namespace Kind

def all : List Kind := [
    .integer, .hexInteger, .real, .singleQuoted, .doubleQuoted, .identifier, .dot, .escapedDot,
    .comma, .semicolon, .semicolonParen, .colon, .leftParen, .rightParen, .leftBrace, .rightBrace,
    .leftBracket, .rightBracket, .bar, .assign, .equal, .notEqual, .less, .lessOrEqual, .greater,
    .greaterOrEqual, .plus, .minus, .times, .divide, .modulo, .power, .bang, .hash, .dollar,
    .atSign, .question, .coalesce, .range, .andOp, .orOp, .inOp, .isOp, .betweenOp, .matchesOp,
    .trueLit, .falseLit, .nullLit, .newOp, .typeOpen, .lambdaOpen, .projectOpen, .selectOpen,
    .selectFirstOpen, .selectLastOpen, .whitespace, .endOfInput]

def name : Kind → String
  | .integer => "integer-literal"
  | .hexInteger => "hex-integer-literal"
  | .real => "real-literal"
  | .singleQuoted => "string-literal-single"
  | .doubleQuoted => "string-literal-double"
  | .identifier => "identifier"
  | .dot => "dot"
  | .escapedDot => "dot-escaped"
  | .comma => "comma"
  | .semicolon => "semicolon"
  | .semicolonParen => "semicolon-rparen"
  | .colon => "colon"
  | .leftParen => "lparen"
  | .rightParen => "rparen"
  | .leftBrace => "lcurly"
  | .rightBrace => "rcurly"
  | .leftBracket => "lbracket"
  | .rightBracket => "rbracket"
  | .bar => "pipe"
  | .assign => "assign"
  | .equal => "equal"
  | .notEqual => "not-equal"
  | .less => "less-than"
  | .lessOrEqual => "less-than-or-equal"
  | .greater => "greater-than"
  | .greaterOrEqual => "greater-than-or-equal"
  | .plus => "plus"
  | .minus => "minus"
  | .times => "star"
  | .divide => "div"
  | .modulo => "mod"
  | .power => "power"
  | .bang => "bang"
  | .hash => "pound"
  | .dollar => "dollar"
  | .atSign => "at"
  | .question => "qmark"
  | .coalesce => "default-coalesce"
  | .range => "range-upto"
  | .andOp => "and"
  | .orOp => "or"
  | .inOp => "in"
  | .isOp => "is"
  | .betweenOp => "between"
  | .matchesOp => "matches"
  | .trueLit => "true"
  | .falseLit => "false"
  | .nullLit => "null-literal"
  | .newOp => "new"
  | .typeOpen => "type-reference-open"
  | .lambdaOpen => "lambda-open"
  | .projectOpen => "project-open"
  | .selectOpen => "select-open"
  | .selectFirstOpen => "select-first-open"
  | .selectLastOpen => "select-last-open"
  | .whitespace => "whitespace"
  | .endOfInput => "eof"

def ofName? (name : String) : Option Kind := all.find? fun kind => kind.name == name

def fixedText : Kind → Option String
  | .dot => some "."
  | .escapedDot => some "\\."
  | .comma => some ","
  | .semicolon => some ";"
  | .semicolonParen => some ";)"
  | .colon => some ":"
  | .leftParen => some "("
  | .rightParen => some ")"
  | .leftBrace => some "\x7b"
  | .rightBrace => some "\x7d"
  | .leftBracket => some "["
  | .rightBracket => some "]"
  | .bar => some "|"
  | .assign => some "="
  | .equal => some "=="
  | .notEqual => some "!="
  | .less => some "<"
  | .lessOrEqual => some "<="
  | .greater => some ">"
  | .greaterOrEqual => some ">="
  | .plus => some "+"
  | .minus => some "-"
  | .times => some "*"
  | .divide => some "/"
  | .modulo => some "%"
  | .power => some "^"
  | .bang => some "!"
  | .hash => some "#"
  | .dollar => some "$"
  | .atSign => some "@"
  | .question => some "?"
  | .coalesce => some "??"
  | .range => some ".."
  | .andOp => some "and"
  | .orOp => some "or"
  | .inOp => some "in"
  | .isOp => some "is"
  | .betweenOp => some "between"
  | .matchesOp => some "matches"
  | .trueLit => some "true"
  | .falseLit => some "false"
  | .nullLit => some "null"
  | .newOp => some "new"
  | .typeOpen => some "T("
  | .lambdaOpen => some "\x7b|"
  | .projectOpen => some "!\x7b"
  | .selectOpen => some "?\x7b"
  | .selectFirstOpen => some "^\x7b"
  | .selectLastOpen => some "$\x7b"
  | .integer | .hexInteger | .real | .singleQuoted | .doubleQuoted | .identifier | .whitespace
  | .endOfInput => none

def group : Kind → Group
  | .integer | .hexInteger | .real | .singleQuoted | .doubleQuoted | .trueLit | .falseLit
  | .nullLit => .literal
  | .identifier => .identifier
  | .assign | .equal | .notEqual | .less | .lessOrEqual | .greater | .greaterOrEqual | .plus
  | .minus | .times | .divide | .modulo | .power | .bang | .question | .coalesce | .range
  | .andOp | .orOp | .inOp | .isOp | .betweenOp | .matchesOp | .newOp => .operator
  | .dot | .escapedDot | .comma | .semicolon | .semicolonParen | .colon | .leftParen
  | .rightParen | .leftBrace | .rightBrace | .leftBracket | .rightBracket | .bar | .hash
  | .dollar | .atSign | .typeOpen | .lambdaOpen | .projectOpen | .selectOpen | .selectFirstOpen
  | .selectLastOpen => .punctuation
  | .whitespace => .whitespace
  | .endOfInput => .endOfInput

def isLiteral (kind : Kind) : Bool := kind.group == .literal

def isOperator (kind : Kind) : Bool := kind.group == .operator

def isPunctuation (kind : Kind) : Bool := kind.group == .punctuation

def isNumeric : Kind → Bool
  | .integer | .hexInteger | .real => true
  | _ => false

def isString : Kind → Bool
  | .singleQuoted | .doubleQuoted => true
  | _ => false

def isReserved : Kind → Bool
  | .andOp | .orOp | .inOp | .isOp | .betweenOp | .matchesOp | .trueLit | .falseLit | .nullLit
  | .newOp => true
  | _ => false

def isOpener : Kind → Bool
  | .leftParen | .leftBrace | .leftBracket | .typeOpen | .lambdaOpen | .projectOpen | .selectOpen
  | .selectFirstOpen | .selectLastOpen => true
  | _ => false

def channel : Kind → Channel
  | .whitespace => .hidden
  | _ => .visible

end Kind
end ExprLex
