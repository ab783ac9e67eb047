import ExprLex.LineIndex
import ExprLex.Log.Event
import ExprLex.Token.Basic

namespace ExprLex

structure TokenStream where
  tokens : Array Token
  shown : Array Nat
  position : Nat := 0
  lines : Option LineIndex := none

inductive StreamProblem where
  | unexpectedToken (expected : Kind) (found : Token)
  | unexpectedEnd (expected : Kind)
deriving DecidableEq

namespace StreamProblem

def name : StreamProblem → String
  | .unexpectedToken .. => "UnexpectedToken"
  | .unexpectedEnd .. => "UnexpectedEndOfStream"

def message : StreamProblem → String
  | .unexpectedToken expected found =>
      "expected " ++ expected.name ++ ", found " ++ found.kind.name ++ " '" ++ found.lexeme
        ++ "' at " ++ found.span.text
  | .unexpectedEnd expected => "expected " ++ expected.name ++ ", but reached end of input"

def code : StreamProblem → Log.Code
  | .unexpectedToken .. => Log.Code.unexpectedToken
  | .unexpectedEnd .. => Log.Code.unexpectedEnd

end StreamProblem

namespace TokenStream

def ofTokens (tokens : List Token) : TokenStream where
  tokens := tokens.toArray
  shown := (tokens.zipIdx.filterMap fun (token, place) =>
    if token.isHidden then none else some place).toArray

def withSource (tokens : List Token) (source : String) : TokenStream :=
  { ofTokens tokens with lines := some (.ofText source) }

def assembledEvent (stream : TokenStream) : Log.Event :=
  (Log.Event.debug "Token stream assembled").withContext [
    ("total_tokens", toString stream.tokens.size),
    ("significant_tokens", toString stream.shown.size)]

def at? (stream : TokenStream) (place : Nat) : Option Token :=
  stream.shown[place]?.bind fun index => stream.tokens[index]?

def current (stream : TokenStream) : Option Token := stream.at? stream.position

def peek (stream : TokenStream) : Option Token := stream.at? (stream.position + 1)

def peekAhead (stream : TokenStream) (n : Nat) : Except Fault (Option Token) :=
  if stream.position + n < Position.offsetBound then .ok (stream.at? (stream.position + n))
  else .error .overflow

def advance (stream : TokenStream) : TokenStream :=
  if stream.position < stream.shown.size then { stream with position := stream.position + 1 }
  else stream

def isAtEnd (stream : TokenStream) : Bool := stream.current.all (·.isEnd)

def check (stream : TokenStream) (kind : Kind) : Bool :=
  stream.current.any fun token => token.kind == kind

def advanceIf (stream : TokenStream) (kind : Kind) : Bool × TokenStream :=
  if stream.check kind then (true, stream.advance) else (false, stream)

def expect (stream : TokenStream) (kind : Kind) : Except StreamProblem Token × TokenStream :=
  match stream.current with
  | none => (.error (.unexpectedEnd kind), stream)
  | some token =>
      if token.kind = kind then (.ok token, stream.advance)
      else if token.isEnd then (.error (.unexpectedEnd kind), stream)
      else (.error (.unexpectedToken kind token), stream)

def restore (stream : TokenStream) (place : Nat) : TokenStream :=
  { stream with position := min place stream.shown.size }

def length (stream : TokenStream) : Nat := stream.shown.size

def isEmpty (stream : TokenStream) : Bool := stream.shown.isEmpty

def remaining (stream : TokenStream) : Nat := stream.shown.size - stream.position

def rebuild (stream : TokenStream) : String :=
  stream.tokens.foldl (fun text token => text ++ token.lexeme) ""

def hasEnd (stream : TokenStream) : Bool :=
  (stream.shown.back?.bind fun index => stream.tokens[index]?).any (·.isEnd)

def report (stream : TokenStream) (span : Span) (message : String) : Except Fault String :=
  match stream.lines with
  | some lines => lines.report span message
  | none => .ok ("error at " ++ span.text ++ ": " ++ message)

end TokenStream
end ExprLex
