import ExprLex.Stream.Basic

namespace ExprLex

inductive Irregularity where
  | lateStart (offset : Nat)
  | gap (stop start : Nat)
  | endMarkCount (count : Nat)
  | endMarkElsewhere (start stop size : Nat)
  | endMarkNotLast
deriving DecidableEq

namespace Irregularity

def message : Irregularity → String
  | .lateStart offset => "first token starts at offset " ++ toString offset ++ " instead of 0"
  | .gap stop start =>
      "gap or overlap between offsets " ++ toString stop ++ " and " ++ toString start
  | .endMarkCount count => "expected one EOF token, found " ++ toString count
  | .endMarkElsewhere start stop size =>
      "EOF span " ++ toString start ++ ".." ++ toString stop ++ " does not sit at end of input ("
        ++ toString size ++ ")"
  | .endMarkNotLast => "EOF is not the final token"

end Irregularity

namespace TokenStream

def checkAdjacent : List Token → Except Irregularity Unit
  | token :: next :: tokens =>
      if token.span.stop.offset = next.span.start.offset then checkAdjacent (next :: tokens)
      else .error (.gap token.span.stop.offset next.span.start.offset)
  | _ => .ok ()

def checkContiguous (tokens : List Token) : Except Irregularity Unit :=
  match tokens.head? with
  | some first =>
      if first.span.start.offset = 0 then checkAdjacent tokens
      else .error (.lateStart first.span.start.offset)
  | none => .ok ()

def checkEnd (tokens : List Token) (size : Nat) : Except Irregularity Unit :=
  let count := tokens.countP (·.isEnd)
  if count = 1 then
    match tokens.getLast? with
    | some last =>
        if last.isEnd then
          if last.span.start.offset = size ∧ last.span.stop.offset = size then .ok ()
          else .error (.endMarkElsewhere last.span.start.offset last.span.stop.offset size)
        else .error .endMarkNotLast
    | none => .error .endMarkNotLast
  else .error (.endMarkCount count)

def validate (stream : TokenStream) (size : Nat) : Except Irregularity Unit := do
  checkContiguous stream.tokens.toList
  checkEnd stream.tokens.toList size

end TokenStream
end ExprLex
