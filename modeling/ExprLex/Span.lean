import ExprLex.Position
import ExprLex.Text.Bytes

namespace ExprLex

structure Span where
  start : Position
  stop : Position
deriving DecidableEq

namespace Span

def between (start stop : Position) : Except Fault Span :=
  if start.offset ≤ stop.offset then .ok ⟨start, stop⟩ else .error .reversedSpan

def emptyAt (p : Position) : Span := ⟨p, p⟩

def length (s : Span) : Except Fault Nat :=
  if s.start.offset ≤ s.stop.offset then .ok (s.stop.offset - s.start.offset)
  else .error .negativeCount

def isEmpty (s : Span) : Bool := s.start.offset == s.stop.offset

def contains (s : Span) (offset : Nat) : Bool :=
  s.start.offset ≤ offset && offset < s.stop.offset

def slice (s : Span) (source : String) : Except Fault String :=
  Text.slice source s.start.offset s.stop.offset

def text (s : Span) : String :=
  if s.start.line = s.stop.line then s.start.text ++ "-" ++ toString s.stop.column
  else s.start.text ++ "-" ++ s.stop.text

end Span
end ExprLex
