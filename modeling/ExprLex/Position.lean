import ExprLex.Fault

namespace ExprLex

/-- The offset counts bytes from 0; line and column count from 1, the column in characters. -/
structure Position where
  offset : Nat
  line : Nat
  column : Nat
deriving DecidableEq

namespace Position

def offsetBound : Nat := 18446744073709551616

def counterBound : Nat := 4294967296

def start : Position := ⟨0, 1, 1⟩

def inRange (p : Position) : Bool :=
  p.offset < offsetBound && p.line < counterBound && p.column < counterBound

def advance (p : Position) (c : Char) : Except Fault Position :=
  let next : Position :=
    if c = '\n' then ⟨p.offset + 1, p.line + 1, 1⟩
    else ⟨p.offset + c.utf8Size, p.line, p.column + 1⟩
  if next.inRange then .ok next else .error .overflow

def advanceOver (p : Position) : List Char → Except Fault Position
  | [] => .ok p
  | c :: chars =>
      match p.advance c with
      | .ok next => next.advanceOver chars
      | .error fault => .error fault

def order (p q : Position) : Ordering :=
  ((compare p.offset q.offset).then (compare p.line q.line)).then (compare p.column q.column)

def text (p : Position) : String := toString p.line ++ ":" ++ toString p.column

end Position
end ExprLex
