import ExprLex.Position

namespace ExprLex

structure Cursor where
  source : String
  rest : List Char
  position : Position

namespace Cursor

def ofText (source : String) : Cursor := ⟨source, source.toList, .start⟩

def peek (cursor : Cursor) (k : Nat) : Option Char := cursor.rest[k]?

def ahead (cursor : Cursor) (n : Nat) : String := String.ofList (cursor.rest.take n)

def positionAfter (cursor : Cursor) (n : Nat) : Except Fault Position :=
  cursor.position.advanceOver (cursor.rest.take n)

def advance (cursor : Cursor) (n : Nat) : Except Fault (String × Cursor) := do
  let position ← cursor.positionAfter n
  return (cursor.ahead n, { cursor with rest := cursor.rest.drop n, position })

def isAtEnd (cursor : Cursor) : Bool := cursor.rest.isEmpty

end Cursor
end ExprLex
