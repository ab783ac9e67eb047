import ExprLex.Fault

namespace ExprLex.Text

def dropBytes : List Char → Nat → Except Fault (List Char)
  | chars, 0 => .ok chars
  | [], _ + 1 => .error .badCut
  | c :: chars, count + 1 =>
      if c.utf8Size ≤ count + 1 then dropBytes chars (count + 1 - c.utf8Size) else .error .badCut

def takeBytesOnto (taken : List Char) : List Char → Nat → Except Fault (List Char)
  | _, 0 => .ok taken.reverse
  | [], _ + 1 => .error .badCut
  | c :: chars, count + 1 =>
      if c.utf8Size ≤ count + 1 then takeBytesOnto (c :: taken) chars (count + 1 - c.utf8Size)
      else .error .badCut

def takeBytes (chars : List Char) (count : Nat) : Except Fault (List Char) :=
  takeBytesOnto [] chars count

def slice (text : String) (start stop : Nat) : Except Fault String := do
  if stop < start then throw .badCut
  let tail ← dropBytes text.toList start
  return String.ofList (← takeBytes tail (stop - start))

/-- Steps back from an offset to the nearest one that is not inside a character of the text. To step
back from 0 is a fault. -/
def boundaryFrom (text : String) (offset : Nat) : Except Fault text.Pos :=
  if valid : (⟨offset⟩ : String.Pos.Raw).IsValid text then .ok ⟨⟨offset⟩, valid⟩
  else match offset with
    | 0 => .error .negativeCount
    | offset + 1 => boundaryFrom text offset

theorem boundaryFrom_isOk (text : String) (offset : Nat) :
    (boundaryFrom text offset).isOk = true := by
  fun_induction boundaryFrom text offset with
  | case1 => rfl
  | case2 inside => exact absurd String.Pos.Raw.isValid_zero inside
  | case3 offset inside ih => exact ih

def clip (text : String) (budget : Nat) : String :=
  if text.utf8ByteSize ≤ budget then text
  else match boundaryFrom text budget, boundaryFrom_isOk text budget with
    | .ok stop, _ => (text.sliceTo stop).copy

end ExprLex.Text
