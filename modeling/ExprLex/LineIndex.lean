import ExprLex.Span
import ExprLex.Text.Layout

namespace ExprLex

structure LineIndex where
  source : String
  starts : List Nat

namespace LineIndex

def startsFrom (offset : Nat) (found : List Nat) : List Char → List Nat
  | [] => found.reverse
  | c :: chars =>
      let next := offset + c.utf8Size
      startsFrom next (if c = '\n' then next :: found else found) chars

def ofText (source : String) : LineIndex := ⟨source, startsFrom 0 [0] source.toList⟩

/-- Where a number stands in an ascending list, or else where it would have to be put. -/
def search (n : Nat) (numbers : List Nat) : Except Nat Nat :=
  let place := (numbers.takeWhile (· < n)).length
  if numbers[place]? = some n then .ok place else .error place

def lineAt (index : LineIndex) (offset : Nat) : Except Fault Nat :=
  match search offset index.starts with
  | .ok line => .ok line
  | .error 0 => .error .negativeCount
  | .error (line + 1) => .ok line

/-- The place of a byte offset. Offsets behind the text stand for its end, and counters that leave
their range begin again at 0. -/
def positionAt (index : LineIndex) (offset : Nat) : Except Fault Position := do
  let offset := min offset index.source.utf8ByteSize
  let line ← index.lineAt offset
  match index.starts[line]? with
  | none => throw .overflow
  | some start =>
      let before ← Text.slice index.source start offset
      return ⟨offset, (line + 1) % Position.counterBound,
        (before.length + 1) % Position.counterBound⟩

def trimReturns (line : String) : String :=
  String.ofList (line.toList.reverse.dropWhile (· == '\r')).reverse

def line? (index : LineIndex) (number : Nat) : Except Fault (Option String) :=
  match index.starts.drop (number - 1) with
  | start :: later =>
      if number = 0 then .ok none
      else do
        let stop := match later with
          | next :: _ => next - 1
          | [] => index.source.utf8ByteSize
        return some (trimReturns (← Text.slice index.source start stop))
  | [] => .ok none

def caretCount (span : Span) (line : String) : Except Fault Nat :=
  if span.start.line = span.stop.line then .ok (max 1 (span.stop.column - span.start.column))
  else if span.start.column ≤ line.length + 1 then .ok (max 1 (line.length + 1 - span.start.column))
  else .error .negativeCount

def report (index : LineIndex) (span : Span) (message : String) : Except Fault String := do
  let head := "error: " ++ message ++ "\n  --> " ++ span.start.text ++ "\n"
  match ← index.line? span.start.line with
  | none => return head
  | some line =>
      let number := toString span.start.line
      let margin := Text.run number.length ' '
      let carets ← caretCount span line
      return head ++ margin ++ " |\n" ++ number ++ " | " ++ line ++ "\n" ++ margin ++ " | "
        ++ Text.run (span.start.column - 1) ' ' ++ Text.run carets '^' ++ "\n"

end LineIndex
end ExprLex
