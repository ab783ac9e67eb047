import ExprLex.Cursor
import ExprLex.Proofs.Position

namespace ExprLex
open Position

namespace Cursor

variable {source : String} {read ahead : List Char}

def advances (cursor : Cursor) : List Nat → Except Fault (List String × Cursor)
  | [] => .ok ([], cursor)
  | n :: counts => do
      let (text, next) ← cursor.advance n
      let (texts, last) ← next.advances counts
      return (text :: texts, last)

def between (source : String) (read ahead : List Char) : Cursor := ⟨source, ahead, behind read⟩

section
variable (countable : Position.Countable source.toList) (split : source.toList = read ++ ahead)
include countable split

theorem positionAfter_between (n : Nat) :
    (between source read ahead).positionAfter n = .ok (behind (read ++ ahead.take n)) :=
  advanceOver_take countable split n

theorem advance_between (n : Nat) : (between source read ahead).advance n =
    .ok (String.ofList (ahead.take n),
      between source (read ++ ahead.take n) (ahead.drop n)) := by
  rw [advance, positionAfter_between countable split]
  rfl

theorem advances_between (counts : List Nat) : ∃ texts,
    (between source read ahead).advances counts =
      .ok (texts, between source (read ++ ahead.take counts.sum) (ahead.drop counts.sum)) ∧
    String.join texts = String.ofList (ahead.take counts.sum) := by
  induction counts generalizing read ahead with
  | nil => exact ⟨[], by simp [advances], by simp⟩
  | cons n counts ih =>
      have later : source.toList = read ++ ahead.take n ++ ahead.drop n := by
        rw [List.append_assoc, List.take_append_drop, split]
      obtain ⟨texts, read, joined⟩ := ih later
      refine ⟨String.ofList (ahead.take n) :: texts, ?_, ?_⟩
      · simp only [advances, advance_between countable split, read, bind, Except.bind, pure,
          Except.pure]
        rw [List.sum_cons, List.take_add, List.drop_drop, List.append_assoc]
      · rw [String.join_cons, joined, List.sum_cons, List.take_add, String.ofList_append]

end

/-- Whether a cursor has read the first `count` characters of `source`: its place is behind them,
and what it shows is what follows them. -/
structure Stands (cursor : Cursor) (source : String) (count : Nat) : Prop where
  same : cursor.source = source
  whole : String.ofList (source.toList.take count) ++ String.ofList cursor.rest = source
  rest : Text.slice source cursor.position.offset source.utf8ByteSize =
    .ok (String.ofList cursor.rest)
  position : start.advanceOver (source.toList.take count) = .ok cursor.position
  offset : cursor.position.offset = (String.ofList (source.toList.take count)).utf8ByteSize
  peek : ∀ k, cursor.peek k = source.toList[count + k]?
  lookahead : ∀ n, ∃ next, cursor.advance n = .ok (cursor.ahead n, next) ∧
    cursor.positionAfter n = .ok next.position
  atEnd : cursor.isAtEnd = true ↔ cursor.peek 0 = none
  exhausted : cursor.isAtEnd = true ↔ source.utf8ByteSize ≤ cursor.position.offset

theorem between_stands (countable : Position.Countable source.toList)
    (split : source.toList = read ++ ahead) :
    (between source read ahead).Stands source read.length := by
  have taken : source.toList.take read.length = read := by rw [split, List.take_left]
  constructor
  case same => rfl
  case whole =>
    rw [taken, between, ← String.ofList_append, ← split, String.ofList_toList]
  case rest => exact slice_rest split
  case position =>
    rw [taken]
    exact advanceOver_start (split ▸ countable).left
  case offset =>
    rw [taken, Text.utf8ByteSize_ofList]
    exact behind_offset read
  case peek =>
    intro k
    rw [split, List.getElem?_append_right (Nat.le_add_right ..), Nat.add_sub_cancel_left]
    rfl
  case lookahead =>
    intro n
    exact ⟨_, advance_between countable split n, positionAfter_between countable split n⟩
  case atEnd => simp [between, isAtEnd, Cursor.peek]
  case exhausted =>
    have few := Text.length_le_bytes ahead
    rw [Text.utf8ByteSize_eq, split, Text.bytes_append, between, isAtEnd, behind_offset,
      List.isEmpty_iff]
    constructor
    · rintro rfl
      simp
    · intro reached
      have nothing : ahead.length = 0 := by omega
      exact List.length_eq_zero_iff.mp nothing

/-- However a text is read, the cursor gives its first characters, as many as it was asked for or
all of them, and stands behind them. -/
theorem advances_stands (countable : Position.Countable source.toList) (counts : List Nat) :
    ∃ texts cursor, (ofText source).advances counts = .ok (texts, cursor) ∧
      String.join texts = String.ofList (source.toList.take (min counts.sum source.length)) ∧
      cursor.Stands source (min counts.sum source.length) := by
  have split : source.toList = [] ++ source.toList := rfl
  obtain ⟨texts, reads, joined⟩ := advances_between countable split counts
  have later : source.toList = source.toList.take counts.sum ++ source.toList.drop counts.sum :=
    (List.take_append_drop ..).symm
  have stands := between_stands countable later
  rw [List.length_take, String.length_toList] at stands
  refine ⟨texts, _, reads, ?_, stands⟩
  rw [joined, ← String.length_toList, ← List.take_eq_take_min]

theorem advances_stands_past : Position.Countable "é\nb".toList ∧
    ∃ texts cursor, (ofText "é\nb").advances [0, 2, 5] = .ok (texts, cursor) ∧
      String.join texts = "é\nb" ∧ cursor.Stands "é\nb" 3 := by
  have countable : Position.Countable "é\nb".toList := by decide
  exact ⟨countable, advances_stands countable [0, 2, 5]⟩

end Cursor
end ExprLex
