import ExprLex.Proofs.Text.Bytes
import ExprLex.Span

namespace ExprLex.Position
open Text

variable {p q : Position} {before part rest chars : List Char}

def past (p : Position) (c : Char) : Position :=
  if c = '\n' then ⟨p.offset + 1, p.line + 1, 1⟩
  else ⟨p.offset + c.utf8Size, p.line, p.column + 1⟩

def passed (p : Position) (chars : List Char) : Position := chars.foldl past p

@[simp] theorem passed_nil : p.passed [] = p := rfl

@[simp] theorem passed_cons (c : Char) : p.passed (c :: chars) = (p.past c).passed chars := rfl

@[simp] theorem passed_append : p.passed (before ++ part) = (p.passed before).passed part :=
  List.foldl_append

theorem past_offset (p : Position) (c : Char) : (p.past c).offset = p.offset + c.utf8Size := by
  rw [past]
  split
  · rename_i feed
    subst feed
    rfl
  · rfl

theorem passed_offset (p : Position) (chars : List Char) :
    (p.passed chars).offset = p.offset + bytes chars := by
  induction chars generalizing p with
  | nil => rfl
  | cons c chars ih => rw [passed_cons, ih, past_offset, bytes_cons, Nat.add_assoc]

theorem passed_line (p : Position) (chars : List Char) :
    (p.passed chars).line = p.line + chars.count '\n' := by
  induction chars generalizing p with
  | nil => rfl
  | cons c chars ih =>
      rw [passed_cons, ih, past, List.count_cons]
      by_cases feed : c = '\n'
      · simp only [feed, if_true, beq_self_eq_true]
        omega
      · simp [feed]

theorem passed_column (p : Position) (unbroken : '\n' ∉ chars) :
    (p.passed chars).column = p.column + chars.length := by
  induction chars generalizing p with
  | nil => rfl
  | cons c chars ih =>
      obtain ⟨first, others⟩ : '\n' ≠ c ∧ '\n' ∉ chars := by simpa using unbroken
      rw [passed_cons, ih _ others, past, if_neg first.symm, List.length_cons]
      dsimp only
      omega

theorem past_counters (p : Position) (c : Char) :
    (p.past c).line ≤ p.line + 1 ∧ (p.past c).column ≤ p.column + 1 := by
  rw [past]
  split <;> simp

theorem advance_eq (p : Position) (c : Char) :
    p.advance c = if (p.past c).inRange then .ok (p.past c) else .error .overflow := rfl

theorem advanceOver_append (p : Position) (before part : List Char) :
    p.advanceOver (before ++ part) = p.advanceOver before >>= fun q => q.advanceOver part := by
  induction before generalizing p with
  | nil => rfl
  | cons c before ih =>
      rw [List.cons_append, advanceOver, advanceOver]
      cases p.advance c with
      | error fault => rfl
      | ok next => exact ih next

theorem bytes_le (chars : List Char) : bytes chars ≤ 4 * chars.length := by
  induction chars with
  | nil => exact Nat.zero_le _
  | cons c chars ih =>
      have narrow := c.utf8Size_le_four
      rw [bytes_cons, List.length_cons]
      omega

theorem advanceOver_eq (line : p.line + chars.length < counterBound)
    (column : p.column + chars.length < counterBound)
    (offset : p.offset + bytes chars < offsetBound) :
    p.advanceOver chars = .ok (p.passed chars) := by
  induction chars generalizing p with
  | nil => rfl
  | cons c chars ih =>
      have counters := past_counters p c
      have next := past_offset p c
      rw [List.length_cons] at line column
      rw [bytes_cons] at offset
      have inside : (p.past c).inRange = true := by
        simp only [inRange, Bool.and_eq_true, decide_eq_true_eq]
        omega
      rw [advanceOver, advance_eq, if_pos inside]
      exact ih (by omega) (by omega) (by omega)

def behind (before : List Char) : Position := start.passed before

@[simp] theorem behind_nil : behind [] = start := rfl

@[simp] theorem behind_offset (before : List Char) : (behind before).offset = bytes before := by
  rw [behind, passed_offset]
  exact Nat.zero_add _

/-- Whether lines and columns of a text stay in range, whatever its characters are. -/
def Countable (chars : List Char) : Prop := chars.length + 1 < counterBound

instance : Decidable (Countable chars) := inferInstanceAs (Decidable (_ < _))

theorem Countable.left (countable : Countable (before ++ rest)) : Countable before := by
  rw [Countable, List.length_append] at countable
  rw [Countable]
  omega

theorem advanceOver_start (countable : Countable chars) :
    start.advanceOver chars = .ok (behind chars) := by
  have width := bytes_le chars
  unfold Countable counterBound at countable
  apply advanceOver_eq
  all_goals
    simp only [start, counterBound, offsetBound]
    omega

theorem advanceOver_behind (countable : Countable (before ++ part)) :
    (behind before).advanceOver part = .ok (behind (before ++ part)) := by
  have whole := advanceOver_start countable
  rw [advanceOver_append, advanceOver_start countable.left] at whole
  exact whole

theorem advanceOver_take {source : String} {ahead : List Char}
    (countable : Countable source.toList) (split : source.toList = before ++ ahead)
    (length : Nat) : (behind before).advanceOver (ahead.take length) =
      .ok (behind (before ++ ahead.take length)) := by
  have inside : Countable (before ++ ahead.take length ++ ahead.drop length) := by
    rw [List.append_assoc, List.take_append_drop, ← split]
    exact countable
  exact advanceOver_behind inside.left

/-- Whether `p` is the place that advancing over the text in front of its offset leads to. -/
def LiesIn (p : Position) (source : String) : Prop :=
  ∃ before, Text.slice source 0 p.offset = .ok before ∧ start.advanceOver before.toList = .ok p

theorem slice_behind {source : String} (split : source.toList = before ++ rest) :
    Text.slice source 0 (bytes before) = .ok (String.ofList before) := by
  have cut : Text.slice source (bytes []) (bytes [] + bytes before) = .ok (String.ofList before) :=
    slice_append split
  rwa [bytes_nil, Nat.zero_add] at cut

theorem slice_ahead {source : String} {ahead : List Char}
    (split : source.toList = before ++ ahead) (length : Nat) :
    Text.slice source (behind before).offset
      ((behind before).offset + bytes (ahead.take length)) =
        .ok (String.ofList (ahead.take length)) := by
  have whole : source.toList = before ++ ahead.take length ++ ahead.drop length := by
    rw [List.append_assoc, List.take_append_drop, split]
  rw [behind_offset]
  exact slice_append whole

theorem slice_rest {source : String} {ahead : List Char} (split : source.toList = before ++ ahead) :
    Text.slice source (behind before).offset source.utf8ByteSize = .ok (String.ofList ahead) := by
  have whole := slice_ahead split ahead.length
  rwa [List.take_length, behind_offset, ← bytes_append, ← split, ← utf8ByteSize_eq,
    ← behind_offset] at whole

theorem behind_liesIn {source : String} (countable : Countable source.toList)
    (split : source.toList = before ++ rest) : (behind before).LiesIn source := by
  refine ⟨String.ofList before, ?_, ?_⟩
  · rw [behind_offset]
    exact slice_behind split
  · rw [String.toList_ofList]
    exact advanceOver_start (split ▸ countable).left

end ExprLex.Position

namespace ExprLex.Span
open Position

variable {before part rest : List Char} {source : String}

def behind (before part : List Char) : Span :=
  ⟨Position.behind before, Position.behind (before ++ part)⟩

theorem between_behind (before part : List Char) :
    between (Position.behind before) (Position.behind (before ++ part)) =
      .ok (behind before part) :=
  if_pos (by simp)

theorem behind_slice (split : source.toList = before ++ part ++ rest) :
    (behind before part).slice source = .ok (String.ofList part) := by
  rw [slice, behind, behind_offset, behind_offset, Text.bytes_append]
  exact Text.slice_append split

end ExprLex.Span
