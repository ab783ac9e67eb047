import ExprLex.Proofs.LineIndex

namespace ExprLex
open Text Position

variable {before line lead tail rest read part more chars : List Char} {source : String}
  {span : Span} {message shown : String} {carets : Nat}

theorem length_splitOn (text : List Char) :
    (text.splitOn '\n').length = text.count '\n' + 1 := by
  induction text with
  | nil => rfl
  | cons c text ih =>
      rw [List.splitOn_cons_eq_if_modifyHead, List.count_cons]
      split
      · rw [List.length_cons, ih]
      · rw [List.length_modifyHead, ih, Nat.add_zero]

theorem Line.splitOn (line : Line before chars rest) :
    ((before ++ chars ++ rest).splitOn '\n')[before.count '\n']? = some chars := by
  have first : ((chars ++ rest).splitOn '\n')[0]? = some chars := by
    rcases line.ends with rfl | ⟨tail, rfl⟩
    · rw [List.append_nil, List.splitOn_eq_singleton line.unbroken]
      rfl
    · rw [List.splitOn_append_cons_self_of_not_mem line.unbroken]
      rfl
  rw [List.append_assoc]
  rcases line.begins with rfl | ⟨lead, rfl⟩
  · exact first
  · have number : (lead ++ ['\n']).count '\n' = (lead.splitOn '\n').length := by
      rw [length_splitOn, List.count_append]
      rfl
    rw [List.append_assoc, List.singleton_append, List.splitOn_append_cons_self, number,
      List.getElem?_append_right le_rfl, Nat.sub_self]
    exact first

def trimmed (line : List Char) : List Char := line.rdropWhile (· == '\r')

theorem length_le_trimmed_iff : lead.length ≤ (trimmed (lead ++ tail)).length ↔
    ¬ (lead.getLast? = some '\r' ∧ ∀ c ∈ tail, c = '\r') := by
  rw [trimmed, List.rdropWhile, List.reverse_append, List.dropWhile_append]
  split
  · rename_i vanished
    have returns : ∀ c ∈ tail, c = '\r' := by simpa using vanished
    cases lead using List.reverseRecOn with
    | nil => simp
    | append_singleton lead c =>
        by_cases trims : c = '\r'
        · have shorter := (List.dropWhile_sublist (· == '\r') (l := lead.reverse)).length_le
          rw [List.length_reverse] at shorter
          refine iff_of_false ?_ (not_not.mpr ⟨by simp [trims], returns⟩)
          simpa [trims] using shorter
        · simp [trims]
  · rename_i kept
    have other : ∃ c ∈ tail, c ≠ '\r' := by simpa using kept
    simp [other]

/-- Whether a part of a text begins behind a carriage return that its line is shown without, and
goes on over the end of the line. -/
def Overruns (read part : List Char) : Prop :=
  read.getLast? = some '\r' ∧ (part.dropWhile (· == '\r')).head? = some '\n'

instance : Decidable (Overruns read part) := inferInstanceAs (Decidable (_ ∧ _))

theorem Overruns.broken (overruns : Overruns read part) : '\n' ∈ part :=
  (List.dropWhile_sublist _).mem (List.mem_of_head? overruns.2)

theorem head_dropWhile_returns (unbroken : '\n' ∉ tail) (rest : List Char) :
    ((tail ++ '\n' :: rest).dropWhile (· == '\r')).head? = some '\n' ↔ ∀ c ∈ tail, c = '\r' := by
  induction tail with
  | nil => simp
  | cons c tail ih =>
      obtain ⟨first, others⟩ : '\n' ≠ c ∧ '\n' ∉ tail := by simpa using unbroken
      by_cases trims : c = '\r'
      · simp [trims, ih others]
      · simp [trims, Ne.symm first]

theorem Line.shown_iff (line : Line before (lead ++ tail) rest)
    (ahead : part ++ more = tail ++ rest) (broken : '\n' ∈ part) :
    lead.length ≤ (trimmed (lead ++ tail)).length ↔ ¬ Overruns (before ++ lead) part := by
  have unbroken : '\n' ∉ tail := fun listed => line.unbroken (List.mem_append_right _ listed)
  have last : (before ++ lead).getLast? = some '\r' ↔ lead.getLast? = some '\r' := by
    rw [List.getLast?_append]
    rcases line.begins with rfl | ⟨earlier, rfl⟩
    · simp
    · cases lead.getLast? <;> simp
  -- The part reads the rest of the line and the line feed behind it.
  obtain ⟨others, rfl⟩ : ∃ others, part = tail ++ '\n' :: others := by
    rcases List.append_eq_append_iff.mp ahead with ⟨left, rfl, -⟩ | ⟨others, rfl, same⟩
    · exact absurd (List.mem_append_left _ broken) unbroken
    · have feed : '\n' ∈ others := (List.mem_append.mp broken).resolve_left unbroken
      obtain ⟨c, others, rfl⟩ := List.exists_cons_of_ne_nil (List.ne_nil_of_mem feed)
      rcases line.ends with rfl | ⟨later, rfl⟩
      · cases same
      · obtain ⟨rfl, -⟩ := List.cons.inj same
        exact ⟨others, rfl⟩
  rw [length_le_trimmed_iff, Overruns, last, head_dropWhile_returns unbroken]

namespace LineIndex

theorem trimReturns_eq (line : List Char) :
    trimReturns (String.ofList line) = String.ofList (trimmed line) := by
  rw [trimReturns, String.toList_ofList]
  rfl

def margin (line : Nat) : String := String.ofList (List.replicate (toString line).length ' ')

/-- A message with the place of a span, the line it begins in and its number, and below the margin
carets that start at the column of the span. -/
def snippet (span : Span) (message shown : String) (carets : Nat) : String :=
  "error: " ++ message ++ "\n" ++
  "  --> " ++ toString span.start.line ++ ":" ++ toString span.start.column ++ "\n" ++
  margin span.start.line ++ " |\n" ++
  toString span.start.line ++ " | " ++ shown ++ "\n" ++
  margin span.start.line ++ " | " ++
    String.ofList (List.replicate (span.start.column - 1) ' ' ++ List.replicate carets '^') ++ "\n"

/-- How many carets belong below a span that reads `part`: one for each character of it, or for
each that is shown from its column on if it leaves its line, but never none. -/
def caretsBelow (shown part : List Char) (column : Nat) : Nat :=
  max 1 (if '\n' ∈ part then (shown.drop (column - 1)).length else part.length)

def Shows (source : String) (span : Span) (message text : String) : Prop :=
  ∃ line part, (source.toList.splitOn '\n')[span.start.line - 1]? = some line ∧
    span.slice source = .ok part ∧
    text = snippet span message (String.ofList (trimmed line))
      (caretsBelow (trimmed line) part.toList span.start.column)

theorem report_eq (found : (ofText source).line? span.start.line = .ok (some shown))
    (counted : caretCount span shown = .ok carets) (message : String) :
    (ofText source).report span message = .ok (snippet span message shown carets) := by
  rw [report, found]
  simp only [bind, Except.bind, counted, pure, Except.pure]
  rw [show "\n  --> " = "\n" ++ "  --> " from rfl]
  unfold snippet margin Position.text Text.run
  simp only [String.append_assoc, String.ofList_append]

theorem caretCount_behind {n : Nat} (column : (behind read).column = n + 1)
    (kept : '\n' ∈ part → n ≤ chars.length) :
    caretCount (.behind read part) (String.ofList chars) =
      .ok (caretsBelow chars part (n + 1)) := by
  have stop : behind (read ++ part) = (behind read).passed part := passed_append
  rw [caretCount, Span.behind, caretsBelow, stop, column, String.length_ofList]
  by_cases broken : '\n' ∈ part
  · have crossed : (behind read).line ≠ ((behind read).passed part).line := by
      have feeds := List.count_pos_iff.mpr broken
      rw [passed_line]
      omega
    have inside := kept broken
    rw [if_neg crossed, if_pos (by omega), if_pos broken, List.length_drop]
    congr 2
    omega
  · have same : (behind read).line = ((behind read).passed part).line := by
      rw [passed_line, List.count_eq_zero.mpr broken]
      rfl
    rw [if_pos same, if_neg broken, passed_column _ broken, column, Nat.add_sub_cancel_left]

theorem caretCount_overrun {n : Nat} (column : (behind read).column = n + 1)
    (broken : '\n' ∈ part) (short : chars.length < n) :
    caretCount (.behind read part) (String.ofList chars) = .error .negativeCount := by
  have stop : behind (read ++ part) = (behind read).passed part := passed_append
  have crossed : (behind read).line ≠ ((behind read).passed part).line := by
    have feeds := List.count_pos_iff.mpr broken
    rw [passed_line]
    omega
  rw [caretCount, Span.behind, stop, column, String.length_ofList, if_neg crossed,
    if_neg (by omega)]

theorem report_fails {fault : Fault}
    (found : (ofText source).line? span.start.line = .ok (some shown))
    (counted : caretCount span shown = .error fault) (message : String) :
    (ofText source).report span message = .error fault := by
  rw [report, found]
  simp only [bind, Except.bind, counted]

theorem report_behind (split : source.toList = read ++ part ++ more) (message : String) :
    if Overruns read part then
      (ofText source).report (.behind read part) message = .error .negativeCount
    else ∃ text, (ofText source).report (.behind read part) message = .ok text ∧
      Shows source (.behind read part) message text := by
  have slice := Span.behind_slice split
  obtain ⟨before, lead, tail, rest, rfl, ahead, line⟩ := exists_line read (part ++ more)
  have around : source.toList = before ++ (lead ++ tail) ++ rest := by
    simp [split, ahead]
  have found := line?_eq line around
  rw [trimReturns_eq, ← line.number] at found
  split
  · rename_i overruns
    have hidden : ¬ lead.length ≤ (trimmed (lead ++ tail)).length := by
      rw [line.shown_iff ahead overruns.broken]
      exact not_not.mpr overruns
    exact report_fails found
      (caretCount_overrun line.column overruns.broken (Nat.lt_of_not_le hidden)) message
  · rename_i within
    have solid (broken : '\n' ∈ part) : lead.length ≤ (trimmed (lead ++ tail)).length :=
      (line.shown_iff ahead broken).mpr within
    refine ⟨_, report_eq found (caretCount_behind line.column solid) message,
      lead ++ tail, String.ofList part, ?_, slice, ?_⟩
    · have number : (Span.behind (before ++ lead) part).start.line - 1 = before.count '\n' := by
        rw [Span.behind, line.number, Nat.add_sub_cancel]
      rw [number, around]
      exact line.splitOn
    · rw [String.toList_ofList, Span.behind, line.column]

theorem exists_report (split : source.toList = read ++ part ++ more)
    (kept : '\n' ∈ part → (∀ c ∈ read.getLast?, c ≠ '\r') ∨ ∀ c ∈ part.head?, c ≠ '\n' ∧ c ≠ '\r')
    (message : String) :
    ∃ text, (ofText source).report (.behind read part) message = .ok text ∧
      Shows source (.behind read part) message text := by
  have within : ¬ Overruns read part := by
    intro overruns
    rcases kept overruns.broken with solid | solid
    · exact solid '\r' overruns.1 rfl
    · obtain ⟨c, others, rfl⟩ := List.exists_cons_of_ne_nil (List.ne_nil_of_mem overruns.broken)
      obtain ⟨notFeed, notReturn⟩ := solid c rfl
      simpa [notReturn, notFeed] using overruns.2
  have found := report_behind split message
  rwa [if_neg within] at found

/-- Between any two places in a text there is a span, and it can be reported if and only if the text
of it does not overrun its line. -/
theorem report_of_range {first last : Nat} (countable : Position.Countable source.toList)
    (ordered : first ≤ last) (begins : (⟨first⟩ : String.Pos.Raw).IsValid source)
    (ends : (⟨last⟩ : String.Pos.Raw).IsValid source) (message : String) :
    ∃ p q span before part, (ofText source).positionAt first = .ok p ∧
      (ofText source).positionAt last = .ok q ∧ Span.between p q = .ok span ∧
      Text.slice source 0 first = .ok before ∧ Text.slice source first last = .ok part ∧
      if Overruns before.toList part.toList then
        (ofText source).report span message = .error .negativeCount
      else ∃ text, (ofText source).report span message = .ok text ∧
        Shows source span message text := by
  obtain ⟨read, part, more, split, rfl, rfl⟩ := exists_part ordered begins ends
  have whole : source.toList = read ++ (part ++ more) := by simp [split]
  refine ⟨behind read, behind (read ++ part), .behind read part, String.ofList read,
    String.ofList part, ?_, ?_, Span.between_behind read part, slice_behind whole, ?_, ?_⟩
  · rw [← behind_offset]
    exact positionAt_offset countable whole
  · rw [← behind_offset]
    exact positionAt_offset countable split
  · rw [bytes_append]
    exact slice_append split
  · simp only [String.toList_ofList]
    exact report_behind split message

theorem report_of_range_returns : Position.Countable "a\r\r\nb".toList ∧ 1 ≤ 4 ∧
    (⟨1⟩ : String.Pos.Raw).IsValid "a\r\r\nb" ∧ (⟨4⟩ : String.Pos.Raw).IsValid "a\r\r\nb" ∧
    ∃ p q span before part, (ofText "a\r\r\nb").positionAt 1 = .ok p ∧
      (ofText "a\r\r\nb").positionAt 4 = .ok q ∧ Span.between p q = .ok span ∧
      Text.slice "a\r\r\nb" 0 1 = .ok before ∧ Text.slice "a\r\r\nb" 1 4 = .ok part ∧
      if Overruns before.toList part.toList then
        (ofText "a\r\r\nb").report span "here" = .error .negativeCount
      else ∃ text, (ofText "a\r\r\nb").report span "here" = .ok text ∧
        Shows "a\r\r\nb" span "here" text :=
  have countable : Position.Countable "a\r\r\nb".toList := by
    rw [Position.Countable, counterBound]
    decide
  ⟨countable, by decide, by decide, by decide,
    report_of_range countable (by decide) (by decide) (by decide) "here"⟩

theorem report_feed_fails : ∃ p q span, (ofText "a\r\nb").positionAt 2 = .ok p ∧
    (ofText "a\r\nb").positionAt 3 = .ok q ∧ Span.between p q = .ok span ∧
    (ofText "a\r\nb").report span "here" = .error .negativeCount :=
  ⟨⟨2, 1, 3⟩, ⟨3, 2, 1⟩, ⟨⟨2, 1, 3⟩, ⟨3, 2, 1⟩⟩, by decide, by decide, by decide, by decide⟩

end LineIndex
end ExprLex
