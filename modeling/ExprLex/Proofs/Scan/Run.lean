import ExprLex.Proofs.Grammar.Matching
import ExprLex.Proofs.Limits
import ExprLex.Scan.Scanner

namespace ExprLex
open Position Rule

variable {limits : Limits} {given : Nat} {kind : Kind} {before word rest ahead : List Char}
  {items : List Item} {problem : Problem} {scanner : Scanner}

def Token.behind (kind : Kind) (before word : List Char) : Token :=
  .ofKind kind (String.ofList word) (.behind before word)

theorem Token.text_behind (kind : Kind) (before word : List Char) :
    (behind kind before word).lexeme.toList = word := String.toList_ofList

def Kind.Fits (limits : Limits) (kind : Kind) (word : List Char) : Prop :=
  (kind.isString = true → Text.bytes word ≤ limits.stringBytes) ∧
    (kind = .identifier → word.length ≤ limits.identifierChars)

/-- Why a scan that has read `before` and has given so many tokens stops in front of other text. -/
inductive Stops (limits : Limits) (given : Nat) (before : List Char) : List Char → Problem → Prop
  | crowded {c : Char} {rest : List Char} (full : limits.tokens ≤ given) :
      Stops limits given before (c :: rest)
        (.tooManyTokens limits.tokens (.emptyAt (behind before)))
  | unknown {c : Char} {rest : List Char} (room : given < limits.tokens)
      (chosen : choice (c :: rest) = none) :
      Stops limits given before (c :: rest) (.unrecognizedCharacter c (.behind before [c]))
  | unclosed {c : Char} {rest : List Char} {length : Nat} (room : given < limits.tokens)
      (chosen : choice (c :: rest) = some (.reject length .unterminatedString)) :
      Stops limits given before (c :: rest)
        (.unterminatedString c (.behind before ((c :: rest).take length)))
  | malformed {c : Char} {rest : List Char} {length : Nat} (room : given < limits.tokens)
      (chosen : choice (c :: rest) = some (.reject length .malformedNumber)) :
      Stops limits given before (c :: rest)
        (.malformedNumber (String.ofList ((c :: rest).take length))
          (.ofText ((c :: rest).take length)) (.behind before ((c :: rest).take length)))
  | large {word rest : List Char} {kind : Kind} (room : given < limits.tokens)
      (chosen : choice (word ++ rest) = some (.accept word.length kind)) (string : kind.isString)
      (exceeds : limits.stringBytes < Text.bytes word) :
      Stops limits given before (word ++ rest)
        (.stringTooLarge (Text.bytes word) limits.stringBytes (.behind before word))
  | long {word rest : List Char} (room : given < limits.tokens)
      (chosen : choice (word ++ rest) = some (.accept word.length .identifier))
      (exceeds : limits.identifierChars < word.length) :
      Stops limits given before (word ++ rest)
        (.identifierTooLong word.length limits.identifierChars (.behind before word))

structure Takes (limits : Limits) (given : Nat) (kind : Kind) (word rest : List Char) : Prop where
  room : given < limits.tokens
  chosen : choice (word ++ rest) = some (.accept word.length kind)
  fits : kind.Fits limits word

/-- The items of a scan that has read `before` and has given so many tokens. -/
inductive Scans (limits : Limits) :
    (given : Nat) → (before ahead : List Char) → (items : List Item) → Prop
  | finished {given : Nat} {before : List Char} :
      Scans limits given before [] [.ok (.endAt (behind before))]
  | stopped {given : Nat} {before ahead : List Char} {problem : Problem}
      (stops : Stops limits given before ahead problem) :
      Scans limits given before ahead [.error problem]
  | token {given : Nat} {kind : Kind} {before word rest : List Char} {items : List Item}
      (takes : Takes limits given kind word rest)
      (later : Scans limits (given + 1) (before ++ word) rest items) :
      Scans limits given before (word ++ rest) (.ok (.behind kind before word) :: items)

theorem Takes.lexeme (takes : Takes limits given kind word rest) :
    word ∈ kind.language ∧ word ≠ [] := by
  obtain ⟨read, more, split, member, exact, nonempty⟩ := choice_lexeme takes.chosen
  obtain ⟨rfl, -⟩ := List.append_inj split exact.symm
  exact ⟨member, nonempty⟩

theorem Takes.goesOn (takes : Takes limits given kind word rest) (before : List Char) :
    (Token.behind kind before word).isEnd = false := by
  have proper := Rule.language_proper takes.lexeme.1
  simpa [Token.behind, Token.ofKind, Token.isEnd] using proper

theorem Stops.nonempty (stops : Stops limits given before ahead problem) : ahead ≠ [] := by
  rintro rfl
  generalize empty : ([] : List Char) = text at stops
  cases stops with
  | large room chosen =>
      rw [← empty] at chosen
      cases chosen
  | long room chosen =>
      rw [← empty] at chosen
      cases chosen
  | crowded | unknown | unclosed | malformed => cases empty

theorem stops_or_takes (limits : Limits) (given : Nat) (before : List Char)
    (nonempty : ahead ≠ []) :
    (∃ problem, Stops limits given before ahead problem) ∨
      ∃ kind word rest, ahead = word ++ rest ∧ Takes limits given kind word rest := by
  obtain ⟨c, tail, rfl⟩ := List.exists_cons_of_ne_nil nonempty
  by_cases full : limits.tokens ≤ given
  · exact .inl ⟨_, .crowded full⟩
  · have room := Nat.lt_of_not_le full
    cases chosen : choice (c :: tail) with
    | none => exact .inl ⟨_, .unknown room chosen⟩
    | some proposal =>
        cases proposal with
        | reject length flaw =>
            cases flaw with
            | unterminatedString => exact .inl ⟨_, .unclosed room chosen⟩
            | malformedNumber => exact .inl ⟨_, .malformed room chosen⟩
        | accept length kind =>
            obtain ⟨word, rest, split, member, rfl, -⟩ := choice_lexeme chosen
            rw [split] at chosen ⊢
            by_cases large : kind.isString = true ∧ limits.stringBytes < Text.bytes word
            · exact .inl ⟨_, .large room chosen large.1 large.2⟩
            · by_cases long : kind = .identifier ∧ limits.identifierChars < word.length
              · obtain ⟨rfl, long⟩ := long
                exact .inl ⟨_, .long room chosen long⟩
              · refine .inr ⟨kind, word, rest, rfl, room, chosen, ?_, ?_⟩
                · intro string
                  exact Nat.le_of_not_lt fun exceeds => large ⟨string, exceeds⟩
                · intro identifier
                  exact Nat.le_of_not_lt fun exceeds => long ⟨identifier, exceeds⟩

theorem exists_scans (limits : Limits) (given : Nat) (before ahead : List Char) :
    ∃ items, Scans limits given before ahead items := by
  induction length : ahead.length using Nat.strong_induction_on generalizing given before ahead with
  | _ length ih =>
      subst length
      by_cases empty : ahead = []
      · subst empty
        exact ⟨_, .finished⟩
      · rcases stops_or_takes limits given before empty with ⟨problem, stops⟩ |
          ⟨kind, word, rest, rfl, takes⟩
        · exact ⟨_, .stopped stops⟩
        · have positive := List.length_pos_iff.mpr takes.lexeme.2
          obtain ⟨items, later⟩ :=
            ih rest.length (by rw [List.length_append]; omega) (given + 1) (before ++ word) rest rfl
          exact ⟨_, .token takes later⟩

theorem Scans.read {token : Token} (scans : Scans limits given before ahead (.ok token :: items))
    (goesOn : items ≠ []) : ∃ kind word rest, ahead = word ++ rest ∧
      token = .behind kind before word ∧ Takes limits given kind word rest ∧
      Scans limits (given + 1) (before ++ word) rest items := by
  cases scans with
  | finished => contradiction
  | token takes later => exact ⟨_, _, _, rfl, rfl, takes, later⟩

theorem Scans.last_cases {last : Item} (scans : Scans limits given before ahead [last]) :
    (ahead = [] ∧ last = .ok (.endAt (behind before))) ∨
      ∃ problem, Stops limits given before ahead problem ∧ last = .error problem := by
  generalize listed : [last] = items at scans
  cases scans with
  | finished => exact .inl ⟨rfl, List.singleton_inj.mp listed⟩
  | stopped stops => exact .inr ⟨_, stops, List.singleton_inj.mp listed⟩
  | token takes later => cases later <;> cases listed

inductive ScansText (limits : Limits) (source : String) : (items : List Item) → Prop
  | large (exceeds : limits.sourceBytes < source.utf8ByteSize) :
      ScansText limits source [.error (.sourceTooLarge source.utf8ByteSize limits.sourceBytes)]
  | scanned {items : List Item} (small : source.utf8ByteSize ≤ limits.sourceBytes)
      (scans : Scans limits 0 [] source.toList items) : ScansText limits source items

theorem exists_scansText (limits : Limits) (source : String) :
    ∃ items, ScansText limits source items := by
  by_cases small : source.utf8ByteSize ≤ limits.sourceBytes
  · obtain ⟨items, scans⟩ := exists_scans limits 0 [] source.toList
    exact ⟨items, .scanned small scans⟩
  · exact ⟨_, .large (Nat.lt_of_not_le small)⟩

theorem ScansText.size_cases {source : String} {tokens : List Token} {last : Item}
    (scans : ScansText limits source (tokens.map .ok ++ [last])) :
    (limits.sourceBytes < source.utf8ByteSize ∧ tokens = [] ∧
      last = .error (.sourceTooLarge source.utf8ByteSize limits.sourceBytes)) ∨
    source.utf8ByteSize ≤ limits.sourceBytes ∧
      Scans limits 0 [] source.toList (tokens.map .ok ++ [last]) := by
  generalize listed : tokens.map .ok ++ [last] = items at scans
  cases scans with
  | large exceeds =>
      obtain ⟨none, same⟩ := (List.append_eq_singleton_iff.mp listed).resolve_right (by simp)
      exact .inl ⟨exceeds, List.map_eq_nil_iff.mp none, List.singleton_inj.mp same⟩
  | scanned small scans => exact .inr ⟨small, scans⟩

namespace Scanner

structure Stands (scanner : Scanner) (given : Nat) (before ahead : List Char) : Prop where
  underway : scanner.phase = .scanning
  emitted : scanner.emitted = given
  split : scanner.source.toList = before ++ ahead
  rest : scanner.cursor.rest = ahead
  position : scanner.cursor.position = behind before

def started (limits : Limits) (preferences : Preferences) (source : String) : Scanner :=
  { (ofText limits preferences source).raise (ofText limits preferences source).startEvent with
    phase := .scanning }

theorem started_stands (limits : Limits) (preferences : Preferences) (source : String) :
    (started limits preferences source).Stands 0 [] source.toList :=
  ⟨rfl, rfl, rfl, rfl, rfl⟩

theorem next_large {preferences : Preferences} {source : String}
    (exceeds : limits.sourceBytes < source.utf8ByteSize) :
    (ofText limits preferences source).next = .ok ((started limits preferences source).fail
      (.sourceTooLarge source.utf8ByteSize limits.sourceBytes)) :=
  if_pos exceeds

theorem next_small {preferences : Preferences} {source : String}
    (small : source.utf8ByteSize ≤ limits.sourceBytes) :
    (ofText limits preferences source).next = (started limits preferences source).next :=
  if_neg (Nat.not_lt_of_le small)

theorem next_eq_step (stands : scanner.Stands given before ahead) :
    scanner.next = scanner.step := by
  rw [next, stands.underway]

theorem endMark_eq (stands : scanner.Stands given before ahead) :
    scanner.endMark = .endAt (behind before) := by
  rw [endMark, stands.position]

theorem step_finished (stands : scanner.Stands given before []) :
    scanner.step = .ok scanner.finish := by
  rw [step, stands.rest]
  rfl

theorem step_crowded {c : Char} (stands : scanner.Stands given before (c :: rest))
    (full : scanner.limits.tokens ≤ given) :
    scanner.step =
      .ok (scanner.fail (.tooManyTokens scanner.limits.tokens (.emptyAt (behind before)))) := by
  rw [step, stands.rest]
  simp [stands.emitted, full, stands.position, pure, Except.pure]

section
variable {c : Char} {length : Nat} (stands : scanner.Stands given before (c :: rest))
  (room : given < scanner.limits.tokens)
include stands room

theorem step_unknown (chosen : choice (c :: rest) = none) :
    scanner.step = do
      let span ← scanner.spanAhead 1
      return scanner.fail (.unrecognizedCharacter c span) := by
  rw [step, stands.rest]
  simp [stands.emitted, Nat.not_le_of_lt room, choice_eq_none.mp chosen]

theorem step_rejected {flaw : Flaw} (chosen : choice (c :: rest) = some (.reject length flaw)) :
    scanner.step = do
      let problem ← scanner.flawProblem c length flaw
      return scanner.fail problem := by
  obtain ⟨selection, selected, proposed⟩ := choice_eq_some.mp chosen
  rw [step, stands.rest]
  simp [stands.emitted, Nat.not_le_of_lt room, selected, proposed]

end

theorem step_accepted {length : Nat} (stands : scanner.Stands given before ahead)
    (room : given < scanner.limits.tokens) (chosen : choice ahead = some (.accept length kind)) :
    ∃ rule, scanner.step = scanner.emit length kind rule := by
  obtain ⟨word, rest, split, -, -, nonempty⟩ := choice_lexeme chosen
  obtain ⟨c, word, rfl⟩ := List.exists_cons_of_ne_nil nonempty
  subst split
  obtain ⟨selection, selected, proposed⟩ := choice_eq_some.mp chosen
  refine ⟨selection.rule, ?_⟩
  rw [List.cons_append] at selected
  rw [step, stands.rest]
  simp [stands.emitted, Nat.not_le_of_lt room, selected, proposed]

theorem limitProblem_eq_none {span : Span} (fits : kind.Fits limits word) :
    limitProblem? limits kind (String.ofList word) span = none := by
  obtain ⟨string, identifier⟩ := fits
  rw [← Text.utf8ByteSize_ofList] at string
  rw [← String.length_ofList] at identifier
  simp only [limitProblem?, Bool.and_eq_true, decide_eq_true_eq, beq_iff_eq]
  rw [if_neg fun both => absurd (string both.1) (Nat.not_le_of_lt both.2),
    if_neg fun both => absurd (identifier both.1) (Nat.not_le_of_lt both.2)]

def past (scanner : Scanner) (kind : Kind) (before word rest : List Char) (rule : String) :
    Scanner :=
  let token := Token.behind kind before word
  let after := { scanner with
    cursor := ⟨scanner.source, rest, behind (before ++ word)⟩
    emitted := scanner.emitted + 1
    metrics := scanner.metrics.record scanner.preferences token }
  if scanner.preferences.logTokens then after.raise (tokenEvent token rule) else after

section
variable {rule : String}

@[simp] theorem past_phase : (scanner.past kind before word rest rule).phase = scanner.phase := by
  rw [past]
  split <;> rfl

@[simp] theorem past_limits :
    (scanner.past kind before word rest rule).limits = scanner.limits := by
  rw [past]
  split <;> rfl

@[simp] theorem past_preferences :
    (scanner.past kind before word rest rule).preferences = scanner.preferences := by
  rw [past]
  split <;> rfl

@[simp] theorem past_cursor : (scanner.past kind before word rest rule).cursor =
    ⟨scanner.source, rest, behind (before ++ word)⟩ := by
  rw [past]
  split <;> rfl

@[simp] theorem past_source :
    (scanner.past kind before word rest rule).source = scanner.source := by
  rw [source, past_cursor]

@[simp] theorem past_emitted :
    (scanner.past kind before word rest rule).emitted = scanner.emitted + 1 := by
  rw [past]
  split <;> rfl

@[simp] theorem past_metrics : (scanner.past kind before word rest rule).metrics =
    scanner.metrics.record scanner.preferences (.behind kind before word) := by
  rw [past]
  split <;> rfl

theorem past_raised : (scanner.past kind before word rest rule).raised =
    (if scanner.preferences.logTokens then [tokenEvent (.behind kind before word) rule] else []) ++
      scanner.raised := by
  rw [past]
  split <;> rfl

end

theorem past_stands (stands : scanner.Stands given before (word ++ rest)) (kind : Kind)
    (rule : String) :
    (scanner.past kind before word rest rule).Stands (given + 1) (before ++ word) rest where
  underway := past_phase.trans stands.underway
  emitted := by rw [past_emitted, stands.emitted]
  split := by rw [past_source, stands.split, List.append_assoc]
  rest := by rw [past_cursor]
  position := by rw [past_cursor]

section
variable (countable : Countable scanner.source.toList)
include countable

theorem positionAfter_eq (stands : scanner.Stands given before ahead) (length : Nat) :
    scanner.cursor.positionAfter length = .ok (behind (before ++ ahead.take length)) := by
  rw [Cursor.positionAfter, stands.position, stands.rest, advanceOver_take countable stands.split]

theorem spanAhead_eq (stands : scanner.Stands given before ahead) (length : Nat) :
    scanner.spanAhead length = .ok (.behind before (ahead.take length)) := by
  rw [spanAhead, positionAfter_eq countable stands, stands.position]
  exact Span.between_behind before (ahead.take length)

theorem emit_over (stands : scanner.Stands given before (word ++ rest)) (rule : String)
    (exceeds : limitProblem? scanner.limits kind (String.ofList word) (.behind before word) =
      some problem) : scanner.emit word.length kind rule = .ok (scanner.fail problem) := by
  have lexeme : scanner.cursor.ahead word.length = String.ofList word := by
    rw [Cursor.ahead, stands.rest, List.take_left]
  rw [emit, spanAhead_eq countable stands, List.take_left, lexeme]
  simp [bind, Except.bind, exceeds, pure, Except.pure]

theorem step_stopped (stands : scanner.Stands given before ahead)
    (stops : Stops scanner.limits given before ahead problem) :
    scanner.step = .ok (scanner.fail problem) := by
  have span := spanAhead_eq countable stands
  cases stops with
  | crowded full => exact step_crowded stands full
  | unknown room chosen =>
      rw [step_unknown stands room chosen, span]
      rfl
  | unclosed room chosen =>
      rw [step_rejected stands room chosen, flawProblem, span]
      rfl
  | malformed room chosen =>
      rw [step_rejected stands room chosen, flawProblem, span, stands.rest]
      rfl
  | @large word rest kind room chosen string exceeds =>
      obtain ⟨rule, step⟩ := step_accepted stands room chosen
      rw [step]
      apply emit_over countable stands
      simp [limitProblem?, string, Text.utf8ByteSize_ofList, exceeds]
  | @long word rest room chosen exceeds =>
      obtain ⟨rule, step⟩ := step_accepted stands room chosen
      rw [step]
      apply emit_over countable stands
      simp [limitProblem?, Kind.isString, exceeds]

theorem step_past (stands : scanner.Stands given before (word ++ rest))
    (takes : Takes scanner.limits given kind word rest) :
    ∃ rule, scanner.step =
      .ok (.ok (.behind kind before word), scanner.past kind before word rest rule) := by
  obtain ⟨rule, step⟩ := step_accepted stands takes.room takes.chosen
  have lexeme : scanner.cursor.ahead word.length = String.ofList word := by
    rw [Cursor.ahead, stands.rest, List.take_left]
  have behind := positionAfter_eq countable stands word.length
  have span := spanAhead_eq countable stands word.length
  rw [List.take_left] at behind span
  refine ⟨rule, ?_⟩
  rw [step, emit, span, lexeme]
  simp only [bind, Except.bind, limitProblem_eq_none takes.fits, Cursor.advance, behind, lexeme,
    pure, Except.pure, stands.rest, List.drop_left]
  rfl

theorem step_token (stands : scanner.Stands given before (word ++ rest))
    (takes : Takes scanner.limits given kind word rest) :
    ∃ after, scanner.step = .ok (.ok (.behind kind before word), after) ∧
      after.Stands (given + 1) (before ++ word) rest ∧ after.limits = scanner.limits ∧
      after.source = scanner.source := by
  obtain ⟨rule, step⟩ := step_past countable stands takes
  exact ⟨_, step, past_stands stands kind rule, past_limits, past_source⟩

theorem step_outcome (stands : scanner.Stands given before ahead) :
    (ahead = [] ∧ scanner.step = .ok scanner.finish) ∨
    (∃ problem, Stops scanner.limits given before ahead problem ∧
      scanner.step = .ok (scanner.fail problem)) ∨
    ∃ kind word rest after, ahead = word ++ rest ∧ Takes scanner.limits given kind word rest ∧
      scanner.step = .ok (.ok (.behind kind before word), after) ∧
      after.Stands (given + 1) (before ++ word) rest ∧ after.limits = scanner.limits ∧
      after.source = scanner.source := by
  by_cases empty : ahead = []
  · subst empty
    exact .inl ⟨rfl, step_finished stands⟩
  · right
    rcases stops_or_takes scanner.limits given before empty with ⟨problem, stops⟩ |
      ⟨kind, word, rest, rfl, takes⟩
    · exact .inl ⟨problem, stops, step_stopped countable stands stops⟩
    · obtain ⟨after, step, standing⟩ := step_token countable stands takes
      exact .inr ⟨kind, word, rest, after, rfl, takes, step, standing⟩

theorem step_error_iff (stands : scanner.Stands given before ahead) :
    (∃ after, scanner.step = .ok (.error problem, after)) ↔
      Stops scanner.limits given before ahead problem := by
  constructor
  · rintro ⟨after, step⟩
    rcases step_outcome countable stands with ⟨-, found⟩ | ⟨other, stops, found⟩ |
      ⟨_, _, _, _, -, -, found, -⟩
    · cases step.symm.trans found
    · cases step.symm.trans found
      exact stops
    · cases step.symm.trans found
  · intro stops
    exact ⟨_, step_stopped countable stands stops⟩

end

end Scanner
end ExprLex
