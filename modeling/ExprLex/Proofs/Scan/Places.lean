import ExprLex.Proofs.Grammar.Separation
import ExprLex.Proofs.Report
import ExprLex.Proofs.Scan.Feed

namespace ExprLex
open Grammar Position Rule

variable {limits : Limits} {given : Nat} {kind : Kind} {before word rest ahead : List Char}
  {item : Item} {items : List Item} {problem : Problem} {span : Span} {source : String}

def Item.span? : Item → Option Span
  | .ok token => some token.span
  | .error problem => problem.span?

inductive Yields (limits : Limits) (given : Nat) (before : List Char) : List Char → Item → Prop
  | ended : Yields limits given before [] (.ok (.endAt (behind before)))
  | stopped {ahead : List Char} {problem : Problem}
      (stops : Stops limits given before ahead problem) :
      Yields limits given before ahead (.error problem)
  | token {kind : Kind} {word rest : List Char} (takes : Takes limits given kind word rest) :
      Yields limits given before (word ++ rest) (.ok (.behind kind before word))

def Parted (before ahead : List Char) : Prop :=
  (∀ c ∈ before.getLast?, Solid c) ∨ Breaks (· ∈ [' ', '\t', '\n', '\r']) ahead

theorem string_last (string : kind.isString = true) (member : word ∈ kind.language) :
    ∃ c, word.getLast? = some c ∧ Solid c := by
  cases kind <;> cases string
  all_goals
    obtain ⟨_, -, _, rfl, rfl⟩ := Language.mem_mul.mp member
    exact ⟨_, List.getLast?_concat .., by decide⟩

theorem Takes.parted (takes : Takes limits given kind word rest) (before : List Char) :
    Parted (before ++ word) rest := by
  obtain ⟨member, nonempty⟩ := takes.lexeme
  have last : (before ++ word).getLast? = word.getLast? := by
    rw [List.getLast?_append, List.getLast?_eq_some_getLast nonempty, Option.some_or]
  cases string : kind.isString with
  | true =>
      obtain ⟨c, found, solid⟩ := string_last string member
      left
      rw [last, found]
      simpa using solid
  | false =>
      by_cases blank : kind = .whitespace
      · -- Whitespace is read to its end, so none of it follows.
        subst blank
        obtain ⟨run, rest, rfl, all, stop⟩ := exists_run (· ∈ [' ', '\t', '\n', '\r']) rest
        have blanks := List.forall_mem_append.mpr ⟨(mem_many_oneOf.mp member).2, all⟩
        have whole := choice_gap (by simp [nonempty]) blanks stop
        rw [List.append_assoc, takes.chosen] at whole
        have same : word.length = (word ++ run).length := by simpa using whole
        obtain rfl : run = [] := by simpa using same
        exact .inr stop
      · left
        rw [last]
        intro c found
        exact language_within string blank word member c (List.mem_of_getLast? found)

theorem Scans.mem (scans : Scans limits given before ahead items) (parted : Parted before ahead)
    (member : item ∈ items) : ∃ given read left, before ++ ahead = read ++ left ∧
      Parted read left ∧ Yields limits given read left item := by
  induction scans with
  | @finished given before =>
      obtain rfl := List.mem_singleton.mp member
      exact ⟨given, before, [], rfl, parted, .ended⟩
  | @stopped given before ahead problem stops =>
      obtain rfl := List.mem_singleton.mp member
      exact ⟨given, before, ahead, rfl, parted, .stopped stops⟩
  | @token given kind before word rest items takes later ih =>
      rcases List.mem_cons.mp member with rfl | member
      · exact ⟨given, before, _, rfl, parted, .token takes⟩
      · rw [← List.append_assoc]
        exact ih (takes.parted before) member

theorem ScansText.mem (scans : ScansText limits source items) (member : item ∈ items) :
    item = .error (.sourceTooLarge source.utf8ByteSize limits.sourceBytes) ∨
      ∃ given read left, source.toList = read ++ left ∧ Parted read left ∧
        Yields limits given read left item := by
  cases scans with
  | large exceeds => exact .inl (List.mem_singleton.mp member)
  | scanned small scans => exact .inr (scans.mem (.inl (by simp)) member)

theorem ScansText.token_cases {token : Token} (scans : ScansText limits source items)
    (member : .ok token ∈ items) :
    (∃ p, token = .endAt p) ∨ token.lexeme.toList ∈ token.kind.language := by
  rcases scans.mem member with large | ⟨given, read, left, -, -, yields⟩
  · cases large
  · cases yields with
    | ended => exact .inl ⟨_, rfl⟩
    | token takes =>
        right
        rw [Token.text_behind]
        exact takes.lexeme.1

theorem Yields.pointed (yields : Yields limits given before ahead item)
    (pointed : item.span? = some span) :
    ∃ part more, ahead = part ++ more ∧ span = .behind before part := by
  have empty : Span.emptyAt (behind before) = .behind before [] := by
    rw [Span.emptyAt, Span.behind, List.append_nil]
  cases yields with
  | ended =>
      cases pointed
      exact ⟨[], [], rfl, empty⟩
  | token takes =>
      cases pointed
      exact ⟨_, _, rfl, rfl⟩
  | stopped stops =>
      cases stops with
      | crowded full =>
          cases pointed
          exact ⟨[], _, rfl, empty⟩
      | unknown room chosen =>
          cases pointed
          exact ⟨_, _, (List.singleton_append ..).symm, rfl⟩
      | unclosed room chosen =>
          cases pointed
          exact ⟨_, _, (List.take_append_drop ..).symm, rfl⟩
      | malformed room chosen =>
          cases pointed
          exact ⟨_, _, (List.take_append_drop ..).symm, rfl⟩
      | large room chosen string exceeds =>
          cases pointed
          exact ⟨_, _, rfl, rfl⟩
      | long room chosen exceeds =>
          cases pointed
          exact ⟨_, _, rfl, rfl⟩

theorem ScansText.pointed (scans : ScansText limits source items) (member : item ∈ items)
    (pointed : item.span? = some span) : ∃ read part more,
    source.toList = read ++ part ++ more ∧ Parted read (part ++ more) ∧
      span = .behind read part := by
  rcases scans.mem member with rfl | ⟨given, read, left, split, parted, yields⟩
  · cases pointed
  · obtain ⟨part, more, rfl, rfl⟩ := yields.pointed pointed
    exact ⟨read, part, more, by rw [split, List.append_assoc], parted, rfl⟩

theorem ScansText.exists_report (scans : ScansText limits source items) (member : item ∈ items)
    (pointed : item.span? = some span) (message : String) :
    ∃ text, (LineIndex.ofText source).report span message = .ok text ∧
      LineIndex.Shows source span message text := by
  obtain ⟨read, part, more, split, parted, rfl⟩ := scans.pointed member pointed
  refine LineIndex.exists_report split (fun broken => parted.imp ?_ ?_) message
  · rintro solid c last rfl
    cases solid _ last
  · intro stop c first
    obtain ⟨tail, rfl⟩ := List.head?_eq_some_iff.mp first
    have apart := breaks_cons.mp stop
    exact ⟨by rintro rfl; simp at apart, by rintro rfl; simp at apart⟩

/-- Whatever an item of a scan points at can be reported, with carets below its characters. -/
theorem raw_reports (admissible : limits.Admissible) (preferences : Preferences)
    (source : String) : ∃ items, (Feed.raw (.ofText limits preferences source)).Gives items ∧
      ∀ item ∈ items, ∀ span, item.span? = some span → ∀ message, ∃ text,
        (LineIndex.ofText source).report span message = .ok text ∧
          LineIndex.Shows source span message text := by
  obtain ⟨items, scans⟩ := exists_scansText limits source
  refine ⟨items, (Feed.raw_gives_iff admissible).mpr scans, ?_⟩
  intro item member span pointed message
  exact scans.exists_report member pointed message

theorem raw_reports_development : Limits.development.Admissible ∧
    ∃ items, (Feed.raw (.ofText .development {} " 'é\r\nx'")).Gives items ∧
      items = [.ok ⟨.whitespace, " ", ⟨⟨0, 1, 1⟩, ⟨1, 1, 2⟩⟩, .hidden⟩,
        .ok ⟨.singleQuoted, "'é\r\nx'", ⟨⟨1, 1, 2⟩, ⟨8, 2, 3⟩⟩, .visible⟩,
        .ok ⟨.endOfInput, "", ⟨⟨8, 2, 3⟩, ⟨8, 2, 3⟩⟩, .visible⟩] ∧
      (∀ item ∈ items, ∀ span, item.span? = some span → ∀ message, ∃ text,
        (LineIndex.ofText " 'é\r\nx'").report span message = .ok text ∧
          LineIndex.Shows " 'é\r\nx'" span message text) ∧
      (LineIndex.ofText " 'é\r\nx'").report ⟨⟨1, 1, 2⟩, ⟨8, 2, 3⟩⟩ "here" =
        .ok "error: here\n  --> 1:2\n  |\n1 |  'é\n  |  ^^\n" := by
  obtain ⟨items, gives, reports⟩ := raw_reports Limits.development_admissible {} " 'é\r\nx'"
  exact ⟨Limits.development_admissible, items, gives,
    gives.unique (Feed.gives_of_collect 4 (by decide +kernel)), reports, by decide +kernel⟩

/-- A line index gives the position that advancing over the text in front of an offset leads to, and
gives none inside a character. So it finds again where the items of a scan start and stop. -/
theorem positionAt_agrees (countable : Countable source.toList) :
    (∀ offset, (⟨min offset source.utf8ByteSize⟩ : String.Pos.Raw).IsValid source →
      ∃ before p, Text.slice source 0 (min offset source.utf8ByteSize) = .ok before ∧
        start.advanceOver before.toList = .ok p ∧
        (LineIndex.ofText source).positionAt offset = .ok p) ∧
    (∀ offset, ¬ (⟨min offset source.utf8ByteSize⟩ : String.Pos.Raw).IsValid source →
      ∃ fault, (LineIndex.ofText source).positionAt offset = .error fault) ∧
    ∀ (limits : Limits) (preferences : Preferences), limits.Admissible →
      ∃ items, (Feed.raw (.ofText limits preferences source)).Gives items ∧
        ∀ item ∈ items, ∀ span, item.span? = some span →
          (LineIndex.ofText source).positionAt span.start.offset = .ok span.start ∧
          (LineIndex.ofText source).positionAt span.stop.offset = .ok span.stop := by
  refine ⟨fun offset valid => ?_, fun offset invalid => ?_, ?_⟩
  · obtain ⟨read, ahead, split, cut⟩ := Text.isValid_iff.mp valid
    refine ⟨String.ofList read, behind read, cut ▸ slice_behind split, ?_,
      LineIndex.positionAt_behind countable split cut.symm⟩
    rw [String.toList_ofList]
    exact advanceOver_start (split ▸ countable).left
  · cases found : (LineIndex.ofText source).positionAt offset with
    | error fault => exact ⟨fault, rfl⟩
    | ok p => exact absurd (Text.isValid_iff.mpr (LineIndex.of_positionAt found)) invalid
  · intro limits preferences admissible
    obtain ⟨items, scans⟩ := exists_scansText limits source
    refine ⟨items, (Feed.raw_gives_iff admissible).mpr scans, ?_⟩
    intro item member span pointed
    obtain ⟨read, part, more, split, -, rfl⟩ := scans.pointed member pointed
    exact ⟨LineIndex.positionAt_offset countable (split.trans (List.append_assoc ..)),
      LineIndex.positionAt_offset countable split⟩

theorem positionAt_agrees_two_lines : Countable "é\nb".toList ∧
    (∃ before p, Text.slice "é\nb" 0 3 = .ok before ∧ start.advanceOver before.toList = .ok p ∧
      (LineIndex.ofText "é\nb").positionAt 3 = .ok p) ∧
    ∃ fault, (LineIndex.ofText "é\nb").positionAt 1 = .error fault :=
  have countable : Countable "é\nb".toList := by
    rw [Position.Countable, counterBound]
    decide
  ⟨countable, (positionAt_agrees countable).1 3 (by decide),
    (positionAt_agrees countable).2.1 1 (by decide)⟩

end ExprLex
