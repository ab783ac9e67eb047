import ExprLex.Proofs.Grammar.Foreign
import ExprLex.Proofs.Scan.Reach

namespace ExprLex
open Grammar Position Rule

variable {limits : Limits} {given : Nat} {before ahead word : List Char} {text : String}
  {span : Span} {quote c : Char} {gap : NumberGap} {scanner : Scanner}

theorem NumberGap.reason_injective {gap other : NumberGap} (same : gap.reason = other.reason) :
    gap = other := by
  cases gap <;> cases other <;> first | rfl | exact absurd same (by decide)

section
variable (room : given < limits.tokens)
include room

theorem stops_malformed : Stops limits given before ahead (.malformedNumber text gap span) ↔
    ∃ word, Malformed ahead word gap.reason ∧ text = String.ofList word ∧
      span = .behind before word := by
  constructor
  · intro stops
    cases stops with
    | malformed _ chosen =>
        obtain ⟨word, reason, malformed, rfl⟩ := choice_eq_malformed.mp chosen
        obtain ⟨rest, equal⟩ := malformed.begins
        rw [← equal, List.take_left]
        rw [← equal] at malformed
        exact ⟨word, malformed.reason_eq.symm ▸ malformed, rfl, rfl⟩
  · rintro ⟨word, malformed, rfl, rfl⟩
    have chosen := choice_malformed malformed
    obtain ⟨rest, equal⟩ := malformed.begins
    have taken : ahead.take word.length = word := by rw [← equal, List.take_left]
    obtain ⟨first, tail, rfl, -⟩ := malformed.head
    have stops : Stops limits given before (first :: tail) _ := .malformed room chosen
    rw [taken, NumberGap.reason_injective malformed.reason_eq] at stops
    exact stops

theorem stops_unclosed : Stops limits given before ahead (.unterminatedString quote span) ↔
    ∃ word, Unclosed ahead word quote ∧ span = .behind before word := by
  constructor
  · intro stops
    cases stops with
    | unclosed _ chosen =>
        obtain ⟨word, quote, unclosed, rfl⟩ := choice_eq_unclosed.mp chosen
        obtain ⟨rest, equal⟩ := unclosed.begins
        obtain ⟨-, tail, first⟩ := unclosed.head
        rw [← equal, List.take_left]
        obtain ⟨rfl, -⟩ := List.cons.inj first
        exact ⟨word, equal ▸ unclosed, rfl⟩
  · rintro ⟨word, unclosed, rfl⟩
    have chosen := choice_unclosed unclosed
    obtain ⟨rest, equal⟩ := unclosed.begins
    have taken : ahead.take word.length = word := by rw [← equal, List.take_left]
    obtain ⟨-, tail, rfl⟩ := unclosed.head
    have stops : Stops limits given before (quote :: tail) _ := .unclosed room chosen
    rwa [taken] at stops

theorem stops_unknown : Stops limits given before ahead (.unrecognizedCharacter c span) ↔
    Foreign ahead ∧ ahead.head? = some c ∧ span = .behind before [c] := by
  constructor
  · intro stops
    cases stops with
    | unknown _ chosen => exact ⟨choice_eq_none_iff.mp chosen, rfl, rfl⟩
  · rintro ⟨foreign, first, rfl⟩
    obtain ⟨tail, rfl⟩ := List.head?_eq_some_iff.mp first
    exact .unknown room (choice_eq_none_iff.mpr foreign)

end

structure Cursor.Marks (cursor : Cursor) (word : List Char) (span : Span) : Prop where
  start : span.start = cursor.position
  stop : cursor.position.advanceOver word = .ok span.stop
  slice : span.slice cursor.source = .ok (String.ofList word)

/-- Whether an item is the failure that the text ahead calls for, and no failure if it calls for
none. -/
structure Cursor.Explains (cursor : Cursor) (item : Item) : Prop where
  malformed : ∀ text gap span, item = .error (.malformedNumber text gap span) ↔
    ∃ word, Malformed cursor.rest word gap.reason ∧ text = String.ofList word ∧
      cursor.Marks word span
  unclosed : ∀ quote span, item = .error (.unterminatedString quote span) ↔
    ∃ word, Unclosed cursor.rest word quote ∧ cursor.Marks word span
  unknown : ∀ c span, item = .error (.unrecognizedCharacter c span) ↔
    Foreign cursor.rest ∧ cursor.rest.head? = some c ∧ cursor.Marks [c] span

namespace Scanner

theorem marks_iff (countable : Countable scanner.source.toList)
    (stands : scanner.Stands given before ahead) (begins : word <+: ahead) :
    scanner.cursor.Marks word span ↔ span = .behind before word := by
  obtain ⟨rest, rfl⟩ := begins
  have split : scanner.source.toList = before ++ word ++ rest := by
    rw [stands.split, List.append_assoc]
  have stop : scanner.cursor.position.advanceOver word = .ok (behind (before ++ word)) := by
    rw [stands.position]
    exact advanceOver_behind (split ▸ countable).left
  constructor
  · rintro ⟨start, stopped, -⟩
    rw [stop] at stopped
    rw [stands.position] at start
    obtain ⟨spanStart, spanStop⟩ := span
    cases start
    cases stopped
    rfl
  · rintro rfl
    exact ⟨stands.position.symm, stop, Span.behind_slice split⟩

theorem step_fails (countable : Countable scanner.source.toList)
    (stands : scanner.Stands given before ahead) (room : given < scanner.limits.tokens) :
    ∃ item after, scanner.step = .ok (item, after) ∧ scanner.cursor.Explains item := by
  obtain ⟨item, after, step⟩ : ∃ item after, scanner.step = .ok (item, after) := by
    rcases step_outcome countable stands with ⟨-, step⟩ | ⟨problem, -, step⟩ |
      ⟨kind, word, rest, after, -, -, step, -⟩
    all_goals exact ⟨_, _, step⟩
  have fails (problem : Problem) :
      item = .error problem ↔ Stops scanner.limits given before ahead problem := by
    rw [← step_error_iff countable stands, step]
    simp
  refine ⟨item, after, step, ?_⟩
  constructor
  · intro text gap span
    rw [fails, stops_malformed room, stands.rest]
    refine exists_congr fun word => and_congr_right fun malformed => and_congr_right fun _ => ?_
    exact (marks_iff countable stands malformed.begins).symm
  · intro quote span
    rw [fails, stops_unclosed room, stands.rest]
    refine exists_congr fun word => and_congr_right fun unclosed => ?_
    exact (marks_iff countable stands unclosed.begins).symm
  · intro c span
    rw [fails, stops_unknown room, stands.rest]
    refine and_congr_right fun foreign => and_congr_right fun first => ?_
    obtain ⟨tail, rfl⟩ := List.head?_eq_some_iff.mp first
    exact (marks_iff countable stands ⟨tail, rfl⟩).symm

/-- A scan that meets no limit fails exactly where the text ahead begins with a malformed number, a
string that is not closed, or a character that nothing begins with. -/
theorem Reached.next_fails (admissible : limits.Admissible) {preferences : Preferences}
    {source : String} (small : source.utf8ByteSize ≤ limits.sourceBytes)
    (reached : Reached limits preferences source scanner) (undone : scanner.isDone = false)
    (room : scanner.emitted < limits.tokens) :
    ∃ item after, scanner.next = .ok (item, after) ∧ scanner.cursor.Explains item := by
  obtain ⟨standing, underway, next, cursor, emitted⟩ := reached.next_eq admissible undone small
  obtain ⟨rfl, rfl, before, ahead, stands⟩ := underway
  rw [emitted] at stands
  rw [next, ← cursor]
  exact step_fails (admissible.countable small) stands room

theorem next_fails_development : ∃ after, (ofText .development {} "3.").next =
    .ok (.error (.malformedNumber "3." .fraction ⟨⟨0, 1, 1⟩, ⟨2, 1, 3⟩⟩), after) := by
  have small : "3.".utf8ByteSize ≤ Limits.development.sourceBytes := by decide
  have room : (ofText .development {} "3.").emitted < Limits.development.tokens := by decide
  obtain ⟨item, after, next, explains⟩ :=
    Reached.next_fails Limits.development_admissible small .start rfl room
  have digit : ['3'] ∈ digits := mem_digits.mpr ⟨by simp, by simp [digit_iff]⟩
  have fails := (explains.malformed "3." .fraction ⟨⟨0, 1, 1⟩, ⟨2, 1, 3⟩⟩).mpr
    ⟨['3', '.'], .fraction digit breaks_nil, rfl, rfl, rfl, rfl⟩
  exact ⟨after, fails ▸ next⟩

end Scanner
end ExprLex
