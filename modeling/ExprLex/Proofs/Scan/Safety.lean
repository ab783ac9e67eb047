import ExprLex.Proofs.Scan.Metrics
import ExprLex.Proofs.Scan.Places

/-!
Nothing that a scan computes leaves its range. The size of a text is looked at before anything is
read, and within the limit its characters, and so the lines and columns, are few enough to count.
-/
namespace ExprLex
open Position Grammar

variable {limits : Limits} {preferences : Preferences} {source : String} {scanner : Scanner}
  {before ahead rest part chars : List Char} {p : Position} {items : List Item}

/-! ## Places -/

namespace Position

structure Fits (source : String) (p : Position) : Prop where
  inRange : p.inRange = true
  line : p.line ≤ source.length + 1
  column : p.column ≤ source.length + 1

theorem passed_counters (p : Position) (chars : List Char) :
    (p.passed chars).line ≤ p.line + chars.length ∧
      (p.passed chars).column ≤ p.column + chars.length := by
  induction chars generalizing p with
  | nil => simp
  | cons c chars ih =>
      have first := past_counters p c
      have others := ih (p.past c)
      rw [passed_cons, List.length_cons]
      omega

theorem start_fits (source : String) : start.Fits source where
  inRange := by decide
  line := Nat.le_add_left 1 _
  column := Nat.le_add_left 1 _

theorem behind_fits (countable : Countable source.toList)
    (split : source.toList = before ++ rest) : (behind before).Fits source := by
  obtain ⟨line, column⟩ : (behind before).line ≤ 1 + before.length ∧
      (behind before).column ≤ 1 + before.length := passed_counters start before
  have width := bytes_le before
  have length := congrArg List.length split
  rw [List.length_append, String.length_toList] at length
  rw [Countable, String.length_toList, counterBound] at countable
  refine ⟨?_, by omega, by omega⟩
  simp only [inRange, Bool.and_eq_true, decide_eq_true_eq, behind_offset]
  rw [counterBound, offsetBound]
  omega

end Position

/-! ## Rules -/

theorem Rule.length_le {rule : Rule} {proposal : Proposal} (member : rule ∈ catalogue)
    (proposed : rule.propose chars = some proposal) : proposal.length ≤ chars.length := by
  obtain ⟨kind, -, rfl⟩ := mem_catalogue.mp member
  cases proposal with
  | accept length other =>
      obtain ⟨-, word, rest, rfl, -, rfl⟩ := (ofKind_reads kind chars).sound length other proposed
      rw [List.length_append]
      exact Nat.le_add_right _ _
  | reject length flaw =>
      rcases flaw_of_propose proposed with ⟨-, word, reason, malformed, rfl⟩ |
        ⟨-, word, quote, unclosed, rfl⟩
      · exact malformed.begins.length_le
      · exact unclosed.begins.length_le

theorem Rule.rank_lt {best : Offer} (won : Offer.longest (offers catalogue chars) = some best) :
    best.1 < catalogue.length := by
  obtain ⟨member, -, -⟩ := Offer.longest_eq_some won
  obtain ⟨rule, located, -⟩ := mem_offers.mp member
  exact (List.getElem?_eq_some_iff.mp located).1

/-! ## Counters -/

namespace Metrics

variable {metrics : Metrics} {tokens : List Token}

structure AtMost (bound : Nat) (metrics : Metrics) : Prop where
  total : metrics.total ≤ bound
  counted : ∀ group, metrics.counted group ≤ bound
  reserved : metrics.reserved ≤ bound
  uses : ∀ entry ∈ metrics.usage, entry.2 ≤ bound

theorem Exact.atMost (exact : metrics.Exact preferences tokens) :
    metrics.AtMost tokens.length := by
  cases asked : preferences.detailedMetrics with
  | false =>
      rw [exact.plain asked, exact.total]
      refine ⟨le_rfl, fun group => ?_, Nat.zero_le _, by simp⟩
      cases group <;> exact Nat.zero_le _
  | true =>
      have details := exact.details asked
      have counted (group : Group) : metrics.counted group ≤ tokens.length := by
        rw [details.counted group]
        exact List.countP_le_length
      refine ⟨exact.total.le, counted, ?_, ?_⟩
      · rw [details.reserved]
        exact List.countP_le_length
      · intro entry member
        cases tracks : preferences.trackOperators with
        | false =>
            rw [details.untracked tracks] at member
            cases member
        | true =>
            calc entry.2 ≤ metrics.usage.sum := List.le_sum_of_mem (List.mem_map_of_mem member)
              _ = metrics.counted .operator := details.usesSum tracks
              _ ≤ tokens.length := counted .operator

end Metrics

/-! ## States of a scan -/

theorem ScansText.span_fits {item : Item} {span : Span} (admissible : limits.Admissible)
    (scans : ScansText limits source items) (member : item ∈ items)
    (pointed : item.span? = some span) : span.start.offset ≤ span.stop.offset ∧
      span.start.Fits source ∧ span.stop.Fits source := by
  obtain ⟨read, part, more, split, -, rfl⟩ := scans.pointed member pointed
  cases scans with
  | large exceeds =>
      obtain rfl := List.mem_singleton.mp member
      cases pointed
  | scanned small scans =>
      have countable := admissible.countable small
      refine ⟨?_, behind_fits countable (split.trans (List.append_assoc ..)),
        behind_fits countable split⟩
      simp [Span.behind]

namespace Scanner

theorem Calls.place (admissible : limits.Admissible)
    (calls : (ofText limits preferences source).Calls items scanner) :
    ∃ before ahead, source.toList = before ++ ahead ∧
      scanner.cursor = ⟨source, ahead, behind before⟩ ∧
      (before = [] ∨ source.utf8ByteSize ≤ limits.sourceBytes) := by
  refine calls.preserved admissible (fun _ scanner => ∃ before ahead,
    source.toList = before ++ ahead ∧ scanner.cursor = ⟨source, ahead, behind before⟩ ∧
      (before = [] ∨ source.utf8ByteSize ≤ limits.sourceBytes))
    ⟨[], source.toList, rfl, rfl, .inl rfl⟩ ?_
  rintro tokens scanner item after ⟨before, ahead, split, stood, sized⟩ moves
  cases moves with
  | rests isLast cursor => exact ⟨before, ahead, split, cursor.trans stood, sized⟩
  | reads small takes whole stoodToo cursor =>
      obtain rfl : scanner.source = source := congrArg Cursor.source stood
      exact ⟨_, _, whole.trans (List.append_assoc ..).symm, cursor, .inr small⟩

theorem Calls.emitted (admissible : limits.Admissible)
    (calls : (ofText limits preferences source).Calls items scanner) :
    scanner.emitted = (items.filterMap Item.token?).length ∧ scanner.emitted ≤ limits.tokens := by
  refine calls.preserved admissible (fun tokens scanner =>
    scanner.emitted = tokens.length ∧ scanner.emitted ≤ limits.tokens) ⟨rfl, Nat.zero_le _⟩ ?_
  rintro tokens scanner item after ⟨count, few⟩ moves
  cases moves with
  | rests isLast cursor kept metrics emitted =>
      rw [emitted, Item.token?_last isLast, Option.toList_none, List.append_nil]
      exact ⟨count, few⟩
  | reads small takes split stood cursor kept metrics emitted =>
      rw [emitted, takes.given, Option.toList_some, List.length_append, count]
      exact ⟨rfl, count ▸ takes.room⟩

/-- What a scan may do at a place without leaving the range of what it computes. -/
structure Safe (limits : Limits) (scanner : Scanner) : Prop where
  gives : ∃ item after, scanner.next = .ok (item, after) ∧ ∀ span, item.span? = some span →
    span.start.offset ≤ span.stop.offset ∧ span.start.Fits scanner.source ∧
      span.stop.Fits scanner.source
  stands : scanner.cursor.position.Fits scanner.source
  rest : Text.slice scanner.source scanner.offset scanner.source.utf8ByteSize =
    .ok (String.ofList scanner.cursor.rest)
  ahead : ∀ length, Text.slice scanner.source scanner.offset
    (scanner.offset + Text.bytes (scanner.cursor.rest.take length)) =
      .ok (scanner.cursor.ahead length)
  reaches : scanner.source.utf8ByteSize ≤ limits.sourceBytes → ∀ length,
    ∃ stop, scanner.cursor.positionAfter length = .ok stop ∧ stop.Fits scanner.source ∧
      scanner.spanAhead length = .ok ⟨scanner.cursor.position, stop⟩
  claims : ∀ rule ∈ Rule.catalogue, ∀ proposal, rule.propose scanner.cursor.rest = some proposal →
    proposal.length ≤ scanner.cursor.rest.length
  ranked : ∀ best, Offer.longest (Rule.offers Rule.catalogue scanner.cursor.rest) = some best →
    best.1 < Rule.catalogue.length
  counts : scanner.emitted < offsetBound ∧ scanner.metrics.AtMost scanner.emitted

theorem called_gives (admissible : limits.Admissible) (preferences : Preferences)
    (source : String) (calls : Nat) :
    ∃ item after, ((ofText limits preferences source).called calls).next = .ok (item, after) ∧
      ∀ span, item.span? = some span → span.start.offset ≤ span.stop.offset ∧
        span.start.Fits source ∧ span.stop.Fits source := by
  obtain ⟨items, scans⟩ := exists_scansText limits source
  obtain ⟨tokens, last, rfl, proper, isLast⟩ := scans.split
  have session := session_of_scans admissible preferences scans proper isLast
  refine ⟨_, _, session.answers calls, fun span pointed => ?_⟩
  refine scans.span_fits admissible ?_ pointed
  cases found : (tokens.map .ok : List Item)[calls]? with
  | none => exact List.mem_append_right _ (List.mem_singleton.mpr rfl)
  | some item => exact List.mem_append_left _ (List.mem_of_getElem? found)

theorem called_safe (admissible : limits.Admissible) (preferences : Preferences) (source : String)
    (calls : Nat) : ((ofText limits preferences source).called calls).Safe limits := by
  have gives := called_gives admissible preferences source calls
  have begun : Reached limits preferences source (.ofText limits preferences source) := .start
  obtain ⟨items, led, -⟩ := calls_called admissible begun calls
  generalize (ofText limits preferences source).called calls = scanner at led gives
  obtain ⟨before, ahead, split, stood, sized⟩ := led.place admissible
  obtain rfl : scanner.source = source := congrArg Cursor.source stood
  obtain ⟨emitted, few⟩ := led.emitted admissible
  constructor
  case gives => exact gives
  case stands =>
    rw [stood]
    rcases sized with rfl | small
    · exact start_fits scanner.source
    · exact behind_fits (admissible.countable small) split
  case rest =>
    rw [offset, stood]
    exact slice_rest split
  case ahead =>
    intro length
    rw [offset, Cursor.ahead, stood]
    exact slice_ahead split length
  case reaches =>
    intro small length
    have countable := admissible.countable small
    have whole : scanner.source.toList = before ++ ahead.take length ++ ahead.drop length := by
      rw [List.append_assoc, List.take_append_drop, split]
    have stop : scanner.cursor.positionAfter length =
        .ok (behind (before ++ ahead.take length)) := by
      rw [Cursor.positionAfter, stood]
      exact advanceOver_take countable split length
    refine ⟨_, stop, behind_fits countable whole, ?_⟩
    rw [spanAhead, stop, stood]
    exact Span.between_behind before (ahead.take length)
  case claims =>
    intro rule member proposal proposed
    exact Rule.length_le member proposed
  case ranked =>
    intro best won
    exact Rule.rank_lt won
  case counts =>
    have bound : scanner.emitted < offsetBound :=
      calc scanner.emitted ≤ limits.tokens := few
        _ ≤ 10000000 := admissible.tokens_le
        _ < offsetBound := by decide
    exact ⟨bound, emitted ▸ (led.exact admissible).atMost⟩

theorem called_safe_development : Limits.development.Admissible ∧
    ((ofText .development { trackOperators := true } "a == 'é\n' 3.").called 5).Safe .development :=
  ⟨Limits.development_admissible, called_safe Limits.development_admissible _ _ 5⟩

end Scanner
end ExprLex
