import ExprLex.Log.Service
import ExprLex.Proofs.Scan.Tiling

/-!
What becomes of a scan that is asked for items again and again: it gives its tokens, and then its
last item for ever. It says when it starts and when it is over, each of them once.
-/
namespace ExprLex

/-! ## Events of a scan -/

namespace Log.Event

def opensScan (event : Event) : Bool :=
  event.level == .debug && event.message == "Starting lexical analysis"

def closesScan (event : Event) : Bool := event.isError || event.code == Code.scanComplete

def Reports (event : Event) : Item → Prop
  | .ok _ => event.level = .info ∧ event.code = Code.scanComplete
  | .error problem => event.level = .error ∧ event.code = problem.code

theorem Reports.closes {event : Event} {item : Item} (reports : event.Reports item) :
    event.closesScan = true := by
  cases item with
  | ok token => simp [closesScan, reports.2]
  | error problem => simp [closesScan, isError, reports.1]

theorem Reports.unopened {event : Event} {item : Item} (reports : event.Reports item) :
    event.opensScan = false := by
  cases item <;> simp [opensScan, reports.1]

end Log.Event

open Position

variable {limits : Limits} {preferences : Preferences} {source : String} {scanner : Scanner}
  {given : Nat} {before ahead word rest : List Char} {kind : Kind} {tokens : List Token}
  {last item : Item} {items : List Item} {problem : Problem}

/-! ## The items of a scan -/

theorem Scans.split (scans : Scans limits given before ahead items) :
    ∃ (tokens : List Token) (last : Item), items = tokens.map .ok ++ [last] ∧
      (∀ token ∈ tokens, token.isEnd = false) ∧ last.isLast = true := by
  induction scans with
  | @finished given before => exact ⟨[], _, rfl, by simp, rfl⟩
  | @stopped given before ahead problem stops => exact ⟨[], .error problem, rfl, by simp, rfl⟩
  | @token given kind before word rest items takes later ih =>
      obtain ⟨tokens, last, rfl, proper, isLast⟩ := ih
      exact ⟨.behind kind before word :: tokens, last, rfl,
        List.forall_mem_cons.mpr ⟨takes.goesOn before, proper⟩, isLast⟩

theorem ScansText.split (scans : ScansText limits source items) :
    ∃ (tokens : List Token) (last : Item), items = tokens.map .ok ++ [last] ∧
      (∀ token ∈ tokens, token.isEnd = false) ∧ last.isLast = true := by
  cases scans with
  | large exceeds => exact ⟨[], _, rfl, by simp, rfl⟩
  | scanned small scans => exact scans.split

theorem Scans.length_le (scans : Scans limits given before ahead items) :
    items.length ≤ ahead.length + 1 ∧
      (1 < items.length → given + items.length ≤ limits.tokens + 1) := by
  induction scans with
  | finished => simp
  | stopped stops => simp
  | @token given kind before word rest items takes later ih =>
      obtain ⟨short, few⟩ := ih
      have positive := List.length_pos_iff.mpr takes.lexeme.2
      have room := takes.room
      rw [List.length_cons, List.length_append]
      omega

/-! ## Calls -/

namespace Scanner

/-- The events of a scan that a service behind a gate is handed. Debug events are not even made for
a gate that would drop them. -/
def handed (gate : Log.Gate) (scanner : Scanner) : List Log.Event :=
  scanner.events.filter fun event => event.level != .debug || gate.accepts .debug

theorem handed_eq {gate : Log.Gate} (accepts : gate.accepts .debug = true) :
    scanner.handed gate = scanner.raised.reverse := by
  simp [handed, accepts, events]

def called (scanner : Scanner) : (calls : Nat) → Scanner
  | 0 => scanner
  | calls + 1 =>
      match (scanner.called calls).next with
      | .ok (_, after) => after
      | .error _ => scanner.called calls

theorem called_succ {calls : Nat} {after : Scanner}
    (next : (scanner.called calls).next = .ok (item, after)) :
    scanner.called (calls + 1) = after := by
  rw [called, next]

/-- What a scan gives when it is called again and again. -/
structure Session (first : Scanner) (tokens : List Token) (last : Item) : Prop where
  proper : ∀ token ∈ tokens, token.isEnd = false
  isLast : last.isLast = true
  short : tokens.length ≤ first.source.length
  few : tokens.length ≤ first.limits.tokens
  answers : ∀ n, (first.called n).next =
    .ok ((tokens.map .ok)[n]?.getD last, first.called (n + 1))
  advances : ∀ n < tokens.length, (first.called n).offset < (first.called (n + 1)).offset
  rests : ∀ n ≥ tokens.length, (first.called (n + 1)).cursor = (first.called n).cursor ∧
    (first.called (n + 1)).metrics = (first.called n).metrics
  stuck : ∀ problem, last = .error problem → ∀ n ≥ tokens.length,
    (first.called n).offset = problem.offset
  done_iff : ∀ n, (first.called n).isDone = true ↔ tokens.length < n
  opened : ∀ gate : Log.Gate, gate.accepts .debug = true → ∀ n ≥ 1,
    ((first.called n).handed gate).countP (·.opensScan) = 1
  unclosed : ∀ gate : Log.Gate, gate.accepts .debug = true → ∀ n ≤ tokens.length,
    ((first.called n).handed gate).countP (·.closesScan) = 0
  closed : ∀ gate : Log.Gate, gate.accepts .debug = true → ∀ n > tokens.length,
    ∃ event, ((first.called n).handed gate).filter (·.closesScan) = [event] ∧ event.Reports last

/-! ## Single calls -/

structure Midway (limits : Limits) (source : String) (tokens : List Token) (last : Item)
    (given : Nat) (scanner : Scanner) : Prop where
  stands : ∃ before ahead, scanner.Stands given before ahead ∧
    Scans limits given before ahead ((tokens.drop given).map .ok ++ [last])
  limits : scanner.limits = limits
  source : scanner.source = source
  opened : scanner.raised.countP (·.opensScan) = 1
  unclosed : scanner.raised.filter (·.closesScan) = []

structure Over (last : Item) (scanner : Scanner) : Prop where
  done : scanner.isDone = true
  again : scanner.next = .ok (last, scanner)
  opened : scanner.raised.countP (·.opensScan) = 1
  closed : ∃ event, scanner.raised.filter (·.closesScan) = [event] ∧ event.Reports last

structure Ends (last : Item) (scanner after : Scanner) : Prop where
  next : scanner.next = .ok (last, after)
  ended : after.Over last
  cursor : after.cursor = scanner.cursor
  metrics : after.metrics = scanner.metrics
  stuck : ∀ problem, last = .error problem → scanner.offset = problem.offset

theorem Midway.undone (midway : scanner.Midway limits source tokens last given) :
    scanner.isDone = false := by
  obtain ⟨before, ahead, stands, -⟩ := midway.stands
  rw [isDone, stands.underway]

theorem problemEvent_reports (scanner : Scanner) (problem : Problem) :
    (scanner.problemEvent problem).Reports (.error problem) := by
  rw [problemEvent]
  split
  · split <;> exact ⟨rfl, rfl⟩
  · exact ⟨rfl, rfl⟩

theorem completionEvent_reports (scanner : Scanner) (token : Token) :
    scanner.completionEvent.Reports (.ok token) := ⟨rfl, rfl⟩

section
variable (opened : scanner.raised.countP (·.opensScan) = 1)
  (unclosed : scanner.raised.filter (·.closesScan) = [])
include opened unclosed

theorem raise_report {event : Log.Event} (reports : event.Reports last) :
    (scanner.raise event).raised.countP (·.opensScan) = 1 ∧
      ∃ report, (scanner.raise event).raised.filter (·.closesScan) = [report] ∧
        report.Reports last := by
  refine ⟨?_, event, ?_, reports⟩
  · rw [raise, List.countP_cons_of_neg (by simp [reports.unopened]), opened]
  · rw [raise, List.filter_cons_of_pos reports.closes, unclosed]

theorem fail_over (problem : Problem) : (scanner.fail problem).2.Over (.error problem) where
  done := rfl
  again := rfl
  opened := (raise_report opened unclosed (problemEvent_reports scanner problem)).1
  closed := (raise_report opened unclosed (problemEvent_reports scanner problem)).2

theorem finish_over : scanner.finish.2.Over scanner.finish.1 where
  done := rfl
  again := rfl
  opened := (raise_report opened unclosed (completionEvent_reports scanner scanner.endMark)).1
  closed := (raise_report opened unclosed (completionEvent_reports scanner scanner.endMark)).2

end

theorem Stands.offset (stands : scanner.Stands given before ahead) :
    scanner.offset = Text.bytes before := by
  rw [Scanner.offset, stands.position, behind_offset]

section
variable (countable : Countable source.toList)
include countable

theorem Midway.token (midway : scanner.Midway limits source tokens last given)
    (more : given < tokens.length) : ∃ after, scanner.next = .ok (.ok tokens[given], after) ∧
      after.Midway limits source tokens last (given + 1) ∧ scanner.offset < after.offset := by
  obtain ⟨⟨before, ahead, stands, scans⟩, rfl, rfl, opened, unclosed⟩ := midway
  rw [List.drop_eq_getElem_cons more, List.map_cons, List.cons_append] at scans
  obtain ⟨kind, word, rest, rfl, given, takes, later⟩ := scans.read (by simp)
  obtain ⟨rule, step⟩ := step_past countable stands takes
  have standing := past_stands stands kind rule
  rw [given]
  refine ⟨_, (next_eq_step stands).trans step,
    ⟨⟨_, _, standing, later⟩, past_limits, past_source, ?_, ?_⟩, ?_⟩
  · rw [past_raised, List.countP_append, opened]
    split <;> rfl
  · rw [past_raised, List.filter_append, unclosed]
    split <;> rfl
  · have positive := List.length_pos_iff.mpr takes.lexeme.2
    have wide := Text.length_le_bytes word
    rw [stands.offset, standing.offset, Text.bytes_append]
    omega

theorem Midway.ends (midway : scanner.Midway limits source tokens last tokens.length) :
    ∃ after, Ends last scanner after := by
  obtain ⟨⟨before, ahead, stands, scans⟩, rfl, rfl, opened, unclosed⟩ := midway
  rw [List.drop_length, List.map_nil, List.nil_append] at scans
  rcases scans.last_cases with ⟨rfl, rfl⟩ | ⟨problem, stops, rfl⟩
  · have next := (next_eq_step stands).trans (step_finished stands)
    have ended := finish_over opened unclosed
    rw [finish, endMark_eq stands] at next ended
    refine ⟨_, next, ended, rfl, rfl, ?_⟩
    rintro _ ⟨⟩
  · refine ⟨_, (next_eq_step stands).trans (step_stopped countable stands stops),
      fail_over opened unclosed problem, rfl, rfl, ?_⟩
    rintro _ ⟨⟩
    rw [stands.offset, stops.offset]

end

/-! ## Whole sessions -/

structure Course (first : Scanner) (tokens : List Token) (last : Item) : Prop where
  undone : ∀ n ≤ tokens.length, (first.called n).isDone = false
  unclosed : ∀ n ≤ tokens.length, (first.called n).raised.filter (·.closesScan) = []
  opened : ∀ n ≤ tokens.length, n ≥ 1 → (first.called n).raised.countP (·.opensScan) = 1
  gives : ∀ n (more : n < tokens.length),
    (first.called n).next = .ok (.ok tokens[n], first.called (n + 1))
  advances : ∀ n < tokens.length, (first.called n).offset < (first.called (n + 1)).offset
  ends : Ends last (first.called tokens.length) (first.called (tokens.length + 1))

section
variable {first : Scanner} (course : first.Course tokens last)
include course

theorem Course.ended {n : Nat} (late : tokens.length + 1 ≤ n) :
    (first.called n).Over last := by
  induction n, late using Nat.le_induction with
  | base => exact course.ends.ended
  | succ n late ih =>
      rw [called_succ ih.again]
      exact ih

theorem Course.answers (n : Nat) : (first.called n).next =
    .ok ((tokens.map .ok)[n]?.getD last, first.called (n + 1)) := by
  rcases Nat.lt_trichotomy n tokens.length with more | rfl | late
  · simpa [more] using course.gives n more
  · simpa using course.ends.next
  · have again := (course.ended late).again
    rw [called_succ again]
    simpa [Nat.le_of_lt late] using again

theorem Course.rests {n : Nat} (late : tokens.length ≤ n) :
    (first.called (n + 1)).cursor = (first.called n).cursor ∧
      (first.called (n + 1)).metrics = (first.called n).metrics := by
  rcases Nat.eq_or_lt_of_le late with rfl | late
  · exact ⟨course.ends.cursor, course.ends.metrics⟩
  · rw [called_succ (course.ended late).again]
    exact ⟨rfl, rfl⟩

theorem Course.stuck (fails : last = .error problem) {n : Nat} (late : tokens.length ≤ n) :
    (first.called n).offset = problem.offset := by
  -- The scan stands at the problem before the failing call already, and never moves again.
  induction n, late using Nat.le_induction with
  | base => exact course.ends.stuck problem fails
  | succ n late ih => rw [offset, (course.rests late).1, ← offset, ih]

theorem Course.done_iff (n : Nat) : (first.called n).isDone = true ↔ tokens.length < n := by
  by_cases late : tokens.length < n
  · simp [late, (course.ended late).done]
  · simp [late, course.undone n (Nat.le_of_not_lt late)]

theorem Course.opened_ever {n : Nat} (asked : n ≥ 1) :
    (first.called n).raised.countP (·.opensScan) = 1 := by
  by_cases late : tokens.length < n
  · exact (course.ended late).opened
  · exact course.opened n (Nat.le_of_not_lt late) asked

theorem Course.session (proper : ∀ token ∈ tokens, token.isEnd = false)
    (isLast : last.isLast = true) (short : tokens.length ≤ first.source.length)
    (few : tokens.length ≤ first.limits.tokens) : first.Session tokens last where
  proper := proper
  isLast := isLast
  short := short
  few := few
  answers := course.answers
  advances := course.advances
  rests n late := course.rests late
  stuck problem fails n late := course.stuck fails late
  done_iff := course.done_iff
  opened gate accepts n asked := by
    rw [handed_eq accepts, List.countP_reverse, course.opened_ever asked]
  unclosed gate accepts n early := by
    rw [handed_eq accepts, List.countP_reverse, List.countP_eq_length_filter,
      course.unclosed n early, List.length_nil]
  closed gate accepts n late := by
    obtain ⟨event, closed, reports⟩ := (course.ended late).closed
    exact ⟨event, by rw [handed_eq accepts, List.filter_reverse, closed]; rfl, reports⟩

end

structure Alike (scanner other : Scanner) : Prop where
  next : scanner.next = other.next
  cursor : scanner.cursor = other.cursor
  metrics : scanner.metrics = other.metrics

theorem Ends.congr {after other : Scanner} (ends : Ends last scanner after)
    (alike : Alike other scanner) : Ends last other after where
  next := alike.next.trans ends.next
  ended := ends.ended
  cursor := ends.cursor.trans alike.cursor.symm
  metrics := ends.metrics.trans alike.metrics.symm
  stuck problem fails := by rw [offset, alike.cursor, ← offset, ends.stuck problem fails]

section
variable (countable : Countable source.toList) (small : source.utf8ByteSize ≤ limits.sourceBytes)
  (scans : Scans limits 0 [] source.toList (tokens.map .ok ++ [last]))
include countable small scans

theorem exists_midway (preferences : Preferences) {n : Nat} (early : n ≤ tokens.length) :
    ∃ standing : Scanner, standing.Midway limits source tokens last n ∧
      Alike ((ofText limits preferences source).called n) standing ∧
      (n ≥ 1 → (ofText limits preferences source).called n = standing) := by
  -- The first call does two things at once: it begins the scan and takes its first step.
  induction n with
  | zero =>
      have stands := started_stands limits preferences source
      exact ⟨started limits preferences source, ⟨⟨_, _, stands, scans⟩, rfl, rfl, rfl, rfl⟩,
        ⟨next_small small, rfl, rfl⟩, nofun⟩
  | succ n ih =>
      obtain ⟨standing, midway, alike, -⟩ := ih (Nat.le_of_succ_le early)
      obtain ⟨after, next, later, -⟩ := midway.token countable early
      rw [called_succ (alike.next.trans next)]
      exact ⟨after, later, ⟨rfl, rfl, rfl⟩, fun _ => rfl⟩

theorem small_course (preferences : Preferences) :
    (ofText limits preferences source).Course tokens last where
  undone n early := by
    obtain ⟨standing, midway, -, same⟩ := exists_midway countable small scans preferences early
    cases n with
    | zero => rfl
    | succ n => rw [same (by omega), midway.undone]
  unclosed n early := by
    obtain ⟨standing, midway, -, same⟩ := exists_midway countable small scans preferences early
    cases n with
    | zero => rfl
    | succ n => rw [same (by omega), midway.unclosed]
  opened n early asked := by
    obtain ⟨standing, midway, -, same⟩ := exists_midway countable small scans preferences early
    rw [same asked, midway.opened]
  gives n more := by
    obtain ⟨standing, midway, alike, -⟩ :=
      exists_midway countable small scans preferences (Nat.le_of_lt more)
    obtain ⟨after, next, -⟩ := midway.token countable more
    have step := alike.next.trans next
    rw [called_succ step, step]
  advances n more := by
    obtain ⟨standing, midway, alike, -⟩ :=
      exists_midway countable small scans preferences (Nat.le_of_lt more)
    obtain ⟨after, next, -, further⟩ := midway.token countable more
    rw [called_succ (alike.next.trans next), offset, alike.cursor]
    exact further
  ends := by
    obtain ⟨standing, midway, alike, -⟩ := exists_midway countable small scans preferences le_rfl
    obtain ⟨after, ends⟩ := midway.ends countable
    rw [called_succ (alike.next.trans ends.next)]
    exact ends.congr alike

end

theorem large_course (exceeds : limits.sourceBytes < source.utf8ByteSize)
    (preferences : Preferences) : (ofText limits preferences source).Course []
      (.error (.sourceTooLarge source.utf8ByteSize limits.sourceBytes)) where
  undone n early := by
    obtain rfl := Nat.le_zero.mp early
    rfl
  unclosed n early := by
    obtain rfl := Nat.le_zero.mp early
    rfl
  opened n early asked := absurd (Nat.le_trans asked early) (Nat.not_succ_le_zero 0)
  gives n more := absurd more (Nat.not_lt_zero n)
  advances n more := absurd more (Nat.not_lt_zero n)
  ends := by
    have next : ((ofText limits preferences source).called 0).next = _ := next_large exceeds
    rw [List.length_nil, called_succ next]
    refine ⟨next, fail_over rfl rfl _, rfl, rfl, ?_⟩
    rintro _ ⟨⟩
    rfl

theorem session_of_scans (admissible : limits.Admissible) (preferences : Preferences)
    (scans : ScansText limits source (tokens.map .ok ++ [last]))
    (proper : ∀ token ∈ tokens, token.isEnd = false) (isLast : last.isLast = true) :
    (ofText limits preferences source).Session tokens last := by
  rcases scans.size_cases with ⟨exceeds, rfl, rfl⟩ | ⟨small, scans⟩
  · exact (large_course exceeds preferences).session proper isLast (Nat.zero_le _) (Nat.zero_le _)
  · have course := small_course (admissible.countable small) small scans preferences
    obtain ⟨short, few⟩ := scans.length_le
    simp only [List.length_append, List.length_map, List.length_singleton] at short few
    rw [String.length_toList] at short
    exact course.session proper isLast (Nat.le_of_succ_le_succ short)
      (show tokens.length ≤ limits.tokens by omega)

theorem exists_session (admissible : limits.Admissible) (preferences : Preferences)
    (source : String) :
    ∃ tokens last, (ofText limits preferences source).Session tokens last := by
  obtain ⟨items, scans⟩ := exists_scansText limits source
  obtain ⟨tokens, last, rfl, proper, isLast⟩ := scans.split
  exact ⟨tokens, last, session_of_scans admissible preferences scans proper isLast⟩

theorem exists_session_development : Limits.development.Admissible ∧
    ∃ tokens last,
      (ofText .development { logTokens := true } "a == 'é\n' 3.").Session tokens last :=
  ⟨Limits.development_admissible, exists_session Limits.development_admissible _ _⟩

end Scanner
end ExprLex
