import ExprLex.Proofs.Scan.Session

namespace ExprLex
open Position Rule

variable {limits other : Limits} {given bytes chars limit : Nat} {kind : Kind} {span : Span}
  {before ahead word rest : List Char} {items : List Item} {tokens : List Token} {last : Item}
  {problem : Problem} {source : String} {preferences : Preferences}

structure Rule.Picks (text : List Char) (kind : Kind) (word : List Char) : Prop where
  begins : word <+: text
  chosen : choice text = some (.accept word.length kind)

/-- Whether an item is the limit problem that a scan has to stop with in front of `ahead`, having
read `before` and given so many tokens, and no limit problem if it need not stop. -/
structure Limited (limits : Limits) (given : Nat) (before ahead : List Char) (item : Item) :
    Prop where
  ended : item = .ok (.endAt (behind before)) ↔ ahead = []
  crowded : ∀ limit span, item = .error (.tooManyTokens limit span) ↔
    given = limits.tokens ∧ ahead ≠ [] ∧ limit = limits.tokens ∧ span = .emptyAt (behind before)
  string : ∀ bytes limit span, item = .error (.stringTooLarge bytes limit span) ↔
    given < limits.tokens ∧ limit = limits.stringBytes ∧ ∃ kind word, Picks ahead kind word ∧
      kind.isString = true ∧ limits.stringBytes < bytes ∧ bytes = Text.bytes word ∧
      span = .behind before word
  long : ∀ chars limit span, item = .error (.identifierTooLong chars limit span) ↔
    given < limits.tokens ∧ limit = limits.identifierChars ∧ ∃ word, Picks ahead .identifier word ∧
      limits.identifierChars < chars ∧ chars = word.length ∧ span = .behind before word

theorem stops_crowded : Stops limits given before ahead (.tooManyTokens limit span) ↔
    limits.tokens ≤ given ∧ ahead ≠ [] ∧ limit = limits.tokens ∧
      span = .emptyAt (behind before) := by
  constructor
  · intro stops
    cases stops with
    | crowded full => exact ⟨full, List.cons_ne_nil _ _, rfl, rfl⟩
  · rintro ⟨full, nonempty, rfl, rfl⟩
    obtain ⟨c, rest, rfl⟩ := List.exists_cons_of_ne_nil nonempty
    exact .crowded full

theorem stops_large : Stops limits given before ahead (.stringTooLarge bytes limit span) ↔
    given < limits.tokens ∧ limit = limits.stringBytes ∧ ∃ kind word, Picks ahead kind word ∧
      kind.isString = true ∧ limits.stringBytes < bytes ∧ bytes = Text.bytes word ∧
      span = .behind before word := by
  constructor
  · intro stops
    cases stops with
    | large room chosen string exceeds =>
        exact ⟨room, rfl, _, _, ⟨List.prefix_append _ _, chosen⟩, string, exceeds, rfl, rfl⟩
  · rintro ⟨room, rfl, kind, word, ⟨⟨rest, rfl⟩, chosen⟩, string, exceeds, rfl, rfl⟩
    exact .large room chosen string exceeds

theorem stops_long : Stops limits given before ahead (.identifierTooLong chars limit span) ↔
    given < limits.tokens ∧ limit = limits.identifierChars ∧ ∃ word, Picks ahead .identifier word ∧
      limits.identifierChars < chars ∧ chars = word.length ∧ span = .behind before word := by
  constructor
  · intro stops
    cases stops with
    | long room chosen exceeds =>
        exact ⟨room, rfl, _, ⟨List.prefix_append _ _, chosen⟩, exceeds, rfl, rfl⟩
  · rintro ⟨room, rfl, word, ⟨⟨rest, rfl⟩, chosen⟩, exceeds, rfl, rfl⟩
    exact .long room chosen exceeds

theorem Stops.unique {problemToo : Problem} (countable : Countable (before ++ ahead))
    (stops : Stops limits given before ahead problem)
    (stopsToo : Stops limits given before ahead problemToo) : problem = problemToo := by
  -- Some scanner stands there, and its next step gives the one problem as well as the other.
  let scanner : Scanner := {
    limits
    preferences := {}
    cursor := ⟨String.ofList (before ++ ahead), ahead, behind before⟩
    phase := .scanning
    emitted := given }
  have text : scanner.source.toList = before ++ ahead := String.toList_ofList
  have stands : scanner.Stands given before ahead := ⟨rfl, rfl, text, rfl, rfl⟩
  have step := Scanner.step_stopped (text ▸ countable) stands stops
  have stepToo := Scanner.step_stopped (text ▸ countable) stands stopsToo
  cases step.symm.trans stepToo
  rfl

section
variable (scans : Scans limits given before ahead [last])
  (countable : Countable (before ++ ahead))
include scans countable

theorem Scans.fails_iff : last = .error problem ↔ Stops limits given before ahead problem := by
  rcases scans.last_cases with ⟨rfl, rfl⟩ | ⟨found, stops, rfl⟩
  · exact ⟨nofun, fun stops => absurd rfl stops.nonempty⟩
  · constructor
    · rintro ⟨⟩
      exact stops
    · intro other
      rw [stops.unique countable other]

theorem Scans.limited (few : given ≤ limits.tokens) : Limited limits given before ahead last where
  ended := by
    rcases scans.last_cases with ⟨rfl, rfl⟩ | ⟨found, stops, rfl⟩
    · simp
    · simp [stops.nonempty]
  crowded limit span := by
    rw [scans.fails_iff countable, stops_crowded, few.ge_iff_eq]
  string bytes limit span := (scans.fails_iff countable).trans stops_large
  long chars limit span := (scans.fails_iff countable).trans stops_long

end

theorem Scans.behind (scans : Scans limits given before ahead (tokens.map .ok ++ [last])) :
    ∃ read rest, ahead = read ++ rest ∧ String.ofList read = String.join (tokens.map (·.lexeme)) ∧
      Scans limits (given + tokens.length) (before ++ read) rest [last] ∧
      ∀ token ∈ tokens, token.kind.Fits limits token.lexeme.toList := by
  induction tokens generalizing given before ahead with
  | nil => exact ⟨[], ahead, rfl, rfl, by simpa using scans, by simp⟩
  | cons token tokens ih =>
      rw [List.map_cons, List.cons_append] at scans
      obtain ⟨kind, word, rest, rfl, rfl, takes, later⟩ := scans.read (by simp)
      obtain ⟨read, rest, rfl, joined, scans, fit⟩ := ih later
      refine ⟨word ++ read, rest, (List.append_assoc ..).symm, ?_, ?_, ?_⟩
      · rw [List.map_cons, String.join_cons, ← joined, String.ofList_append]
        rfl
      · rw [List.length_cons, Nat.add_comm tokens.length, ← Nat.add_assoc, ← List.append_assoc]
        exact scans
      · refine List.forall_mem_cons.mpr ⟨?_, fit⟩
        rw [Token.text_behind]
        exact takes.fits

structure Within (limits : Limits) (source : String) (tokens : List Token) (last : Item) :
    Prop where
  small : source.utf8ByteSize ≤ limits.sourceBytes
  few : tokens.length ≤ limits.tokens
  fit : ∀ token ∈ tokens, token.kind.Fits limits token.lexeme.toList
  failing : ∀ problem, last = .error problem →
    problem.isLimit = false ∧ tokens.length < limits.tokens

theorem Stops.within (stops : Stops other given before ahead problem)
    (textual : problem.isLimit = false) (room : given < limits.tokens) :
    Stops limits given before ahead problem := by
  cases stops with
  | crowded | large | long => cases textual
  | unknown _ chosen => exact .unknown room chosen
  | unclosed _ chosen => exact .unclosed room chosen
  | malformed _ chosen => exact .malformed room chosen

theorem Scans.within (scans : Scans other given before ahead (tokens.map .ok ++ [last]))
    (few : given + tokens.length ≤ limits.tokens)
    (fit : ∀ token ∈ tokens, token.kind.Fits limits token.lexeme.toList)
    (failing : ∀ problem, last = .error problem →
      problem.isLimit = false ∧ given + tokens.length < limits.tokens) :
    Scans limits given before ahead (tokens.map .ok ++ [last]) := by
  induction tokens generalizing given before ahead with
  | nil =>
      rcases scans.last_cases with ⟨rfl, rfl⟩ | ⟨problem, stops, rfl⟩
      · exact .finished
      · obtain ⟨textual, room⟩ := failing problem rfl
        exact .stopped (stops.within textual room)
  | cons token tokens ih =>
      rw [List.map_cons, List.cons_append] at scans ⊢
      obtain ⟨kind, word, rest, rfl, rfl, takes, later⟩ := scans.read (by simp)
      rw [List.length_cons] at few failing
      obtain ⟨first, fit⟩ := List.forall_mem_cons.mp fit
      rw [Token.text_behind] at first
      refine .token ⟨by omega, takes.chosen, first⟩ (ih later (by omega) fit ?_)
      intro problem fails
      obtain ⟨textual, room⟩ := failing problem fails
      exact ⟨textual, by omega⟩

/-- How limits bear upon the scan of a text, which gives some tokens and then its last item. -/
structure Enforced (limits : Limits) (source : String) (tokens : List Token) (last : Item) :
    Prop where
  proper : ∀ token ∈ tokens, token.isEnd = false
  isLast : last.isLast = true
  few : tokens.length ≤ limits.tokens
  fit : ∀ token ∈ tokens, token.kind.Fits limits token.lexeme.toList
  large : ∀ bytes limit, last = .error (.sourceTooLarge bytes limit) ↔
    limits.sourceBytes < source.utf8ByteSize ∧ bytes = source.utf8ByteSize ∧
      limit = limits.sourceBytes
  unread : limits.sourceBytes < source.utf8ByteSize → tokens = []
  limited : source.utf8ByteSize ≤ limits.sourceBytes → ∃ read rest,
    source.toList = read ++ rest ∧ String.ofList read = String.join (tokens.map (·.lexeme)) ∧
      Limited limits tokens.length read rest last
  within : ∀ (other : Limits) (preferences : Preferences) (tokensToo : List Token) (lastToo : Item),
    other.Admissible → (Feed.raw (.ofText other preferences source)).Gives
      (tokensToo.map .ok ++ [lastToo]) →
    Within limits source tokensToo lastToo →
      tokensToo.map .ok ++ [lastToo] = tokens.map .ok ++ [last]

theorem ScansText.within (admissible : other.Admissible)
    (given : (Feed.raw (.ofText other preferences source)).Gives (tokens.map .ok ++ [last]))
    (within : Within limits source tokens last) :
    ScansText limits source (tokens.map .ok ++ [last]) := by
  rcases ((Feed.raw_gives_iff admissible).mp given).size_cases with ⟨-, -, rfl⟩ | ⟨-, scans⟩
  · obtain ⟨textual, -⟩ := within.failing _ rfl
    cases textual
  · have few : 0 + tokens.length ≤ limits.tokens := by simpa using within.few
    exact .scanned within.small (scans.within few within.fit (by simpa using within.failing))

theorem ScansText.enforced (admissible : limits.Admissible)
    (scans : ScansText limits source (tokens.map .ok ++ [last]))
    (proper : ∀ token ∈ tokens, token.isEnd = false) (isLast : last.isLast = true) :
    Enforced limits source tokens last := by
  have gives : (Feed.raw (.ofText limits {} source)).Gives (tokens.map .ok ++ [last]) :=
    (Feed.raw_gives_iff admissible).mpr scans
  have within (other : Limits) (preferences : Preferences) (tokensToo : List Token)
      (lastToo : Item) (allowed : other.Admissible)
      (given : (Feed.raw (.ofText other preferences source)).Gives
        (tokensToo.map .ok ++ [lastToo]))
      (within : Within limits source tokensToo lastToo) :
      tokensToo.map .ok ++ [lastToo] = tokens.map .ok ++ [last] :=
    ((Feed.raw_gives_iff admissible).mpr (ScansText.within allowed given within)).unique gives
  rcases scans.size_cases with ⟨exceeds, rfl, rfl⟩ | ⟨small, scans⟩
  · refine ⟨proper, isLast, Nat.zero_le _, by simp, ?_, fun _ => rfl, ?_, within⟩
    · intro bytes limit
      simp [exceeds, eq_comm]
    · exact fun small => absurd exceeds (Nat.not_lt_of_le small)
  · have countable := admissible.countable small
    have few := scans.length_le.2
    simp only [List.length_append, List.length_map, List.length_singleton] at few
    have few : tokens.length ≤ limits.tokens := by omega
    obtain ⟨read, rest, split, joined, standing, fit⟩ := scans.behind
    rw [Nat.zero_add, List.nil_append] at standing
    refine ⟨proper, isLast, few, fit, ?_, ?_, ?_, within⟩
    · intro bytes limit
      rw [standing.fails_iff (split ▸ countable)]
      exact ⟨nofun, fun exceeds => absurd exceeds.1 (Nat.not_lt_of_le small)⟩
    · exact fun exceeds => absurd exceeds (Nat.not_lt_of_le small)
    · exact fun _ => ⟨read, rest, split, joined, standing.limited (split ▸ countable) few⟩

/-- Limits are enforced exactly: a scan stops at a limit where the limit is passed, and nowhere
else. -/
theorem raw_limited (admissible : limits.Admissible) (preferences : Preferences)
    (source : String) : ∃ tokens last,
      (Feed.raw (.ofText limits preferences source)).Gives (tokens.map .ok ++ [last]) ∧
        Enforced limits source tokens last := by
  obtain ⟨items, scans⟩ := exists_scansText limits source
  obtain ⟨tokens, last, rfl, proper, isLast⟩ := scans.split
  exact ⟨tokens, last, (Feed.raw_gives_iff admissible).mpr scans,
    scans.enforced admissible proper isLast⟩

theorem raw_limited_identifier :
    Limits.Admissible { Limits.development with identifierChars := 3 } ∧ ∃ tokens last,
      (Feed.raw (.ofText { Limits.development with identifierChars := 3 } {} "abc abcd")).Gives
        (tokens.map .ok ++ [last]) ∧
      Enforced { Limits.development with identifierChars := 3 } "abc abcd" tokens last ∧
      tokens.map .ok ++ [last] = [.ok ⟨.identifier, "abc", ⟨⟨0, 1, 1⟩, ⟨3, 1, 4⟩⟩, .visible⟩,
        .ok ⟨.whitespace, " ", ⟨⟨3, 1, 4⟩, ⟨4, 1, 5⟩⟩, .hidden⟩,
        .error (.identifierTooLong 4 3 ⟨⟨4, 1, 5⟩, ⟨8, 1, 9⟩⟩)] := by
  have admissible : Limits.Admissible { Limits.development with identifierChars := 3 } := by
    constructor <;> decide
  obtain ⟨tokens, last, gives, enforced⟩ := raw_limited admissible {} "abc abcd"
  exact ⟨admissible, tokens, last, gives, enforced,
    gives.unique (Feed.gives_of_collect 4 (by decide +kernel))⟩

end ExprLex
