import ExprLex.Proofs.Grammar.Separation
import ExprLex.Proofs.Scan.Feed

namespace ExprLex
open Grammar Position Rule

variable {limits : Limits} {given : Nat} {before ahead gap rest text lead : List Char} {kind : Kind}
  {word : List Char} {items : List Item} {token : Token} {tokens shown : List Token}
  {gaps : List (List Char)}

namespace Token

def isShown (token : Token) : Bool := !token.isHidden && !token.isEnd

def content (token : Token) : Kind × String := (token.kind, token.lexeme)

structure Proper (limits : Limits) (token : Token) : Prop where
  owned : token.kind.Owns token.lexeme.toList
  fits : token.kind.Fits limits token.lexeme.toList
  visible : token.kind ≠ .whitespace

theorem behind_isHidden (kind : Kind) (before word : List Char) :
    (behind kind before word).isHidden = decide (kind = .whitespace) := by
  cases kind <;> rfl

theorem behind_content (kind : Kind) (before word : List Char) :
    (behind kind before word).content = (kind, String.ofList word) := rfl

end Token

theorem Takes.proper (takes : Takes limits given kind word rest)
    (shown : (Token.behind kind before word).isShown = true) :
    (Token.behind kind before word).Proper limits := by
  have lexeme : (Token.behind kind before word).lexeme.toList = word := String.toList_ofList
  constructor
  · rw [lexeme]
    exact owns_of_choice takes.chosen
  · rw [lexeme]
    exact takes.fits
  · rintro whitespace
    simp [Token.isShown, Token.behind_isHidden, show kind = .whitespace from whitespace] at shown

theorem Scans.proper (scans : Scans limits given before ahead items) :
    ∀ token, .ok token ∈ items → token.isShown = true → token.Proper limits := by
  induction scans with
  | finished =>
      intro token member shown
      obtain rfl := Except.ok.inj (List.mem_singleton.mp member)
      cases shown
  | stopped stops =>
      intro token member shown
      cases List.mem_singleton.mp member
  | token takes later ih =>
      intro token member shown
      rcases List.mem_cons.mp member with same | member
      · obtain rfl := Except.ok.inj same
        exact takes.proper shown
      · exact ih token member shown

theorem ScansText.proper {source : String} (scans : ScansText limits source items) :
    ∀ token, .ok token ∈ items → token.isShown = true → token.Proper limits := by
  cases scans with
  | large exceeds =>
      intro token member
      cases List.mem_singleton.mp member
  | scanned small scans => exact scans.proper

/-- The text of tokens with a gap of blanks behind each. Only the last gap may be empty. -/
inductive Spaced : (tokens : List Token) → (gaps : List (List Char)) → (text : List Char) → Prop
  | nil : Spaced [] [] []
  | cons {token : Token} {tokens : List Token} {gap text : List Char} {gaps : List (List Char)}
      (blank : ∀ c ∈ gap, c ∈ [' ', '\t', '\n', '\r']) (parted : tokens ≠ [] → gap ≠ [])
      (later : Spaced tokens gaps text) :
      Spaced (token :: tokens) (gap :: gaps) (token.lexeme.toList ++ (gap ++ text))

def runs (gaps : List (List Char)) : Nat := gaps.countP (· ≠ [])

theorem runs_cons (gap : List Char) (gaps : List (List Char)) :
    runs (gap :: gaps) = runs gaps + if gap = [] then 0 else 1 := by
  rw [runs, List.countP_cons, ← runs]
  cases gap <;> rfl

theorem Spaced.stop (spaced : Spaced tokens gaps text)
    (proper : ∀ token ∈ tokens, token.Proper limits) :
    Breaks (· ∈ [' ', '\t', '\n', '\r']) text := by
  cases spaced with
  | nil => exact breaks_nil
  | @cons token tokens gap text gaps blank parted later =>
      have first := proper token List.mem_cons_self
      obtain ⟨c, tail, equal, opened⟩ := opens_of_mem first.owned.1
      rw [equal, List.cons_append, breaks_cons]
      intro listed
      exact first.visible (opens_space ((space_iff c).mp listed) opened)

theorem Spaced.ended (blank : ∀ c ∈ gap, c ∈ [' ', '\t', '\n', '\r'])
    (parted : tokens ≠ [] → gap ≠ []) (later : Spaced tokens gaps text) :
    Breaks Solid (gap ++ text) := by
  cases gap with
  | nil =>
      cases later with
      | nil => exact breaks_nil
      | cons => exact absurd rfl (parted (List.cons_ne_nil _ _))
  | cons c gap =>
      rw [List.cons_append, breaks_cons, Solid, Bool.not_eq_false, ← space_iff]
      exact blank c List.mem_cons_self

theorem Scans.pad (blank : ∀ c ∈ gap, c ∈ [' ', '\t', '\n', '\r'])
    (stop : Breaks (· ∈ [' ', '\t', '\n', '\r']) rest)
    (room : given + (if gap = [] then 0 else 1) ≤ limits.tokens)
    (scans : Scans limits (given + if gap = [] then 0 else 1) (before ++ gap) rest
      (tokens.map .ok)) :
    ∃ others : List Token, Scans limits given before (gap ++ rest) (others.map .ok) ∧
      others.length = tokens.length + (if gap = [] then 0 else 1) ∧
      others.filter (!·.isHidden) = tokens.filter (!·.isHidden) := by
  by_cases empty : gap = []
  · subst empty
    rw [List.append_nil] at scans
    exact ⟨tokens, scans, rfl, rfl⟩
  · rw [if_neg empty] at room scans ⊢
    have fits : Kind.whitespace.Fits limits gap := ⟨nofun, nofun⟩
    have takes : Takes limits given .whitespace gap rest :=
      ⟨room, choice_gap empty blank stop, fits⟩
    exact ⟨.behind .whitespace before gap :: tokens, .token takes scans, rfl, rfl⟩

theorem Spaced.scans (spaced : Spaced tokens gaps text)
    (proper : ∀ token ∈ tokens, token.Proper limits) (given : Nat) (before : List Char)
    (room : given + tokens.length + runs gaps ≤ limits.tokens) :
    ∃ others : List Token, Scans limits given before text (others.map .ok) ∧
      others.length = tokens.length + runs gaps + 1 ∧
      (others.filter (!·.isHidden)).map Token.content =
        tokens.map Token.content ++ [(.endOfInput, "")] := by
  induction spaced generalizing given before with
  | nil => exact ⟨[.endAt (behind before)], .finished, rfl, rfl⟩
  | @cons token tokens gap text gaps blank parted later ih =>
      obtain ⟨first, proper⟩ := List.forall_mem_cons.mp proper
      -- The scan of the text behind the gap comes first, then the gap, then the token itself.
      rw [List.length_cons, runs_cons] at room
      obtain ⟨others, scans, length, same⟩ := ih proper
        (given + 1 + if gap = [] then 0 else 1) (before ++ token.lexeme.toList ++ gap) (by omega)
      obtain ⟨padded, scans, lengthToo, sameToo⟩ :=
        scans.pad blank (later.stop proper) (by omega)
      have takes : Takes limits given token.kind token.lexeme.toList (gap ++ text) :=
        ⟨by omega, choice_separate first.owned first.visible (later.ended blank parted), first.fits⟩
      have seen : (Token.behind token.kind before token.lexeme.toList).isHidden = false := by
        rw [Token.behind_isHidden]
        exact decide_eq_false first.visible
      refine ⟨_ :: padded, .token takes scans, ?_, ?_⟩
      · simp only [List.length_cons, runs_cons, lengthToo, length]
        omega
      · rw [List.filter_cons_of_pos (by simp [seen]), List.map_cons, sameToo, same,
          Token.behind_content, String.ofList_toList]
        rfl

/-- Spacing does not matter. Where a text can be scanned, so can any other that has the same visible
tokens with blanks between them and keeps to the limits, and its visible tokens are the same. -/
theorem visible_respaced (admissible : limits.Admissible) {preferences preferencesToo : Preferences}
    {source : String} (scanned :
      (Feed.raw (.ofText limits preferences source)).Gives (tokens.map .ok))
    (blank : ∀ c ∈ lead, c ∈ [' ', '\t', '\n', '\r'])
    (spaced : Spaced (tokens.filter Token.isShown) gaps text)
    (small : (String.ofList (lead ++ text)).utf8ByteSize ≤ limits.sourceBytes)
    (few : (tokens.filter Token.isShown).length + runs (lead :: gaps) ≤ limits.tokens) :
    ∃ others shown : List Token,
      (Feed.raw (.ofText limits preferencesToo (String.ofList (lead ++ text)))).Gives
        (others.map .ok) ∧
      others.length = (tokens.filter Token.isShown).length + runs (lead :: gaps) + 1 ∧
      (Feed.visible (.ofText limits preferencesToo (String.ofList (lead ++ text)))).Gives
        (shown.map .ok) ∧
      shown.map Token.content =
        (tokens.filter Token.isShown).map Token.content ++ [(.endOfInput, "")] := by
  have proper : ∀ token ∈ tokens.filter Token.isShown, token.Proper limits := by
    intro token member
    obtain ⟨member, shown⟩ := List.mem_filter.mp member
    have scans := (Feed.raw_gives_iff admissible).mp scanned
    exact scans.proper token (List.mem_map_of_mem member) shown
  rw [runs_cons] at few
  obtain ⟨others, scans, length, same⟩ :=
    spaced.scans proper (0 + if lead = [] then 0 else 1) ([] ++ lead) (by omega)
  obtain ⟨padded, scans, lengthToo, sameToo⟩ := scans.pad blank (spaced.stop proper) (by omega)
  have scansText : ScansText limits (String.ofList (lead ++ text)) (padded.map .ok) := by
    refine .scanned small ?_
    rw [String.toList_ofList]
    exact scans
  have visible : (Feed.visible (.ofText limits preferencesToo _)).Gives _ :=
    Feed.visible_gives admissible scansText
  rw [List.filter_map] at visible
  refine ⟨padded, _, (Feed.raw_gives_iff admissible).mpr scansText, ?_, visible, ?_⟩
  · rw [runs_cons]
    omega
  · exact (congrArg _ sameToo).trans same

theorem visible_respaced_development : ∃ others shown : List Token,
    (Feed.raw (.ofText .development {} " 1\tor")).Gives (others.map .ok) ∧ others.length = 5 ∧
    (Feed.visible (.ofText .development {} " 1\tor")).Gives (shown.map .ok) ∧
    shown.map Token.content = [(.integer, "1"), (.orOp, "or"), (.endOfInput, "")] := by
  have first : Takes .development 0 .integer ['1'] ['o', 'r'] :=
    ⟨by decide, by decide, nofun, nofun⟩
  have second : Takes .development 1 .orOp ['o', 'r'] [] :=
    ⟨by decide, by decide, nofun, nofun⟩
  have scans : ScansText .development "1or" ([.behind .integer [] ['1'],
      .behind .orOp ['1'] ['o', 'r'], .endAt (behind ['1', 'o', 'r'])].map .ok) :=
    .scanned (by decide) (.token first (.token second .finished))
  have scanned : (Feed.raw (.ofText .development {} "1or")).Gives _ :=
    (Feed.raw_gives_iff Limits.development_admissible).mpr scans
  have spaced : Spaced [.behind .integer [] ['1'], .behind .orOp ['1'] ['o', 'r']] [['\t'], []] _ :=
    .cons (forall_listed (by decide)) (by decide) (.cons (by simp) (by decide) .nil)
  exact visible_respaced Limits.development_admissible scanned
    (show ∀ c ∈ [' '], c ∈ [' ', '\t', '\n', '\r'] by simp) spaced (by decide) (by decide)

end ExprLex
