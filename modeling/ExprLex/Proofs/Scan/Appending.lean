import ExprLex.Proofs.Grammar.Fragment
import ExprLex.Proofs.Scan.Feed

namespace ExprLex
open Grammar Position Rule

variable {limits : Limits} {given : Nat} {before ahead word rest : List Char} {kind : Kind}
  {tokens : List Token} {token last : Token} {items : List Item}

theorem Takes.append (takes : Takes limits given kind word rest) (readable : choice rest ≠ none)
    (more : List Char) : Takes limits given kind word (rest ++ more) where
  room := takes.room
  chosen := by
    rw [← List.append_assoc]
    exact choice_append takes.chosen readable more
  fits := takes.fits

theorem Scans.readable (scans : Scans limits given before ahead (.ok token :: items))
    (goesOn : items ≠ []) : choice ahead ≠ none := by
  obtain ⟨kind, word, rest, rfl, -, takes, -⟩ := scans.read goesOn
  rw [takes.chosen]
  exact Option.some_ne_none _

theorem Scans.append
    (scans : Scans limits given before ahead ((tokens ++ [token, last]).map .ok))
    (more : List Char) :
    ∃ items, Scans limits given before (ahead ++ more) (tokens.map .ok ++ items) := by
  induction tokens generalizing given before ahead with
  | nil => exact exists_scans limits given before (ahead ++ more)
  | cons first tokens ih =>
      rw [List.cons_append, List.map_cons] at scans
      obtain ⟨kind, word, rest, rfl, rfl, takes, later⟩ := scans.read (by simp)
      have readable : choice rest ≠ none := by
        cases tokens <;> exact later.readable (by simp)
      obtain ⟨items, scans⟩ := ih later
      rw [List.append_assoc]
      exact ⟨items, .token (takes.append readable more) scans⟩

theorem raw_appended (admissible : limits.Admissible) {preferences preferencesToo : Preferences}
    {source more : String} (scanned :
      (Feed.raw (.ofText limits preferences source)).Gives ((tokens ++ [token, last]).map .ok))
    (small : (source ++ more).utf8ByteSize ≤ limits.sourceBytes) :
    ∃ items, (Feed.raw (.ofText limits preferencesToo (source ++ more))).Gives
      (tokens.map .ok ++ items) := by
  generalize given : ((tokens ++ [token, last]).map .ok : List Item) = scan at scanned
  cases (Feed.raw_gives_iff admissible).mp scanned with
  | large exceeds => cases tokens <;> cases given
  | scanned _ scans =>
      rw [← given] at scans
      obtain ⟨items, longer⟩ := scans.append more.toList
      refine ⟨items, (Feed.raw_gives_iff admissible).mpr (.scanned small ?_)⟩
      rw [String.toList_append]
      exact longer

theorem raw_appended_development : ∃ items,
    (Feed.raw (.ofText .development {} ("1or" ++ "d.."))).Gives
      (.ok (.behind .integer [] ['1']) :: items) := by
  have first : Takes .development 0 .integer ['1'] ['o', 'r'] :=
    ⟨by decide, by decide, nofun, nofun⟩
  have second : Takes .development 1 .orOp ['o', 'r'] [] :=
    ⟨by decide, by decide, nofun, nofun⟩
  have scans : ScansText .development "1or" _ :=
    .scanned (by decide) (.token first (.token second .finished))
  have scanned : (Feed.raw (.ofText .development {} "1or")).Gives
      (([.behind .integer [] ['1']] ++ [.behind .orOp ['1'] ['o', 'r'],
        .endAt (behind ['1', 'o', 'r'])] : List Token).map .ok) :=
    (Feed.raw_gives_iff Limits.development_admissible).mpr scans
  exact raw_appended Limits.development_admissible scanned (by decide)

end ExprLex
