import ExprLex.Proofs.Scan.Feed
import ExprLex.Stream.Check

/-!
Scanning loses nothing. The tokens of a scan lie side by side from the start of the text; with the
end mark they cover all of it, and in front of a problem they cover what comes before the problem.
-/
namespace ExprLex
open Position

variable {limits : Limits} {given : Nat} {before ahead read rest : List Char} {items : List Item}
  {tokens : List Token} {source : String} {last : Token} {problem : Problem}

/-! ## Covering a text -/

def Adjoining (place : Position) : List Token → Prop
  | [] => True
  | token :: tokens => token.span.start = place ∧ Adjoining token.span.stop tokens

structure Token.Fills (token : Token) (source : String) : Prop where
  proper : token.isEnd = false
  nonempty : token.lexeme ≠ ""
  slice : token.span.slice source = .ok token.lexeme

structure Tiles (source : String) (tokens : List Token) : Prop where
  adjoining : Adjoining .start tokens
  placed : ∀ token ∈ tokens, token.span.start.LiesIn source ∧ token.span.stop.LiesIn source

/-- Tokens and an end mark that make up a whole text. -/
structure Covers (source : String) (tokens : List Token) (last : Token) : Prop where
  rebuilt : (TokenStream.ofTokens (tokens ++ [last])).rebuild = source
  filled : ∀ token ∈ tokens, token.Fills source
  tiled : Tiles source (tokens ++ [last])
  isEnd : last.isEnd = true
  start : last.span.start.offset = source.utf8ByteSize
  stop : last.span.stop.offset = source.utf8ByteSize
  valid : (TokenStream.ofTokens (tokens ++ [last])).validate source.utf8ByteSize = .ok ()

/-- Tokens that make up a text as far as a problem in it. -/
structure CoversUntil (source : String) (tokens : List Token) (problem : Problem) : Prop where
  rebuilt : Text.slice source 0 problem.offset = .ok (TokenStream.ofTokens tokens).rebuild
  filled : ∀ token ∈ tokens, token.Fills source
  tiled : Tiles source tokens

/-! ## Cutting a text -/

inductive Cuts : (before read : List Char) → List Token → Prop
  | nil {before : List Char} : Cuts before [] []
  | cons {kind : Kind} {before word rest : List Char} {tokens : List Token}
      (proper : kind ≠ .endOfInput) (nonempty : word ≠ [])
      (later : Cuts (before ++ word) rest tokens) :
      Cuts before (word ++ rest) (.behind kind before word :: tokens)

namespace Cuts

theorem join (cuts : Cuts before read tokens) :
    String.join (tokens.map (·.lexeme)) = String.ofList read := by
  induction cuts with
  | nil => rfl
  | cons proper nonempty later ih =>
      rw [List.map_cons, String.join_cons, ih, String.ofList_append]
      rfl

theorem adjoining (cuts : Cuts before read tokens)
    (follows : Adjoining (behind (before ++ read)) [last]) :
    Adjoining (behind before) tokens ∧ Adjoining (behind before) (tokens ++ [last]) := by
  induction cuts with
  | nil =>
      rw [List.append_nil] at follows
      exact ⟨trivial, follows⟩
  | cons proper nonempty later ih =>
      rw [← List.append_assoc] at follows
      obtain ⟨alone, closed⟩ := ih follows
      exact ⟨⟨rfl, alone⟩, ⟨rfl, closed⟩⟩

theorem forall_mem (cuts : Cuts before read tokens) (split : source.toList = before ++ read ++ rest)
    (countable : Countable source.toList) : ∀ token ∈ tokens, token.Fills source ∧
      token.span.start.LiesIn source ∧ token.span.stop.LiesIn source := by
  induction cuts with
  | nil => simp
  | @cons kind before word more tokens proper nonempty later ih =>
      have around : source.toList = before ++ word ++ (more ++ rest) := by
        simpa using split
      refine List.forall_mem_cons.mpr ⟨⟨⟨?_, ?_, ?_⟩, ?_, ?_⟩, ih (by simpa using split)⟩
      · simpa [Token.behind, Token.ofKind, Token.isEnd] using proper
      · simpa [Token.behind, Token.ofKind] using nonempty
      · exact Span.behind_slice around
      · exact behind_liesIn countable (around.trans (List.append_assoc ..))
      · exact behind_liesIn countable around

end Cuts

theorem Stops.offset (stops : Stops limits given before ahead problem) :
    problem.offset = Text.bytes before := by
  cases stops <;> exact behind_offset before

theorem Scans.cuts (scans : Scans limits given before ahead items) :
    (∃ tokens, Cuts before ahead tokens ∧
      items = (tokens ++ [Token.endAt (behind (before ++ ahead))]).map .ok) ∨
    ∃ tokens problem read rest, Cuts before read tokens ∧ ahead = read ++ rest ∧
      items = tokens.map .ok ++ [.error problem] ∧
      problem.offset = Text.bytes (before ++ read) := by
  induction scans with
  | finished => exact .inl ⟨[], .nil, by simp⟩
  | @stopped given before ahead problem stops =>
      exact .inr ⟨[], problem, [], ahead, .nil, rfl, rfl, by simpa using stops.offset⟩
  | @token given kind before word rest items takes later ih =>
      obtain ⟨member, nonempty⟩ := takes.lexeme
      have proper := Rule.language_proper member
      rcases ih with ⟨tokens, cuts, rfl⟩ | ⟨tokens, problem, read, more, cuts, rfl, rfl, offset⟩
      · exact .inl ⟨_, .cons proper nonempty cuts, by simp⟩
      · refine .inr ⟨_, problem, word ++ read, more, .cons proper nonempty cuts, ?_, rfl, ?_⟩
        · exact (List.append_assoc ..).symm
        · rw [offset, List.append_assoc]

/-! ## The checks on a sequence of tokens -/

namespace TokenStream

theorem rebuild_eq (tokens : List Token) :
    (ofTokens tokens).rebuild = String.join (tokens.map (·.lexeme)) := by
  rw [rebuild, ofTokens, List.foldl_toArray, String.join_eq_foldl, List.foldl_map]

theorem checkAdjacent_ok {place : Position} (adjoining : Adjoining place tokens) :
    checkAdjacent tokens = .ok () := by
  induction tokens generalizing place with
  | nil => rfl
  | cons token tokens ih =>
      obtain ⟨-, later⟩ := adjoining
      cases tokens with
      | nil => rfl
      | cons next tokens =>
          rw [checkAdjacent, if_pos (congrArg Position.offset later.1).symm]
          exact ih later

theorem checkContiguous_ok (adjoining : Adjoining .start tokens) :
    checkContiguous tokens = .ok () := by
  cases tokens with
  | nil => rfl
  | cons token tokens =>
      have first : token.span.start.offset = 0 := congrArg Position.offset adjoining.1
      simp only [checkContiguous, List.head?_cons, first, if_true]
      exact checkAdjacent_ok adjoining

theorem checkEnd_ok {size : Nat} (proper : ∀ token ∈ tokens, token.isEnd = false)
    (isEnd : last.isEnd = true) (start : last.span.start.offset = size)
    (stop : last.span.stop.offset = size) : checkEnd (tokens ++ [last]) size = .ok () := by
  have none : tokens.countP (·.isEnd) = 0 := by
    rw [List.countP_eq_zero]
    intro token member
    simp [proper token member]
  simp [checkEnd, none, isEnd, start, stop]

theorem validate_ok {size : Nat} (adjoining : Adjoining .start (tokens ++ [last]))
    (proper : ∀ token ∈ tokens, token.isEnd = false) (isEnd : last.isEnd = true)
    (start : last.span.start.offset = size) (stop : last.span.stop.offset = size) :
    (ofTokens (tokens ++ [last])).validate size = .ok () := by
  rw [validate, ofTokens, List.toList_toArray, checkContiguous_ok adjoining]
  exact checkEnd_ok proper isEnd start stop

end TokenStream

/-! ## Whole scans -/

theorem Cuts.covers (cuts : Cuts [] source.toList tokens) (countable : Countable source.toList) :
    Covers source tokens (.endAt (behind source.toList)) := by
  have each := cuts.forall_mem (List.append_nil _).symm countable
  have placed : (behind source.toList).LiesIn source :=
    behind_liesIn countable (List.append_nil _).symm
  have follows : Adjoining (behind source.toList) [.endAt (behind source.toList)] := ⟨rfl, trivial⟩
  obtain ⟨-, adjoining⟩ := cuts.adjoining follows
  have size : (behind source.toList).offset = source.utf8ByteSize := by
    rw [behind_offset, Text.utf8ByteSize_eq]
  constructor
  case rebuilt =>
    rw [TokenStream.rebuild_eq, List.map_append, String.join_append, cuts.join]
    simp [Token.endAt, Token.ofKind]
  case filled => exact fun token member => (each token member).1
  case tiled =>
    refine ⟨adjoining, List.forall_mem_append.mpr ⟨fun token member => (each token member).2, ?_⟩⟩
    exact List.forall_mem_singleton.mpr ⟨placed, placed⟩
  case isEnd => rfl
  case start => exact size
  case stop => exact size
  case valid =>
    exact TokenStream.validate_ok adjoining (fun token member => (each token member).1.proper) rfl
      size size

theorem Cuts.coversUntil (cuts : Cuts [] read tokens) (split : source.toList = read ++ rest)
    (countable : Countable source.toList) (offset : problem.offset = Text.bytes read) :
    CoversUntil source tokens problem := by
  have each := cuts.forall_mem split countable
  have follows : Adjoining (behind read) [.endAt (behind read)] := ⟨rfl, trivial⟩
  constructor
  case rebuilt =>
    rw [TokenStream.rebuild_eq, cuts.join, offset]
    exact slice_behind split
  case filled => exact fun token member => (each token member).1
  case tiled =>
    exact ⟨(cuts.adjoining follows).1, fun token member => (each token member).2⟩

theorem raw_covers (admissible : limits.Admissible) (preferences : Preferences) (source : String) :
    ∃ items, (Feed.raw (.ofText limits preferences source)).Gives items ∧
      ((∃ tokens last, items = (tokens ++ [last]).map .ok ∧ Covers source tokens last) ∨
        ∃ tokens problem, items = tokens.map .ok ++ [.error problem] ∧
          CoversUntil source tokens problem) := by
  obtain ⟨items, scans⟩ := exists_scansText limits source
  refine ⟨items, (Feed.raw_gives_iff admissible).mpr scans, ?_⟩
  cases scans with
  | large exceeds =>
      have slice : Text.slice source 0 0 = .ok "" :=
        slice_behind (show source.toList = [] ++ source.toList from rfl)
      exact .inr ⟨[], _, rfl, ⟨slice, by simp, ⟨trivial, by simp⟩⟩⟩
  | scanned small scans =>
      have countable := admissible.countable small
      rcases scans.cuts with ⟨tokens, cuts, rfl⟩ |
        ⟨tokens, problem, read, rest, cuts, split, rfl, offset⟩
      · exact .inl ⟨tokens, _, rfl, cuts.covers countable⟩
      · exact .inr ⟨tokens, problem, rfl, cuts.coversUntil split countable offset⟩

theorem raw_covers_development : Limits.development.Admissible ∧
    ∃ items, (Feed.raw (.ofText .development {} "x\n'é'")).Gives items ∧
      items = [.ok ⟨.identifier, "x", ⟨⟨0, 1, 1⟩, ⟨1, 1, 2⟩⟩, .visible⟩,
        .ok ⟨.whitespace, "\n", ⟨⟨1, 1, 2⟩, ⟨2, 2, 1⟩⟩, .hidden⟩,
        .ok ⟨.singleQuoted, "'é'", ⟨⟨2, 2, 1⟩, ⟨6, 2, 4⟩⟩, .visible⟩,
        .ok ⟨.endOfInput, "", ⟨⟨6, 2, 4⟩, ⟨6, 2, 4⟩⟩, .visible⟩] ∧
      ((∃ tokens last, items = (tokens ++ [last]).map .ok ∧ Covers "x\n'é'" tokens last) ∨
        ∃ tokens problem, items = tokens.map .ok ++ [.error problem] ∧
          CoversUntil "x\n'é'" tokens problem) := by
  obtain ⟨items, gives, covers⟩ := raw_covers Limits.development_admissible {} "x\n'é'"
  exact ⟨Limits.development_admissible, items, gives,
    gives.unique (Feed.gives_of_collect 5 (by decide +kernel)), covers⟩

end ExprLex
