import ExprLex.Literal.Value
import ExprLex.Proofs.Scan.Places

namespace ExprLex
open Computability Grammar Rule

variable {limits : Limits} {kind : Kind} {quote : Char} {body chars word : List Char}
  {text lexeme : String}

namespace Literal

def doubled (quote : Char) (chars : List Char) : List Char :=
  chars.flatMap fun c => if c = quote then [c, c] else [c]

theorem doubled_cons (quote c : Char) (chars : List Char) :
    doubled quote (c :: chars) = (if c = quote then [c, c] else [c]) ++ doubled quote chars :=
  List.flatMap_cons

def enclosed (quote : Char) (body : List Char) : String :=
  String.ofList (quote :: (body ++ [quote]))

/-- Whether a lexeme is what a text is written as in a string of some kind. -/
inductive Writes : Kind → (text lexeme : String) → Prop
  | single {text : String} (quotable : '\uffff' ∉ text.toList) :
      Writes .singleQuoted text (enclosed '\x27' (doubled '\x27' text.toList))
  | double {text : String} (quotable : '\uffff' ∉ text.toList) (unquoted : '"' ∉ text.toList) :
      Writes .doubleQuoted text (enclosed '"' text.toList)

theorem mem_plain : body ∈ (stringPart quote false)∗ ↔ unquotable ∉ body ∧ quote ∉ body := by
  have part : stringPart quote false = oneOf fun c => c ≠ quote ∧ c ≠ '\uffff' := add_zero _
  rw [part, mem_oneOf_star]
  constructor
  · intro all
    exact ⟨fun listed => (all _ listed).2 rfl, fun listed => (all _ listed).1 rfl⟩
  · rintro ⟨quotable, unquoted⟩ c listed
    exact ⟨by rintro rfl; exact unquoted listed, by rintro rfl; exact quotable listed⟩

theorem doubled_mem (quotable : unquotable ∉ chars) :
    doubled quote chars ∈ (stringPart quote true)∗ := by
  induction chars with
  | nil => exact Language.nil_mem_kstar _
  | cons c chars ih =>
      obtain ⟨first, others⟩ : unquotable ≠ c ∧ unquotable ∉ chars := by simpa using quotable
      rw [doubled_cons, mem_body]
      split
      · rename_i same
        subst same
        exact .inr (.inr ⟨rfl, _, ih others, rfl⟩)
      · rename_i other
        exact .inr (.inl ⟨c, _, other, first.symm, ih others, rfl⟩)

theorem exists_doubled (proper : quote ≠ unquotable) (member : body ∈ (stringPart quote true)∗) :
    ∃ chars, unquotable ∉ chars ∧ body = doubled quote chars := by
  induction length : body.length using Nat.strong_induction_on generalizing body with
  | _ length ih =>
      subst length
      rcases mem_body.mp member with rfl | ⟨c, tail, other, quotable, tailMember, rfl⟩ |
        ⟨-, tail, tailMember, rfl⟩
      · exact ⟨[], List.not_mem_nil, rfl⟩
      · obtain ⟨chars, clear, rfl⟩ := ih tail.length (by simp) tailMember rfl
        refine ⟨c :: chars, by simp [quotable.symm, clear], ?_⟩
        rw [doubled_cons, if_neg other]
        rfl
      · obtain ⟨chars, clear, rfl⟩ :=
          ih tail.length (by simp only [List.length_cons]; omega) tailMember rfl
        refine ⟨quote :: chars, by simp [proper.symm, clear], ?_⟩
        rw [doubled_cons, if_pos rfl]
        rfl

theorem undouble_other {c : Char} (other : c ≠ quote) (done rest : List Char) :
    undouble quote done (c :: rest) = undouble quote (c :: done) rest := by
  cases rest with
  | nil => rfl
  | cons d rest => rw [undouble, if_neg fun both => other both.1]

theorem undouble_doubled (quote : Char) (done chars : List Char) :
    undouble quote done (doubled quote chars) = done.reverse ++ chars := by
  induction chars generalizing done with
  | nil => exact (List.append_nil _).symm
  | cons c chars ih =>
      have shift : (c :: done).reverse ++ chars = done.reverse ++ c :: chars := by simp
      rw [doubled_cons]
      split
      · rename_i same
        subst same
        exact (if_pos ⟨rfl, rfl⟩).trans ((ih _).trans shift)
      · rename_i other
        exact (undouble_other other done _).trans ((ih _).trans shift)

theorem between?_enclosed (quote : Char) (body : List Char) :
    between? quote (enclosed quote body).toList = some body := by
  rw [enclosed, String.toList_ofList]
  simp [between?, dropMark?]

theorem mem_enclosed {doubling : Bool} : lexeme.toList ∈ strings quote doubling ↔
    ∃ body ∈ (stringPart quote doubling)∗, lexeme = enclosed quote body := by
  constructor
  · intro member
    obtain ⟨_, opened, _, rfl, split⟩ := Language.mem_mul.mp member
    obtain ⟨_, rfl, body, parts, rfl⟩ := Language.mem_mul.mp opened
    refine ⟨body, parts, ?_⟩
    rw [← String.ofList_toList (s := lexeme), ← split, enclosed]
    simp
  · rintro ⟨body, parts, rfl⟩
    rw [enclosed, String.toList_ofList]
    exact Language.append_mem_mul (a := [quote] ++ body)
      (Language.append_mem_mul (mem_just.mpr rfl) parts) (mem_just.mpr rfl)

theorem Writes.decode (writes : Writes kind text lexeme) : decodeString kind lexeme = .ok text := by
  cases writes with
  | single quotable =>
      rw [decodeString, between?_enclosed]
      dsimp only
      rw [undouble_doubled, List.reverse_nil, List.nil_append, String.ofList_toList]
  | double quotable unquoted =>
      rw [decodeString, between?_enclosed]
      dsimp only
      rw [String.ofList_toList]

theorem Writes.isString (writes : Writes kind text lexeme) : kind.isString = true := by
  cases writes <;> rfl

theorem Writes.mem (writes : Writes kind text lexeme) : lexeme.toList ∈ kind.language := by
  cases writes with
  | single quotable => exact mem_enclosed.mpr ⟨_, doubled_mem quotable, rfl⟩
  | double quotable unquoted =>
      exact mem_enclosed.mpr ⟨_, mem_plain.mpr ⟨quotable, unquoted⟩, rfl⟩

theorem exists_writes (string : kind.isString = true) (member : lexeme.toList ∈ kind.language) :
    ∃ text, Writes kind text lexeme := by
  cases kind <;> cases string
  case singleQuoted =>
    obtain ⟨body, parts, rfl⟩ := mem_enclosed.mp member
    obtain ⟨chars, quotable, rfl⟩ := exists_doubled (by decide) parts
    have writes : Writes .singleQuoted (String.ofList chars) _ :=
      .single (by rwa [String.toList_ofList])
    rw [String.toList_ofList] at writes
    exact ⟨_, writes⟩
  case doubleQuoted =>
    obtain ⟨body, parts, rfl⟩ := mem_enclosed.mp member
    obtain ⟨quotable, unquoted⟩ := mem_plain.mp parts
    have writes : Writes .doubleQuoted (String.ofList body) _ :=
      .double (by rwa [String.toList_ofList]) (by rwa [String.toList_ofList])
    rw [String.toList_ofList] at writes
    exact ⟨_, writes⟩

theorem Writes.scans (writes : Writes kind text lexeme) (admissible : limits.Admissible)
    (short : lexeme.utf8ByteSize ≤ limits.stringBytes) :
    ∃ token last, ScansText limits lexeme [.ok token, .ok last] ∧ token.kind = kind ∧
      token.lexeme = lexeme ∧ last.isEnd = true := by
  have room : 0 < limits.tokens := Nat.pos_of_ne_zero admissible.tokens_pos
  have fits : kind.Fits limits lexeme.toList := by
    refine ⟨fun _ => Text.utf8ByteSize_eq lexeme ▸ short, fun identifier => ?_⟩
    subst identifier
    cases writes.isString
  have takes : Takes limits 0 kind lexeme.toList [] :=
    ⟨room, choice_string writes.isString writes.mem breaks_nil, fits⟩
  have scans : Scans limits 0 [] (lexeme.toList ++ []) _ := .token takes .finished
  rw [List.append_nil] at scans
  exact ⟨_, _, .scanned (short.trans admissible.string_le) scans, rfl, String.ofList_toList, rfl⟩

/-- Strings are written and read in the same way: a text that is written as a string and is not too
large is scanned as one token that stands for it, and each string that a scan gives stands for the
text that is written as its lexeme. -/
theorem strings_round_trip (admissible : limits.Admissible) (preferences : Preferences) :
    (∀ kind text lexeme, Writes kind text lexeme → lexeme.utf8ByteSize ≤ limits.stringBytes →
      ∃ token last, (Feed.raw (.ofText limits preferences lexeme)).Gives [.ok token, .ok last] ∧
        token.kind = kind ∧ token.lexeme = lexeme ∧ last.isEnd = true ∧
        decodeString token.kind token.lexeme = .ok text) ∧
    ∀ source, ∃ items, (Feed.raw (.ofText limits preferences source)).Gives items ∧
      ∀ token, .ok token ∈ items → token.kind.isString = true →
        ∃ text, decodeString token.kind token.lexeme = .ok text ∧
          Writes token.kind text token.lexeme := by
  constructor
  · intro kind text lexeme writes short
    obtain ⟨token, last, scans, rfl, rfl, isEnd⟩ := writes.scans admissible short
    exact ⟨token, last, (Feed.raw_gives_iff admissible).mpr scans, rfl, rfl, isEnd, writes.decode⟩
  · intro source
    obtain ⟨items, scans⟩ := exists_scansText limits source
    refine ⟨items, (Feed.raw_gives_iff admissible).mpr scans, ?_⟩
    intro token member string
    rcases scans.token_cases member with ⟨p, rfl⟩ | lexeme
    · cases string
    · obtain ⟨text, writes⟩ := exists_writes string lexeme
      exact ⟨text, writes.decode, writes⟩

theorem strings_round_trip_development : Limits.development.Admissible ∧
    ∃ token last, (Feed.raw (.ofText .development {} "'it''s'")).Gives [.ok token, .ok last] ∧
      token.kind = .singleQuoted ∧ token.lexeme = "'it''s'" ∧ last.isEnd = true ∧
      decodeString token.kind token.lexeme = .ok "it's" :=
  ⟨Limits.development_admissible,
    (strings_round_trip Limits.development_admissible {}).1 .singleQuoted "it's" "'it''s'"
      (.single (by decide)) (by decide)⟩

end Literal
end ExprLex
