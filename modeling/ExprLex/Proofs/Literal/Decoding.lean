import ExprLex.Proofs.Literal.Quoting
import ExprLex.Proofs.Literal.Real

namespace ExprLex
open Computability Grammar

variable {limits : Limits} {kind : Kind} {lexeme : String} {token : Token}

namespace Literal

def EndsWith (marks : List Char) (lexeme : String) : Prop :=
  ∃ c ∈ marks, lexeme.toList.getLast? = some c

def Value.Suits (kind : Kind) (lexeme : String) : Value → Prop
  | .int _ => (kind = .integer ∨ kind = .hexInteger) ∧ ¬ EndsWith ['L', 'l'] lexeme
  | .long _ => (kind = .integer ∨ kind = .hexInteger) ∧ EndsWith ['L', 'l'] lexeme
  | .float _ => kind = .real ∧ EndsWith ['F', 'f'] lexeme
  | .double _ => kind = .real ∧ ¬ EndsWith ['F', 'f'] lexeme
  | .string _ => kind = .singleQuoted ∨ kind = .doubleQuoted
  | .boolean b => kind = if b then .trueLit else .falseLit
  | .null => kind = .nullLit

inductive Decoded (kind : Kind) (lexeme : String) : Except Problem Value → Prop
  | valued {value : Value} (suits : value.Suits kind lexeme) : Decoded kind lexeme (.ok value)
  | large (numeric : kind = .integer ∨ kind = .hexInteger ∨ kind = .real) :
      Decoded kind lexeme (.error (.outOfRange lexeme))
  | foreign (other : kind.isLiteral = false) : Decoded kind lexeme (.error (.notALiteral kind))

theorem endsWith_append {c : Char} {marks body : List Char} (listed : c ∈ marks)
    (split : lexeme.toList = body ++ [c]) : EndsWith marks lexeme :=
  ⟨c, listed, by rw [split, List.getLast?_concat]⟩

theorem not_endsWith {marks : List Char} (unmarked : ∀ c ∈ lexeme.toList.getLast?, c ∉ marks) :
    ¬ EndsWith marks lexeme := by
  rintro ⟨c, listed, last⟩
  exact unmarked c last listed

theorem decodeInteger_decoded (integral : kind = .integer ∨ kind = .hexInteger)
    (member : lexeme.toList ∈ kind.language) :
    Decoded kind lexeme (decodeInteger kind lexeme) := by
  have numeric : kind = .integer ∨ kind = .hexInteger ∨ kind = .real :=
    integral.imp_right .inl
  obtain ⟨base, body, run, mark, numeral, marked, split⟩ := exists_numeral integral member
  rcases mem_optional.mp marked with rfl | ⟨c, long, rfl⟩
  · rw [List.append_nil] at split
    subst split
    rw [numeral.decode_int]
    split
    · exact .valued ⟨integral, not_endsWith numeral.unmarked⟩
    · exact .large numeric
  · rw [numeral.decode_long long split]
    split
    · exact .valued ⟨integral, endsWith_append long split⟩
    · exact .large numeric

theorem WrittenReal.endsWith_iff {single : Bool} {exact : ℚ}
    (real : WrittenReal lexeme.toList single exact) :
    EndsWith ['F', 'f'] lexeme ↔ single = true := by
  generalize split : lexeme.toList = text at real
  cases real with
  | single spelled marked => exact iff_of_true (endsWith_append marked split) rfl
  | @double _ _ mark spelled marked =>
      have other : [mark] ∈ optional (oneOf (· ∈ ['D', 'd'])) :=
        mem_optional.mpr (.inr ⟨mark, marked, rfl⟩)
      have unmarked := double_unmarked spelled.mem other
      exact iff_of_false (not_endsWith (split ▸ unmarked)) Bool.false_ne_true
  | plain spelled =>
      have unmarked := double_unmarked spelled.mem (mem_optional.mpr (.inl rfl))
      rw [List.append_nil] at unmarked
      exact iff_of_false (not_endsWith (split ▸ unmarked)) Bool.false_ne_true

theorem decodeReal_decoded (member : lexeme.toList ∈ reals) :
    Decoded .real lexeme (decodeReal lexeme) := by
  obtain ⟨single, exact, bits, real, -, found⟩ := decodeReal_rounded member
  rw [found]
  cases single with
  | true =>
      rw [rounded]
      split
      · exact .valued ⟨rfl, real.endsWith_iff.mpr rfl⟩
      · exact .large (.inr (.inr rfl))
  | false =>
      rw [rounded]
      split
      · exact .valued ⟨rfl, mt real.endsWith_iff.mp Bool.false_ne_true⟩
      · exact .large (.inr (.inr rfl))

theorem ofToken_decoded (member : token.lexeme.toList ∈ token.kind.language) :
    Decoded token.kind token.lexeme (ofToken token) := by
  obtain ⟨kind, lexeme, span, channel⟩ := token
  dsimp only at member ⊢
  cases kind
  case integer => exact decodeInteger_decoded (.inl rfl) member
  case hexInteger => exact decodeInteger_decoded (.inr rfl) member
  case real => exact decodeReal_decoded member
  case singleQuoted =>
    obtain ⟨text, writes⟩ := exists_writes rfl member
    simp only [ofToken, writes.decode]
    exact .valued (.inl rfl)
  case doubleQuoted =>
    obtain ⟨text, writes⟩ := exists_writes rfl member
    simp only [ofToken, writes.decode]
    exact .valued (.inr rfl)
  case trueLit => exact .valued rfl
  case falseLit => exact .valued rfl
  case nullLit => exact .valued rfl
  all_goals exact .foreign rfl

theorem endAt_decoded (p : Position) : Decoded .endOfInput "" (ofToken (.endAt p)) := .foreign rfl

theorem Value.Suits.isLiteral {value : Value} (suits : value.Suits kind lexeme) :
    kind.isLiteral = true := by
  cases value with
  | int n => rcases suits.1 with rfl | rfl <;> rfl
  | long n => rcases suits.1 with rfl | rfl <;> rfl
  | float bits => rcases suits.1 with rfl; rfl
  | double bits => rcases suits.1 with rfl; rfl
  | string text => rcases suits with rfl | rfl <;> rfl
  | boolean b => cases suits; cases b <;> rfl
  | null => cases suits; rfl

/-- What decoding owes the tokens of a scan. -/
structure Decodable (token : Token) : Prop where
  formed : ∀ kind lexeme, ofToken token ≠ .error (.malformed kind lexeme)
  foreign_iff : ∀ kind, ofToken token = .error (.notALiteral kind) ↔
    token.kind.isLiteral = false ∧ kind = token.kind
  numeric : ∀ lexeme, ofToken token = .error (.outOfRange lexeme) → lexeme = token.lexeme ∧
    (token.kind = .integer ∨ token.kind = .hexInteger ∨ token.kind = .real)
  suited : ∀ value, ofToken token = .ok value → value.Suits token.kind token.lexeme
  integral : token.kind = .integer ∨ token.kind = .hexInteger → ∃ base digits long,
    Written token.kind token.lexeme.toList base digits long ∧
      ofToken token = answer token.lexeme long (positional base digits)
  real : token.kind = .real → ∃ single exact bits, WrittenReal token.lexeme.toList single exact ∧
    (∀ other, (precision single).Rounds exact other ↔ other = bits) ∧
      ofToken token = rounded token.lexeme single bits
  valued : token.kind.isLiteral = true → token.kind.isNumeric = false →
    ∃ value, ofToken token = .ok value

theorem numeric_isLiteral (numeric : kind = .integer ∨ kind = .hexInteger ∨ kind = .real) :
    kind.isLiteral = true := by
  rcases numeric with rfl | rfl | rfl <;> rfl

theorem ofToken_integral (integral : token.kind = .integer ∨ token.kind = .hexInteger) :
    ofToken token = decodeInteger token.kind token.lexeme := by
  rcases integral with same | same <;> simp only [ofToken, same]

theorem Decoded.decodable (decoded : Decoded token.kind token.lexeme (ofToken token))
    (member : token.kind ≠ .endOfInput → token.lexeme.toList ∈ token.kind.language) :
    Decodable token where
  formed := by
    intro kind lexeme answered
    rw [answered] at decoded
    cases decoded
  foreign_iff := by
    intro kind
    constructor
    · intro answered
      rw [answered] at decoded
      cases decoded with
      | foreign other => exact ⟨other, rfl⟩
    · rintro ⟨other, rfl⟩
      generalize ofToken token = answer at decoded ⊢
      cases decoded with
      | valued suits =>
          rw [suits.isLiteral] at other
          cases other
      | large numeric =>
          rw [numeric_isLiteral numeric] at other
          cases other
      | foreign => rfl
  numeric := by
    intro lexeme answered
    rw [answered] at decoded
    cases decoded with
    | large numeric => exact ⟨rfl, numeric⟩
  suited := by
    intro value answered
    rw [answered] at decoded
    cases decoded with
    | valued suits => exact suits
  integral := by
    intro integral
    have proper : token.kind ≠ .endOfInput := by
      rcases integral with same | same <;> simp [same]
    obtain ⟨base, digits, long, written⟩ := exists_written integral (member proper)
    exact ⟨base, digits, long, written, (ofToken_integral integral).trans written.decode⟩
  real := by
    intro same
    have found : ofToken token = decodeReal token.lexeme := by simp only [ofToken, same]
    rw [found]
    rw [same] at member
    exact decodeReal_rounded (member Kind.noConfusion)
  valued := by
    intro literal plain
    generalize ofToken token = answer at decoded ⊢
    cases decoded with
    | valued suits => exact ⟨_, rfl⟩
    | large numeric =>
        rcases numeric with same | same | same <;> simp [same, Kind.isNumeric] at plain
    | foreign other => simp [other] at literal

/-- No lexeme of a scan is malformed to decoding, which tells literals from other tokens as their
kinds do, fails for large numbers only, and otherwise gives the type that the lexeme asks for. -/
theorem raw_decodable (admissible : limits.Admissible) (preferences : Preferences)
    (source : String) : ∃ items, (Feed.raw (.ofText limits preferences source)).Gives items ∧
      ∀ token, .ok token ∈ items → Decodable token := by
  obtain ⟨items, scans⟩ := exists_scansText limits source
  refine ⟨items, (Feed.raw_gives_iff admissible).mpr scans, ?_⟩
  intro token member
  rcases scans.token_cases member with ⟨p, rfl⟩ | lexeme
  · exact (endAt_decoded p).decodable fun proper => absurd rfl proper
  · exact (ofToken_decoded lexeme).decodable fun _ => lexeme

theorem raw_decodable_development : Limits.development.Admissible ∧
    ∃ items, (Feed.raw (.ofText .development {} "0x1FL 2.5f'it''s'4294967296")).Gives items ∧
      (∀ token, .ok token ∈ items → Decodable token) ∧
      items.map (·.map fun token => (token.lexeme, ofToken token)) = [
        .ok ("0x1FL", .ok (.long 31)), .ok (" ", .error (.notALiteral .whitespace)),
        .ok ("2.5f", .ok (.float 0x40200000)), .ok ("'it''s'", .ok (.string "it's")),
        .ok ("4294967296", .error (.outOfRange "4294967296")),
        .ok ("", .error (.notALiteral .endOfInput))] := by
  obtain ⟨items, gives, decodable⟩ :=
    raw_decodable Limits.development_admissible {} "0x1FL 2.5f'it''s'4294967296"
  exact ⟨Limits.development_admissible, items, gives, decodable,
    gives.collected 7 (by decide +kernel)⟩

end Literal
end ExprLex
