import ExprLex.Proofs.Grammar.Flaw

namespace ExprLex
open Computability Grammar Rule

variable {kind : Kind} {text word rest : List Char} {reason : String} {quote : Char}

namespace Grammar

/-- Whether a text begins neither with a lexeme nor with a quote. -/
def Foreign (text : List Char) : Prop :=
  (∀ (kind : Kind) (word : List Char), word <+: text → word ∉ kind.language) ∧
    Breaks (· ∈ ['\x27', '"']) text

theorem digit_mem_integers {c : Char} (digit : Digit c) : [c] ∈ Kind.integer.language := by
  have whole : [c] ∈ digits := mem_digits.mpr ⟨by simp, by simpa using digit⟩
  exact Language.append_mem_mul whole (mem_optional.mpr (.inl rfl))

theorem Malformed.head (malformed : Malformed text word reason) :
    ∃ c rest, text = c :: rest ∧ (Digit c ∨ c = '.') := by
  have digits_head {run rest : List Char} (member : run ∈ digits) :
      ∃ c tail, run ++ rest = c :: tail ∧ (Digit c ∨ c = '.') := by
    obtain ⟨nonempty, all⟩ := mem_digits.mp member
    obtain ⟨c, run, rfl⟩ := List.exists_cons_of_ne_nil nonempty
    exact ⟨c, run ++ rest, rfl, .inl (all c List.mem_cons_self)⟩
  cases malformed with
  | hexDigits mark stop => exact ⟨'0', _, rfl, .inl (by simp [digit_iff])⟩
  | fraction member stop => exact digits_head member
  | exponent member mark signed taken stop =>
      rcases (Language.mem_add _ _ _).mp member with whole | dotted
      · exact digits_head whole
      · rcases (Language.mem_add _ _ _).mp dotted with dotted | dotted
        · obtain ⟨_, rfl, part, -, rfl⟩ := Language.mem_mul.mp dotted
          exact ⟨'.', _, rfl, .inr rfl⟩
        · obtain ⟨_, first, part, -, rfl⟩ := Language.mem_mul.mp dotted
          obtain ⟨run, whole, _, rfl, rfl⟩ := Language.mem_mul.mp first
          simp only [List.append_assoc]
          exact digits_head whole

theorem Malformed.not_foreign (malformed : Malformed text word reason) : ¬ Foreign text := by
  rintro ⟨wordless, -⟩
  obtain ⟨c, rest, rfl, digit | rfl⟩ := malformed.head
  · exact wordless .integer [c] ⟨rest, rfl⟩ (digit_mem_integers digit)
  · exact wordless .dot ['.'] ⟨rest, rfl⟩ rfl

theorem Unclosed.not_foreign (unclosed : Unclosed text word quote) : ¬ Foreign text := by
  rintro ⟨-, unquoted⟩
  obtain ⟨listed, rest, rfl⟩ := unclosed.head
  exact breaks_cons.mp unquoted listed

theorem opens_alone {c : Char} (opened : kind.opens c = true) (plain : c ≠ '\\') :
    (∃ kind : Kind, [c] ∈ kind.language) ∨ c ∈ ['\x27', '"'] := by
  have identifier (start : isNameStart c = true) : ∃ kind : Kind, [c] ∈ kind.language :=
    ⟨.identifier, Language.append_mem_mul (a := [c]) ⟨c, (nameStart_iff c).mpr start, rfl⟩
      (Language.nil_mem_kstar _)⟩
  have integer (digit : c.isDigit = true) : ∃ kind : Kind, [c] ∈ kind.language :=
    ⟨.integer, digit_mem_integers ((digit_iff c).mpr digit)⟩
  cases fixed : kind.fixedText with
  | some spelling =>
      have apart : ∀ c ∈ heads, c = '\\' ∨ isNameStart c = true ∨
          ∃ kind ∈ Kind.all, kind.fixedText = some (String.ofList [c]) := forall_listed (by decide)
      rcases apart c (mem_heads fixed opened) with rfl | start | ⟨kind, -, alone⟩
      · exact absurd rfl plain
      · exact .inl (identifier start)
      · refine .inl ⟨kind, ?_⟩
        rw [language_fixed alone, mem_just, String.toList_ofList]
  | none =>
      cases kind
      case integer => exact .inl (integer opened)
      case hexInteger =>
        obtain rfl := beq_iff_eq.mp opened
        exact .inl (integer rfl)
      case real =>
        rcases (Bool.or_eq_true _ _).mp opened with digit | dot
        · exact .inl (integer digit)
        · obtain rfl := beq_iff_eq.mp dot
          exact .inl ⟨.dot, rfl⟩
      case singleQuoted =>
        obtain rfl := beq_iff_eq.mp opened
        exact .inr (by decide)
      case doubleQuoted =>
        obtain rfl := beq_iff_eq.mp opened
        exact .inr (by decide)
      case identifier => exact .inl (identifier opened)
      case whitespace =>
        refine .inl ⟨.whitespace, mem_many_oneOf.mpr ⟨by simp, ?_⟩⟩
        exact List.forall_mem_singleton.mpr ((space_iff c).mpr opened)
      case endOfInput => cases opened
      all_goals cases fixed

theorem foreign_iff {c : Char} : Foreign (c :: rest) ↔
    (∀ kind : Kind, kind.opens c = false) ∨ c = '\\' ∧ rest.head? ≠ some '.' := by
  constructor
  · rintro ⟨wordless, unquoted⟩
    by_cases plain : c = '\\'
    · subst plain
      refine .inr ⟨rfl, fun dot => ?_⟩
      obtain ⟨rest, rfl⟩ := List.head?_eq_some_iff.mp dot
      exact wordless .escapedDot ['\\', '.'] ⟨rest, rfl⟩ rfl
    · refine .inl fun kind => Bool.eq_false_iff.mpr fun opened => ?_
      rcases opens_alone opened plain with ⟨kind, member⟩ | quoted
      · exact wordless kind [c] ⟨rest, rfl⟩ member
      · exact breaks_cons.mp unquoted quoted
  · rintro (unopened | ⟨rfl, undotted⟩)
    · constructor
      · intro kind word begins member
        obtain ⟨d, tail, rfl, opened⟩ := opens_of_mem member
        obtain ⟨rfl, -⟩ := List.cons_prefix_cons.mp begins
        rw [unopened kind] at opened
        cases opened
      · rw [breaks_cons]
        intro quoted
        rcases List.mem_pair.mp quoted with rfl | rfl
        · cases unopened .singleQuoted
        · cases unopened .doubleQuoted
    · constructor
      · intro kind word begins member
        obtain ⟨d, tail, rfl, opened⟩ := opens_of_mem member
        obtain ⟨rfl, follows⟩ := List.cons_prefix_cons.mp begins
        have escaped : kind = .escapedDot := by
          cases kind <;> cases opened
          rfl
        subst escaped
        have same : '\\' :: tail = ['\\', '.'] := member
        obtain ⟨-, rfl⟩ := List.cons.inj same
        obtain ⟨more, rfl⟩ := follows
        exact undotted rfl
      · rw [breaks_cons]
        decide

end Grammar

namespace Rule

theorem choice_quote (quoted : ¬ Breaks (· ∈ ['\x27', '"']) text) : choice text ≠ none := by
  intro nothing
  have empty := select_eq_none.mp (choice_eq_none.mp nothing)
  obtain ⟨c, rest, rfl, listed⟩ := not_breaks_iff.mp quoted
  rcases List.mem_pair.mp listed with rfl | rfl
  · have positive := le_quotedFrom true .singleQuoted (by decide : singleQuote ≠ unquotable) rest 1
    rw [empty .singleQuoted _ (by decide) rfl] at positive
    exact absurd positive (by decide)
  · have positive := le_quotedFrom false .doubleQuoted (by decide : doubleQuote ≠ unquotable) rest 1
    rw [empty .doubleQuoted _ (by decide) rfl] at positive
    exact absurd positive (by decide)

theorem choice_eq_none_iff : choice text = none ↔ Foreign text := by
  constructor
  · intro nothing
    refine ⟨fun kind word begins member => ?_, ?_⟩
    · obtain ⟨c, rest, rfl, -⟩ := opens_of_mem member
      exact select_eq_none_lexeme (choice_eq_none.mp nothing) begins (List.cons_ne_nil c rest) member
    · by_contra quoted
      exact choice_quote quoted nothing
  · intro foreign
    cases chosen : choice text with
    | none => rfl
    | some proposal =>
        exfalso
        cases proposal with
        | accept length kind =>
            obtain ⟨word, rest, rfl, member, -, -⟩ := choice_lexeme chosen
            exact foreign.1 kind word ⟨rest, rfl⟩ member
        | reject length flaw =>
            rcases flaw_of_choice chosen with ⟨-, word, reason, malformed, -⟩ |
              ⟨-, word, quote, unclosed, -⟩
            · exact malformed.not_foreign foreign
            · exact unclosed.not_foreign foreign

end Rule
end ExprLex
