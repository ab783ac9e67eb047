import ExprLex.Proofs.Grammar.Matching

namespace ExprLex
open Grammar

variable {kind other : Kind} {text word rest : List Char} {c : Char} {spelling : String}
  {proposal : Proposal}

def Kind.opens (kind : Kind) (c : Char) : Bool :=
  match kind with
  | .integer => c.isDigit
  | .hexInteger => c == '0'
  | .real => c.isDigit || c == '.'
  | .singleQuoted => c == singleQuote
  | .doubleQuoted => c == doubleQuote
  | .identifier => isNameStart c
  | .whitespace => isSpace c
  | kind => kind.fixedText.any fun text => text.toList.head? == some c

namespace Grammar

theorem opens_integer (proposed : integer text = some proposal) :
    ∃ c rest, text = c :: rest ∧ Kind.integer.opens c = true := by
  rw [integer_eq] at proposed
  split at proposed
  · cases proposed
  · rename_i begun
    rw [digitCount_eq_zero digit_iff] at begun
    obtain ⟨c, rest, rfl, digit⟩ := not_breaks_iff.mp begun
    exact ⟨c, rest, rfl, (digit_iff c).mp digit⟩

theorem opens_real (proposed : real text = some proposal) :
    ∃ c rest, text = c :: rest ∧ Kind.real.opens c = true := by
  by_cases stop : Breaks Digit text
  · by_cases undotted : Breaks (· = '.') text
    · rw [real_breaks stop undotted] at proposed
      cases proposed
    · obtain ⟨c, rest, rfl, dot⟩ := not_breaks_iff.mp undotted
      exact ⟨c, rest, rfl, by simp [Kind.opens, dot]⟩
  · obtain ⟨c, rest, rfl, digit⟩ := not_breaks_iff.mp stop
    exact ⟨c, rest, rfl, by simp [Kind.opens, (digit_iff c).mp digit]⟩

theorem opens_quoted {quote : Char} {doubling : Bool}
    (proposed : quoted quote doubling kind text = some proposal) :
    ∃ c rest, text = c :: rest ∧ (c == quote) = true := by
  cases text with
  | nil => cases proposed
  | cons c rest =>
      rw [quoted] at proposed
      split at proposed
      · rename_i same
        exact ⟨c, rest, rfl, beq_iff_eq.mpr same⟩
      · cases proposed

theorem opens_identifier (proposed : identifier text = some proposal) :
    ∃ c rest, text = c :: rest ∧ Kind.identifier.opens c = true := by
  cases text with
  | nil => cases proposed
  | cons c rest =>
      rw [identifier] at proposed
      split at proposed
      · rename_i start
        exact ⟨c, rest, rfl, start⟩
      · cases proposed

theorem opens_whitespace (proposed : whitespace text = some proposal) :
    ∃ c rest, text = c :: rest ∧ Kind.whitespace.opens c = true := by
  cases text with
  | nil => cases proposed
  | cons c rest =>
      cases spaced : isSpace c with
      | true => exact ⟨c, rest, rfl, spaced⟩
      | false => simp [whitespace, spaced] at proposed

end Grammar

namespace Rule

theorem opens_fixed (fixed : kind.fixedText = some spelling) (c : Char) :
    spelling.toList ≠ [] ∧ kind.opens c = (spelling.toList.head? == some c) := by
  cases kind <;> cases fixed
  all_goals exact ⟨by decide, rfl⟩

theorem opens_of_propose (proposed : (ofKind kind).propose text = some proposal) :
    ∃ c rest, text = c :: rest ∧ kind.opens c = true := by
  cases fixed : kind.fixedText with
  | some spelling =>
      rw [ofKind_propose fixed, spelled] at proposed
      split at proposed
      · rename_i begun
        obtain ⟨rest, rfl⟩ := List.isPrefixOf_iff_prefix.mp begun
        obtain ⟨c, tail, equal⟩ := List.exists_cons_of_ne_nil (opens_fixed fixed 'a').1
        refine ⟨c, tail ++ rest, by rw [equal, List.cons_append], ?_⟩
        rw [(opens_fixed fixed c).2, equal]
        exact beq_self_eq_true _
      · cases proposed
  | none =>
      cases kind
      case integer => exact opens_integer proposed
      case hexInteger =>
        obtain ⟨x, rest, -, rfl⟩ := hexInteger_marked_of_some proposed
        exact ⟨'0', x :: rest, rfl, rfl⟩
      case real => exact opens_real proposed
      case singleQuoted => exact opens_quoted proposed
      case doubleQuoted => exact opens_quoted proposed
      case identifier => exact opens_identifier proposed
      case whitespace => exact opens_whitespace proposed
      case endOfInput => cases proposed
      all_goals cases fixed

theorem opens_of_mem (member : word ∈ kind.language) :
    ∃ c rest, word = c :: rest ∧ kind.opens c = true := by
  obtain ⟨-, proposal, -, proposed, -⟩ := exists_proposal member []
  rw [List.append_nil] at proposed
  exact opens_of_propose proposed

def heads : List Char := Kind.all.filterMap fun kind => kind.fixedText.bind (·.toList.head?)

theorem mem_all (kind : Kind) : kind ∈ Kind.all := by
  cases kind <;> decide

theorem mem_heads (fixed : kind.fixedText = some spelling) (opened : kind.opens c = true) :
    c ∈ heads := by
  rw [(opens_fixed fixed c).2, beq_iff_eq] at opened
  refine List.mem_filterMap.mpr ⟨kind, mem_all kind, ?_⟩
  rw [fixed]
  exact opened

theorem opens_digit (digit : c.isDigit = true) (opened : kind.opens c = true) :
    kind = .integer ∨ kind = .hexInteger ∨ kind = .real := by
  cases fixed : kind.fixedText with
  | some spelling =>
      have apart : ∀ c ∈ heads, c.isDigit = false := forall_listed (by decide)
      rw [apart c (mem_heads fixed opened)] at digit
      cases digit
  | none =>
      cases kind
      case integer => exact .inl rfl
      case hexInteger => exact .inr (.inl rfl)
      case real => exact .inr (.inr rfl)
      case singleQuoted =>
        obtain rfl := beq_iff_eq.mp opened
        cases digit
      case doubleQuoted =>
        obtain rfl := beq_iff_eq.mp opened
        cases digit
      case identifier =>
        rw [(nameStart_apart opened).1] at digit
        cases digit
      case whitespace =>
        have apart : ∀ c ∈ [' ', '\t', '\n', '\r'], c.isDigit = false :=
          forall_listed (by decide)
        rw [apart c ((space_iff c).mpr opened)] at digit
        cases digit
      case endOfInput => cases opened
      all_goals cases fixed

theorem opens_dot (opened : kind.opens '.' = true) :
    kind = .dot ∨ kind = .range ∨ kind = .real := by
  cases kind <;> cases opened
  all_goals simp

theorem opens_single (opened : kind.opens singleQuote = true) : kind = .singleQuoted := by
  cases kind <;> cases opened
  rfl

theorem opens_double (opened : kind.opens doubleQuote = true) : kind = .doubleQuoted := by
  cases kind <;> cases opened
  rfl

theorem opens_space (spaced : isSpace c = true) (opened : kind.opens c = true) :
    kind = .whitespace := by
  have listed := (space_iff c).mpr spaced
  simp only [List.mem_cons, List.not_mem_nil, or_false] at listed
  rcases listed with rfl | rfl | rfl | rfl
  all_goals
    cases kind <;> cases opened
    rfl

theorem opens_name (start : isNameStart c = true) (opened : kind.opens c = true) :
    kind = .identifier ∨ kind.isReserved = true ∨ kind = .typeOpen := by
  obtain ⟨digitless, undotted, unquoted, undoubled, unspaced⟩ := nameStart_apart start
  cases fixed : kind.fixedText with
  | some spelling =>
      have named : ∀ kind ∈ Kind.all,
          (kind.fixedText.bind (·.toList.head?)).any isNameStart = true →
            kind.isReserved = true ∨ kind = .typeOpen := by decide
      rw [(opens_fixed fixed c).2, beq_iff_eq] at opened
      exact .inr (named kind (mem_all kind) (by simp [fixed, opened, start]))
  | none =>
      cases kind
      case identifier => exact .inl rfl
      case integer => simp [Kind.opens, digitless] at opened
      case hexInteger =>
        obtain rfl := beq_iff_eq.mp opened
        cases start
      case real => simp [Kind.opens, digitless, undotted] at opened
      case singleQuoted => exact absurd (beq_iff_eq.mp opened) unquoted
      case doubleQuoted => exact absurd (beq_iff_eq.mp opened) undoubled
      case whitespace =>
        rw [Kind.opens, unspaced] at opened
        cases opened
      case endOfInput => cases opened
      all_goals cases fixed

theorem choice_alone (alone : ∀ other : Kind, other.opens c = true → other = kind)
    (proposed : (ofKind kind).propose (c :: rest) = some proposal)
    (positive : 0 < proposal.length) : choice (c :: rest) = some proposal := by
  have proper : kind ≠ .endOfInput := by
    rintro rfl
    cases proposed
  refine choice_of_longer proper proposed positive ?_
  intro other shorter different offered
  obtain ⟨_, _, equal, opened⟩ := opens_of_propose offered
  cases equal
  exact absurd (alone other opened) different

end Rule
end ExprLex
