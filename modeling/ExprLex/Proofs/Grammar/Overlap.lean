import ExprLex.Proofs.Grammar.Name
import ExprLex.Proofs.Grammar.Quotation
import ExprLex.Proofs.Grammar.Real

namespace ExprLex
open Computability Grammar

variable {kind other : Kind} {word run rest : List Char} {spelling : String}

def numberKind (rest : List Char) : Kind :=
  match rest.head? with
  | none => .integer
  | some c => if c ∈ longMarks then .integer else if c ∈ ['x', 'X'] then .hexInteger else .real

def patternKind : List Char → Option Kind
  | [] => none
  | c :: rest =>
      if c.isDigit then some (numberKind (rest.dropWhile Char.isDigit))
      else if c = '.' then if (rest.head?.any Char.isDigit) then some .real else none
      else if c = singleQuote then some .singleQuoted
      else if c = doubleQuote then some .doubleQuoted
      else if isSpace c then some .whitespace
      else if isNameStart c && rest.head? != some '(' then some .identifier
      else none

theorem dropWhile_run {p : Char → Prop} {f : Char → Bool} (agree : ∀ c, p c ↔ f c = true)
    (all : ∀ c ∈ run, p c) (stop : Breaks p rest) : (run ++ rest).dropWhile f = rest := by
  rw [List.dropWhile_append_of_pos fun c member => (agree c).mp (all c member)]
  cases rest with
  | nil => rfl
  | cons c rest => simp [← agree, breaks_cons.mp stop]

theorem patternKind_digits (member : run ∈ digits) (stop : Breaks Digit rest) :
    patternKind (run ++ rest) = some (numberKind rest) := by
  obtain ⟨nonempty, all⟩ := mem_digits.mp member
  obtain ⟨c, run, rfl⟩ := List.exists_cons_of_ne_nil nonempty
  obtain ⟨digit, all⟩ := List.forall_mem_cons.mp all
  rw [List.cons_append, patternKind, if_pos ((digit_iff c).mp digit),
    dropWhile_run digit_iff all stop]

theorem patternKind_integers (member : word ∈ integers) : patternKind word = some .integer := by
  obtain ⟨run, whole, mark, marked, rfl⟩ := Language.mem_mul.mp member
  rcases mem_optional.mp marked with rfl | ⟨c, (listed : c ∈ longMarks), rfl⟩
  · exact patternKind_digits whole breaks_nil
  · rw [patternKind_digits whole (breaks_cons.mpr (digit_not_long c listed))]
    simp [numberKind, listed]

theorem patternKind_hexIntegers (member : word ∈ hexIntegers) :
    patternKind word = some .hexInteger := by
  rw [hexIntegers_eq] at member
  obtain ⟨_, rfl, _, tail, rfl⟩ := Language.mem_mul.mp member
  obtain ⟨_, ⟨x, mark, rfl⟩, rest, -, rfl⟩ := Language.mem_mul.mp tail
  rcases List.mem_pair.mp mark with rfl | rfl <;> rfl

theorem numberKind_real {c : Char} (mark : c ∈ '.' :: exponentMarks ++ realMarks)
    (rest : List Char) : numberKind (c :: rest) = .real := by
  have apart : ∀ c ∈ '.' :: exponentMarks ++ realMarks, c ∉ longMarks ∧ c ∉ ['x', 'X'] :=
    forall_listed (by decide)
  obtain ⟨short, decimal⟩ := apart c mark
  simp only [numberKind, List.head?_cons, short, decimal, if_false]

theorem patternKind_pointed (member : word ∈ pointed) (rest : List Char) :
    patternKind (word ++ rest) = some .real := by
  rcases (Language.mem_add _ _ _).mp member with dotted | dotted
  · obtain ⟨_, rfl, run, whole, rfl⟩ := Language.mem_mul.mp dotted
    obtain ⟨nonempty, all⟩ := mem_digits.mp whole
    obtain ⟨c, run, rfl⟩ := List.exists_cons_of_ne_nil nonempty
    have digit := (digit_iff c).mp (all c List.mem_cons_self)
    have dot : '.'.isDigit = false := by decide
    simp [patternKind, digit, dot]
  · obtain ⟨_, first, part, -, rfl⟩ := Language.mem_mul.mp dotted
    obtain ⟨run, whole, _, rfl, rfl⟩ := Language.mem_mul.mp first
    rw [List.append_assoc, List.append_assoc, List.singleton_append,
      patternKind_digits whole (breaks_cons.mpr dot_not_digit), numberKind_real (by decide)]

theorem patternKind_reals (member : word ∈ reals) : patternKind word = some .real := by
  rcases mem_reals.mp member with member | member | member
  · obtain ⟨_, dotted, ending, -, rfl⟩ := Language.mem_mul.mp member
    exact patternKind_pointed dotted ending
  · obtain ⟨run, whole, _, powered, rfl⟩ := Language.mem_mul.mp member
    obtain ⟨power, powerMember, mark, -, rfl⟩ := Language.mem_mul.mp powered
    obtain ⟨e, tail, equal, listed⟩ := not_breaks_iff.mp (exponent_begins powerMember mark)
    rw [equal, patternKind_digits whole (breaks_cons.mpr (exponentMark_apart e listed).2.2),
      numberKind_real (by simp [listed])]
  · obtain ⟨run, whole, _, ⟨c, listed, rfl⟩, rfl⟩ := Language.mem_mul.mp member
    rw [patternKind_digits whole (breaks_cons.mpr (realMark_apart c listed).2.2),
      numberKind_real (List.mem_append_right _ listed)]

theorem nameStart_apart {c : Char} (start : isNameStart c = true) :
    c.isDigit = false ∧ c ≠ '.' ∧ c ≠ singleQuote ∧ c ≠ doubleQuote ∧ isSpace c = false := by
  have digitless : c.isDigit = false := by
    by_contra digit
    obtain ⟨-, high⟩ := (digit_iff c).mpr (Bool.eq_true_of_not_eq_false digit)
    rcases (nameStart_iff c).mpr start with (upper | lower) | rfl
    · exact absurd (Char.le_trans upper.1 high) (by decide)
    · exact absurd (Char.le_trans lower.1 high) (by decide)
    · exact absurd high (by decide)
  refine ⟨digitless, ?_, ?_, ?_, ?_⟩
  · rintro rfl
    cases start
  · rintro rfl
    cases start
  · rintro rfl
    cases start
  · by_contra spaced
    have listed := (space_iff c).mpr (Bool.eq_true_of_not_eq_false spaced)
    simp only [List.mem_cons, List.not_mem_nil, or_false] at listed
    rcases listed with rfl | rfl | rfl | rfl <;> cases start

theorem patternKind_identifiers (member : word ∈ identifiers) :
    patternKind word = some .identifier := by
  obtain ⟨_, ⟨c, start, rfl⟩, parts, partsMember, rfl⟩ := Language.mem_mul.mp member
  have started := (nameStart_iff c).mp start
  obtain ⟨digitless, undotted, unquoted, undoubled, unspaced⟩ := nameStart_apart started
  have unopened : parts.head? ≠ some '(' := by
    rcases mem_nameParts.mp partsMember with rfl | ⟨d, rest, accepted, -, rfl⟩ | ⟨rest, -, rfl⟩
    · simp
    · rw [List.head?_cons, Ne, Option.some.injEq]
      rintro rfl
      exact absurd accepted (by decide)
    · simp
  simp [patternKind, digitless, undotted, unquoted, undoubled, unspaced, started, unopened]

theorem patternKind_blanks (member : word ∈ blanks) : patternKind word = some .whitespace := by
  obtain ⟨nonempty, all⟩ := mem_many_oneOf.mp member
  obtain ⟨c, word, rfl⟩ := List.exists_cons_of_ne_nil nonempty
  have listed := all c List.mem_cons_self
  simp only [List.mem_cons, List.not_mem_nil, or_false] at listed
  rcases listed with rfl | rfl | rfl | rfl <;> rfl

theorem exists_quote {quote : Char} {doubling : Bool} (member : word ∈ strings quote doubling) :
    ∃ rest, word = quote :: rest := by
  obtain ⟨_, opened, rest, -, rfl⟩ := Language.mem_mul.mp member
  obtain ⟨_, rfl, body, -, rfl⟩ := Language.mem_mul.mp opened
  exact ⟨body ++ rest, by simp⟩

theorem patternKind_of_mem (free : kind.fixedText = none) (member : word ∈ kind.language) :
    patternKind word = some kind := by
  cases kind
  case integer => exact patternKind_integers member
  case hexInteger => exact patternKind_hexIntegers member
  case real => exact patternKind_reals member
  case identifier => exact patternKind_identifiers member
  case whitespace => exact patternKind_blanks member
  case singleQuoted =>
    obtain ⟨rest, rfl⟩ := exists_quote member
    rfl
  case doubleQuoted =>
    obtain ⟨rest, rfl⟩ := exists_quote member
    rfl
  case endOfInput => exact absurd member (Language.notMem_zero word)
  all_goals cases free

theorem language_fixed (fixed : kind.fixedText = some spelling) :
    kind.language = just spelling.toList := by
  cases kind <;> cases fixed <;> rfl

theorem fixedText_find (fixed : kind.fixedText = some spelling) :
    Kind.all.find? (fun other => other.fixedText == some spelling) = some kind := by
  cases kind <;> cases fixed <;> rfl

theorem fixedText_injective (fixed : kind.fixedText = some spelling)
    (same : other.fixedText = some spelling) : kind = other :=
  Option.some.inj ((fixedText_find fixed).symm.trans (fixedText_find same))

theorem patternKind_fixed (fixed : kind.fixedText = some spelling)
    (shared : patternKind spelling.toList = some other) :
    kind.isReserved = true ∧ other = .identifier := by
  cases kind <;> cases fixed <;> cases shared
  all_goals exact ⟨rfl, rfl⟩

/-- Two kinds share only the reserved words, and these with identifiers. -/
theorem language_overlap (different : kind ≠ other) (member : word ∈ kind.language)
    (shared : word ∈ other.language) : kind.isReserved = true ∧ other = .identifier ∨
      other.isReserved = true ∧ kind = .identifier := by
  cases fixed : kind.fixedText with
  | none =>
      have pattern := patternKind_of_mem fixed member
      cases fixedOther : other.fixedText with
      | none =>
          have patternOther := patternKind_of_mem fixedOther shared
          exact absurd (Option.some.inj (pattern.symm.trans patternOther)) different
      | some spelling =>
          rw [language_fixed fixedOther, mem_just] at shared
          subst shared
          exact .inr (patternKind_fixed fixedOther pattern)
  | some spelling =>
      rw [language_fixed fixed, mem_just] at member
      subst member
      cases fixedOther : other.fixedText with
      | none => exact .inl (patternKind_fixed fixed (patternKind_of_mem fixedOther shared))
      | some spellingOther =>
          rw [language_fixed fixedOther, mem_just, String.toList_inj] at shared
          subst shared
          exact absurd (fixedText_injective fixed fixedOther) different

end ExprLex
