import ExprLex.Proofs.Grammar.Opening
import ExprLex.Scan.Problem

namespace ExprLex
open Computability Grammar Rule

variable {kind : Kind} {text word rest run mantissa : List Char} {proposal : Proposal}
  {length : Nat} {flaw : Flaw} {reason : String} {quote : Char}

namespace Grammar

def mantissas : Language Char := digits + pointed

/-- A number in front of a text that lacks what has to follow: the part of it that is there, and the
reason why it is no number. -/
inductive Malformed : (text word : List Char) → (reason : String) → Prop
  | hexDigits {x : Char} {rest : List Char} (mark : x ∈ ['x', 'X']) (stop : Breaks HexDigit rest) :
      Malformed ('0' :: x :: rest) ['0', x] "hexadecimal prefix has no digits"
  | fraction {run rest : List Char} (member : run ∈ digits)
      (stop : Breaks (fun c => Digit c ∨ c = '.') rest) :
      Malformed (run ++ '.' :: rest) (run ++ ['.']) "decimal point has no fraction digits"
  | exponent {mantissa sign rest : List Char} {e : Char} (member : mantissa ∈ mantissas)
      (mark : e ∈ ['E', 'e']) (signed : sign ∈ optional (oneOf (· ∈ ['+', '-'])))
      (taken : sign = [] → Breaks (· ∈ ['+', '-']) rest) (stop : Breaks Digit rest) :
      Malformed (mantissa ++ e :: (sign ++ rest)) (mantissa ++ e :: sign) "exponent has no digits"

/-- A string in front of a text that is not closed before the text ends or a U+FFFF stands in the
way: the part of it that is there, and its quote. -/
inductive Unclosed : (text word : List Char) → (quote : Char) → Prop
  | single {body rest : List Char} (member : body ∈ (stringPart '\x27' true)∗)
      (barred : rest = [] ∨ rest.head? = some '\uffff') :
      Unclosed ('\x27' :: (body ++ rest)) ('\x27' :: body) '\x27'
  | double {body rest : List Char} (member : body ∈ (stringPart '"' false)∗)
      (barred : rest = [] ∨ rest.head? = some '\uffff') :
      Unclosed ('"' :: (body ++ rest)) ('"' :: body) '"'

theorem integer_run (member : run ∈ digits) (stop : Breaks Digit rest)
    (short : Breaks (· ∈ longMarks) rest) :
    integer (run ++ rest) = some (.accept run.length .integer) := by
  have nonempty := (mem_digits.mp member).1
  rw [integer_eq, digitCount_mem member stop, if_neg (by simpa using nonempty),
    markedLength_run digit_iff (mem_digits.mp member).2 stop, markLength_breaks short, Nat.add_zero]

theorem hexInteger_decimal (member : run ∈ digits) (decimal : Breaks (· ∈ ['x', 'X']) rest) :
    hexInteger (run ++ rest) = none := by
  cases proposed : hexInteger (run ++ rest) with
  | none => rfl
  | some proposal =>
      obtain ⟨x, tail, mark, equal⟩ := hexInteger_marked_of_some proposed
      obtain ⟨nonempty, all⟩ := mem_digits.mp member
      obtain ⟨c, run, rfl⟩ := List.exists_cons_of_ne_nil nonempty
      cases run with
      | nil =>
          cases equal
          exact absurd mark (breaks_cons.mp decimal)
      | cons d run =>
          cases equal
          have digit := (digit_iff x).mp (all x (by simp))
          rcases List.mem_pair.mp mark with rfl | rfl <;> cases digit

theorem finishReal_reject
    (rejected : finishReal (mantissa ++ rest) mantissa.length = .reject length flaw) :
    flaw = .malformedNumber ∧ ∃ e sign more, rest = e :: (sign ++ more) ∧ e ∈ exponentMarks ∧
      Marked signs sign more ∧ Breaks Digit more ∧
      length = mantissa.length + (1 + sign.length) := by
  by_cases powerless : Breaks (· ∈ exponentMarks) rest
  · rw [finishReal_absent powerless] at rejected
    cases rejected
  · rcases exponent_begun powerless with ⟨_, _, _, _, found⟩ |
      ⟨e, sign, more, rfl, mark, signed, stop, found⟩
    · rw [finishReal_complete found] at rejected
      cases rejected
    · rw [finishReal_cutShort found] at rejected
      cases rejected
      exact ⟨rfl, e, sign, more, rfl, mark, signed, stop, rfl⟩

theorem finishReal_cut {e : Char} {sign : List Char} (mantissa : List Char)
    (mark : e ∈ exponentMarks) (signed : Marked signs sign rest) (stop : Breaks Digit rest) :
    finishReal (mantissa ++ e :: (sign ++ rest)) mantissa.length =
      .reject (mantissa ++ e :: sign).length .malformedNumber := by
  have opened := exponent_opened mark signed
  rw [if_pos ((digitCount_eq_zero digit_iff).mpr stop)] at opened
  rw [finishReal_cutShort opened, List.length_append, List.length_cons, Nat.add_comm 1]

theorem malformed_of_real (proposed : real text = some (.reject length flaw)) :
    flaw = .malformedNumber ∧ ∃ word reason, Malformed text word reason ∧ word.length = length := by
  generalize equal : Proposal.reject length flaw = proposal at proposed
  have behind {mantissa rest : List Char} (member : mantissa ∈ mantissas)
      (rejected : .reject length flaw = finishReal (mantissa ++ rest) mantissa.length) :
      flaw = .malformedNumber ∧ ∃ word reason, Malformed (mantissa ++ rest) word reason ∧
        word.length = length := by
    obtain ⟨rfl, e, sign, more, rfl, mark, signed, stop, rfl⟩ := finishReal_reject rejected.symm
    refine ⟨rfl, _, _, .exponent member mark signed.1 signed.2 stop, ?_⟩
    rw [List.length_append, List.length_cons, Nat.add_comm 1]
  cases real_eq_some.mp proposed with
  | pointed member stop => exact behind (.inr member) equal
  | powered member begun => exact behind (.inl member) equal
  | marked member mark => cases equal
  | bare member stop =>
      cases equal
      exact ⟨rfl, _, _, .fraction member stop, by simp⟩

theorem malformed_of_hexInteger (proposed : hexInteger text = some (.reject length flaw)) :
    flaw = .malformedNumber ∧ ∃ word reason, Malformed text word reason ∧ word.length = length := by
  obtain ⟨x, rest, mark, rfl⟩ := hexInteger_marked_of_some proposed
  rw [hexInteger_marked mark] at proposed
  split at proposed
  · rename_i none
    cases proposed
    exact ⟨rfl, _, _, .hexDigits mark ((digitCount_eq_zero hexDigit_iff).mp none), rfl⟩
  · cases proposed

theorem Malformed.begins (malformed : Malformed text word reason) : word <+: text := by
  cases malformed with
  | @hexDigits x rest => exact ⟨rest, rfl⟩
  | @fraction run rest => exact ⟨rest, by simp⟩
  | @exponent mantissa sign rest e => exact ⟨rest, by simp⟩

theorem Malformed.reason_eq (malformed : Malformed text word reason) :
    (NumberGap.ofText word).reason = reason := by
  cases malformed with
  | hexDigits mark stop => rcases List.mem_pair.mp mark with rfl | rfl <;> rfl
  | fraction member stop => simp [NumberGap.ofText, NumberGap.reason]
  | @exponent mantissa sign rest e member mark signed taken stop =>
      have last : ∃ c ∈ ['E', 'e', '+', '-'], (mantissa ++ e :: sign).getLast? = some c := by
        rcases mem_optional.mp signed with rfl | ⟨c, listed, rfl⟩
        · exact ⟨e, List.mem_append_left _ mark, by simp⟩
        · exact ⟨c, List.mem_append_right ['E', 'e'] listed, by simp⟩
      obtain ⟨c, listed, found⟩ := last
      rw [NumberGap.ofText, found]
      simp only [List.mem_cons, List.not_mem_nil, or_false] at listed
      rcases listed with rfl | rfl | rfl | rfl <;> rfl

theorem unclosed_of_quoted {doubling : Bool} (proper : quote ≠ unquotable)
    (proposed : quoted quote doubling kind text = some (.reject length flaw)) :
    flaw = .unterminatedString ∧ ∃ body rest, text = quote :: (body ++ rest) ∧
      body ∈ (stringPart quote doubling)∗ ∧ (rest = [] ∨ rest.head? = some unquotable) ∧
      length = (quote :: body).length := by
  cases text with
  | nil => cases proposed
  | cons c text =>
      rw [quoted] at proposed
      split at proposed
      · rename_i opened
        subst opened
        obtain ⟨body, rest, rfl, member, closing⟩ := exists_body c doubling text
        rw [quotedFrom_body proper member] at proposed
        cases closing with
        | ended =>
            cases proposed
            exact ⟨rfl, body, [], rfl, member, .inl rfl, Nat.add_comm ..⟩
        | @barred rest =>
            rw [quotedFrom_barred] at proposed
            cases proposed
            exact ⟨rfl, body, unquotable :: rest, rfl, member, .inr rfl, Nat.add_comm ..⟩
        | closed single =>
            rw [quotedFrom_close proper single] at proposed
            cases proposed
      · cases proposed

theorem quoted_unclosed {doubling : Bool} {body : List Char} (proper : quote ≠ unquotable)
    (kind : Kind) (member : body ∈ (stringPart quote doubling)∗)
    (barred : rest = [] ∨ rest.head? = some unquotable) :
    quoted quote doubling kind (quote :: (body ++ rest)) =
      some (.reject (quote :: body).length .unterminatedString) := by
  rw [quoted, if_pos rfl, quotedFrom_body proper member, List.length_cons, Nat.add_comm]
  rcases barred with rfl | barred
  · rfl
  · cases rest with
    | nil => cases barred
    | cons c rest =>
        obtain rfl := Option.some.inj barred
        rw [quotedFrom_barred]

theorem Unclosed.head (unclosed : Unclosed text word quote) :
    quote ∈ ['\x27', '"'] ∧ ∃ rest, text = quote :: rest := by
  cases unclosed <;> exact ⟨by simp, _, rfl⟩

theorem Unclosed.begins (unclosed : Unclosed text word quote) : word <+: text := by
  cases unclosed with
  | @single body rest => exact ⟨rest, rfl⟩
  | @double body rest => exact ⟨rest, rfl⟩

end Grammar

namespace Rule

theorem kind_of_reject (proposed : (ofKind kind).propose text = some (.reject length flaw)) :
    kind = .hexInteger ∨ kind = .real ∨ kind = .singleQuoted ∨ kind = .doubleQuoted := by
  cases fixed : kind.fixedText with
  | some spelling =>
      rw [ofKind_propose fixed, spelled] at proposed
      split at proposed <;> cases proposed
  | none =>
      cases kind
      case hexInteger => exact .inl rfl
      case real => exact .inr (.inl rfl)
      case singleQuoted => exact .inr (.inr (.inl rfl))
      case doubleQuoted => exact .inr (.inr (.inr rfl))
      case integer =>
        change integer text = _ at proposed
        rw [integer_eq] at proposed
        split at proposed <;> cases proposed
      case identifier =>
        cases text with
        | nil => cases proposed
        | cons c text =>
            change identifier (c :: text) = _ at proposed
            rw [identifier] at proposed
            split at proposed <;> cases proposed
      case whitespace =>
        change whitespace text = _ at proposed
        rw [whitespace] at proposed
        split at proposed <;> cases proposed
      case endOfInput => cases proposed
      all_goals cases fixed

theorem flaw_of_propose (proposed : (ofKind kind).propose text = some (.reject length flaw)) :
    (flaw = .malformedNumber ∧ ∃ word reason, Malformed text word reason ∧ word.length = length) ∨
      flaw = .unterminatedString ∧
        ∃ word quote, Unclosed text word quote ∧ word.length = length := by
  rcases kind_of_reject proposed with rfl | rfl | rfl | rfl
  · exact .inl (malformed_of_hexInteger proposed)
  · exact .inl (malformed_of_real proposed)
  · obtain ⟨rfl, body, rest, rfl, member, barred, rfl⟩ := unclosed_of_quoted (by decide) proposed
    exact .inr ⟨rfl, _, _, .single member barred, rfl⟩
  · obtain ⟨rfl, body, rest, rfl, member, barred, rfl⟩ := unclosed_of_quoted (by decide) proposed
    exact .inr ⟨rfl, _, _, .double member barred, rfl⟩

theorem flaw_of_choice (chosen : choice text = some (.reject length flaw)) :
    (flaw = .malformedNumber ∧ ∃ word reason, Malformed text word reason ∧ word.length = length) ∨
      flaw = .unterminatedString ∧
        ∃ word quote, Unclosed text word quote ∧ word.length = length := by
  obtain ⟨selection, kind, same, selected⟩ := choice_selected chosen
  exact flaw_of_propose (same ▸ selected.proposed)

theorem choice_real (member : run ∈ digits) (stop : Breaks Digit rest)
    (short : Breaks (· ∈ longMarks) rest) (decimal : Breaks (· ∈ ['x', 'X']) rest)
    (proposed : real (run ++ rest) = some proposal) (longer : run.length < proposal.length) :
    choice (run ++ rest) = some proposal := by
  have proper : Kind.real ≠ .endOfInput := by decide
  refine choice_of_longer proper proposed (Nat.zero_lt_of_lt longer) ?_
  intro other shorter different offered
  obtain ⟨nonempty, all⟩ := mem_digits.mp member
  obtain ⟨c, rest', equal, opened⟩ := opens_of_propose offered
  have digit : c.isDigit = true := by
    obtain ⟨d, run, rfl⟩ := List.exists_cons_of_ne_nil nonempty
    cases equal
    exact (digit_iff _).mp (all _ List.mem_cons_self)
  rcases opens_digit digit opened with rfl | rfl | rfl
  · cases offered.symm.trans (integer_run member stop short)
    exact longer
  · cases offered.symm.trans (hexInteger_decimal member decimal)
  · contradiction

theorem choice_fraction {c : Char} (digit : c.isDigit = true)
    (proposed : real ('.' :: c :: rest) = some proposal) (longer : 1 < proposal.length) :
    choice ('.' :: c :: rest) = some proposal := by
  have proper : Kind.real ≠ .endOfInput := by decide
  refine choice_of_longer proper proposed (Nat.zero_lt_of_lt longer) ?_
  intro other shorter different offered
  obtain ⟨_, _, equal, opened⟩ := opens_of_propose offered
  cases equal
  rcases opens_dot opened with rfl | rfl | rfl
  · cases offered
    exact longer
  · have undotted : c ≠ '.' := by
      rintro rfl
      cases digit
    have nothing : (ofKind .range).propose ('.' :: c :: rest) = none := by
      change spelled ['.', '.'] .range ('.' :: c :: rest) = none
      simp [spelled, List.isPrefixOf, Ne.symm undotted]
    cases offered.symm.trans nothing
  · contradiction

theorem numberMark_apart : ∀ c ∈ '.' :: exponentMarks,
    c ∉ longMarks ∧ c ∉ ['x', 'X'] ∧ ¬ Digit c := forall_listed (by decide)

theorem hexMark_apart : ∀ x ∈ ['x', 'X'],
    x ∉ longMarks ∧ x ∉ realMarks ∧ x ∉ exponentMarks ∧ x ≠ '.' ∧ ¬ Digit x :=
  forall_listed (by decide)

theorem choice_hexDigits {x : Char} (mark : x ∈ ['x', 'X']) (stop : Breaks HexDigit rest) :
    choice ('0' :: x :: rest) = some (.reject 2 .malformedNumber) := by
  have proper : Kind.hexInteger ≠ .endOfInput := by decide
  have proposed := hexInteger_marked mark rest
  rw [if_pos ((digitCount_eq_zero hexDigit_iff).mpr stop)] at proposed
  refine choice_of_longer proper proposed Nat.two_pos ?_
  intro other shorter different offered
  obtain ⟨short, unmarked, powerless, undotted, digitless⟩ := hexMark_apart x mark
  have zero : ['0'] ∈ digits := mem_digits.mpr ⟨by simp, by simp [digit_iff]⟩
  have ends : Breaks Digit (x :: rest) := breaks_cons.mpr digitless
  obtain ⟨_, _, equal, opened⟩ := opens_of_propose offered
  cases equal
  rcases opens_digit rfl opened with rfl | rfl | rfl
  · cases offered.symm.trans (integer_run zero ends (breaks_cons.mpr short))
    exact Nat.one_lt_two
  · contradiction
  · cases offered.symm.trans (real_plain zero ends (breaks_cons.mpr undotted)
      (breaks_cons.mpr powerless) (breaks_cons.mpr unmarked))

theorem choice_pointed (member : mantissa ∈ pointed)
    (proposed : real (mantissa ++ rest) = some proposal)
    (longer : mantissa.length ≤ proposal.length) : choice (mantissa ++ rest) = some proposal := by
  rcases (Language.mem_add _ _ _).mp member with dotted | dotted
  · obtain ⟨_, rfl, part, whole, rfl⟩ := Language.mem_mul.mp dotted
    obtain ⟨nonempty, all⟩ := mem_digits.mp whole
    obtain ⟨c, part, rfl⟩ := List.exists_cons_of_ne_nil nonempty
    refine choice_fraction ((digit_iff c).mp (all c List.mem_cons_self)) proposed ?_
    simp only [List.length_append, List.length_cons] at longer
    omega
  · obtain ⟨_, first, part, -, rfl⟩ := Language.mem_mul.mp dotted
    obtain ⟨run, whole, _, rfl, rfl⟩ := Language.mem_mul.mp first
    obtain ⟨short, decimal, digitless⟩ := numberMark_apart '.' List.mem_cons_self
    simp only [List.append_assoc, List.singleton_append, List.length_append,
      List.length_cons] at proposed longer ⊢
    exact choice_real whole (breaks_cons.mpr digitless) (breaks_cons.mpr short)
      (breaks_cons.mpr decimal) proposed (by omega)

theorem choice_malformed (malformed : Malformed text word reason) :
    choice text = some (.reject word.length .malformedNumber) := by
  cases malformed with
  | hexDigits mark stop => exact choice_hexDigits mark stop
  | @fraction run rest member stop =>
      obtain ⟨short, decimal, digitless⟩ := numberMark_apart '.' List.mem_cons_self
      rw [List.length_append]
      exact choice_real member (breaks_cons.mpr digitless) (breaks_cons.mpr short)
        (breaks_cons.mpr decimal) (real_bare member stop) (Nat.lt_succ_self _)
  | @exponent mantissa sign rest e member mark signed taken stop =>
      have listed : e ∈ exponentMarks := by simpa [exponentMarks] using mark
      obtain ⟨short, decimal, digitless⟩ := numberMark_apart e (List.mem_cons_of_mem _ listed)
      have ends : Breaks Digit (e :: (sign ++ rest)) := breaks_cons.mpr digitless
      have cut := finishReal_cut mantissa listed ⟨signed, taken⟩ stop
      rcases (Language.mem_add _ _ _).mp member with whole | dotted
      · have proposed := real_powered whole
          (not_breaks_iff.mpr ⟨e, sign ++ rest, rfl, listed⟩)
        rw [cut] at proposed
        refine choice_real whole ends (breaks_cons.mpr short) (breaks_cons.mpr decimal) proposed ?_
        simp [Proposal.length]
      · have proposed := real_pointed dotted ends
        rw [cut] at proposed
        exact choice_pointed dotted proposed (by simp [Proposal.length])

theorem choice_unclosed (unclosed : Unclosed text word quote) :
    choice text = some (.reject word.length .unterminatedString) := by
  cases unclosed with
  | @single body rest member barred =>
      have proposed := quoted_unclosed (by decide) .singleQuoted member barred
      exact choice_alone (fun _ => opens_single) proposed (Nat.succ_pos _)
  | @double body rest member barred =>
      have proposed := quoted_unclosed (by decide) .doubleQuoted member barred
      exact choice_alone (fun _ => opens_double) proposed (Nat.succ_pos _)

theorem choice_eq_malformed : choice text = some (.reject length .malformedNumber) ↔
    ∃ word reason, Malformed text word reason ∧ word.length = length := by
  constructor
  · intro chosen
    rcases flaw_of_choice chosen with ⟨-, found⟩ | ⟨same, -⟩
    · exact found
    · cases same
  · rintro ⟨word, reason, malformed, rfl⟩
    exact choice_malformed malformed

theorem choice_eq_unclosed : choice text = some (.reject length .unterminatedString) ↔
    ∃ word quote, Unclosed text word quote ∧ word.length = length := by
  constructor
  · intro chosen
    rcases flaw_of_choice chosen with ⟨same, -⟩ | ⟨-, found⟩
    · cases same
    · exact found
  · rintro ⟨word, quote, unclosed, rfl⟩
    exact choice_unclosed unclosed

end Rule

end ExprLex
