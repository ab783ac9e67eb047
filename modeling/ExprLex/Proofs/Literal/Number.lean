import ExprLex.Literal.Value
import ExprLex.Proofs.Grammar.Separation

namespace ExprLex.Literal
open Computability Grammar

variable {kind : Kind} {base : Nat} {body run text : List Char} {accepted : List Char}
  {lexeme : String}

theorem dropMark?_listed {c : Char} (listed : c ∈ accepted) (body : List Char) :
    dropMark? accepted (body ++ [c]) = some body := by
  simp [dropMark?, listed]

theorem dropMark?_unlisted (unlisted : ∀ c ∈ text.getLast?, c ∉ accepted) :
    dropMark? accepted text = none := by
  rw [dropMark?]
  cases last : text.getLast? with
  | none => rfl
  | some c => simp [unlisted c last]

/-- How an integer is written in front of its long mark: a body that has digits of some base. -/
inductive Numeral : Kind → (base : Nat) → (body digits : List Char) → Prop
  | decimal {run : List Char} (member : run ∈ digits) : Numeral .integer 10 run run
  | hexadecimal {x : Char} {run : List Char} (marked : x ∈ ['x', 'X'])
      (member : run ∈ many (oneOf HexDigit)) : Numeral .hexInteger 16 ('0' :: x :: run) run

theorem isDigitIn_hex (c : Char) : HexDigit c ↔ isDigitIn 16 c = true := by
  rw [hexDigit_iff, isHexDigit, isDigitIn, Bool.or_assoc]
  rfl

theorem isDigitIn_decimal (c : Char) : Digit c ↔ isDigitIn 10 c = true := by
  rw [digit_iff, isDigitIn, show ((10 : Nat) == 16) = false from rfl, Bool.false_and, Bool.or_false]

theorem Numeral.digitsOf (numeral : Numeral kind base body run) (lexeme : String) :
    digitsOf kind lexeme body = .ok (base, run) := by
  cases numeral with
  | decimal member => rfl
  | hexadecimal marked member => rcases List.mem_pair.mp marked with rfl | rfl <;> rfl

theorem run_valid {p : Char → Prop} {f : Char → Bool} (agree : ∀ c, p c ↔ f c = true)
    (member : run ∈ many (oneOf p)) : (run.isEmpty || !run.all f) = false := by
  obtain ⟨nonempty, all⟩ := mem_many_oneOf.mp member
  simpa [nonempty] using fun c listed => (agree c).mp (all c listed)

theorem Numeral.valid (numeral : Numeral kind base body run) :
    (run.isEmpty || !run.all (isDigitIn base)) = false := by
  cases numeral with
  | decimal member => exact run_valid isDigitIn_decimal member
  | hexadecimal marked member => exact run_valid isDigitIn_hex member

theorem Numeral.unmarked (numeral : Numeral kind base body run) :
    ∀ c ∈ body.getLast?, c ∉ longMarks := by
  cases numeral with
  | decimal member =>
      exact fun c last long => digit_not_long c long
        ((mem_digits.mp member).2 c (List.mem_of_getLast? last))
  | hexadecimal marked member =>
      obtain ⟨nonempty, all⟩ := mem_many_oneOf.mp member
      obtain ⟨d, tail, rfl⟩ := List.exists_cons_of_ne_nil nonempty
      intro c last long
      rw [List.getLast?_cons_cons, List.getLast?_cons_cons] at last
      exact hexDigit_not_long c long (all c (List.mem_of_getLast? last))

theorem exists_numeral (integral : kind = .integer ∨ kind = .hexInteger)
    (member : text ∈ kind.language) : ∃ base body run mark, Numeral kind base body run ∧
      mark ∈ optional (oneOf (· ∈ longMarks)) ∧ text = body ++ mark := by
  rcases integral with rfl | rfl
  · obtain ⟨run, whole, mark, marked, rfl⟩ := Language.mem_mul.mp member
    exact ⟨10, run, run, mark, .decimal whole, marked, rfl⟩
  · change text ∈ hexIntegers at member
    rw [hexIntegers_eq] at member
    obtain ⟨_, rfl, _, tail, rfl⟩ := Language.mem_mul.mp member
    obtain ⟨_, ⟨x, listed, rfl⟩, _, marked, rfl⟩ := Language.mem_mul.mp tail
    obtain ⟨run, whole, mark, long, rfl⟩ := Language.mem_mul.mp marked
    exact ⟨16, '0' :: x :: run, run, mark, .hexadecimal listed whole, long, rfl⟩

theorem Numeral.decode_long {c : Char} (numeral : Numeral kind base body run)
    (long : c ∈ longMarks) (split : lexeme.toList = body ++ [c]) :
    decodeInteger kind lexeme =
      if digitsValue base run ≤ longMax then .ok (.long (digitsValue base run))
      else .error (.outOfRange lexeme) := by
  have dropped : dropMark? ['L', 'l'] lexeme.toList = some body :=
    split ▸ dropMark?_listed long body
  simp only [decodeInteger, dropped, numeral.digitsOf, numeral.valid, bind, Except.bind, if_true]
  rfl

theorem Numeral.decode_int (numeral : Numeral kind base lexeme.toList run) :
    decodeInteger kind lexeme =
      if digitsValue base run ≤ intMax then .ok (.int (digitsValue base run))
      else .error (.outOfRange lexeme) := by
  have kept : dropMark? ['L', 'l'] lexeme.toList = none := dropMark?_unlisted numeral.unmarked
  simp only [decodeInteger, kept, numeral.digitsOf, numeral.valid, bind, Except.bind]
  rfl

end ExprLex.Literal
