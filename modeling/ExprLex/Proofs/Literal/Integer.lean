import ExprLex.Proofs.Literal.Number

namespace ExprLex
open Computability Grammar

variable {kind : Kind} {base : Nat} {body run text : List Char} {accepted : List Char}
  {lexeme : String} {long : Bool} {c : Char}

namespace Literal

def digitRank (c : Char) : Nat := "0123456789abcdef".toList.idxOf c.toLower

def positional (base : Nat) (digits : List Char) : Nat :=
  Nat.ofDigits base (digits.map digitRank).reverse

theorem hexDigit_lt (digit : HexDigit c) : c.toNat < 128 := by
  rcases digit with decimal | upper | lower
  · exact lt_of_le_of_lt (Char.le_def.mp decimal.2) (by decide)
  · exact lt_of_le_of_lt (Char.le_def.mp upper.2) (by decide)
  · exact lt_of_le_of_lt (Char.le_def.mp lower.2) (by decide)

theorem digitValue_eq (digit : HexDigit c) : digitValue c = digitRank c := by
  have all : ∀ n : Fin 128, HexDigit (Char.ofNat n) →
      digitValue (Char.ofNat n) = digitRank (Char.ofNat n) := by decide
  have same := all ⟨c.toNat, hexDigit_lt digit⟩
  rw [Char.ofNat_toNat] at same
  exact same digit

theorem ofDigits_pairUp (base : Nat) (done digits : List Nat) :
    Nat.ofDigits (base * base) (pairUp base done digits) =
      Nat.ofDigits (base * base) done.reverse +
        (base * base) ^ done.length * Nat.ofDigits base digits := by
  fun_induction pairUp base done digits with
  | case1 done low high digits ih =>
      rw [ih, List.reverse_cons, Nat.ofDigits_append, Nat.ofDigits_singleton, List.length_cons,
        List.length_reverse, Nat.ofDigits_cons, Nat.ofDigits_cons]
      ring
  | case2 done digit =>
      rw [List.reverse_cons, Nat.ofDigits_append, Nat.ofDigits_singleton, Nat.ofDigits_singleton,
        List.length_reverse]
  | case3 done => simp

theorem valueOf_eq (fuel base : Nat) (digits : List Nat) :
    valueOf fuel base digits = Nat.ofDigits base digits := by
  fun_induction valueOf fuel base digits with
  | case1 base digits => simp [Nat.ofDigits_eq_foldr]
  | case2 fuel base => rfl
  | case3 fuel base digit => exact Nat.ofDigits_singleton.symm
  | case4 fuel base digits nonempty many ih => simp [ih, ofDigits_pairUp]

theorem digitsValue_eq (base : Nat) (all : ∀ c ∈ run, HexDigit c) :
    digitsValue base run = positional base run := by
  rw [digitsValue, valueOf_eq, positional, ← List.map_reverse]
  congr 1
  apply List.map_congr_left
  intro c member
  exact digitValue_eq (all c (List.mem_reverse.mp member))

theorem Numeral.hexDigits (numeral : Numeral kind base body run) : ∀ c ∈ run, HexDigit c := by
  cases numeral with
  | decimal member => exact fun c listed => .inl ((mem_digits.mp member).2 c listed)
  | hexadecimal marked member => exact (mem_many_oneOf.mp member).2

/-- Whether a text is an integer of a kind with some digits, and with a long mark or without. -/
inductive Written : Kind → (text : List Char) → (base : Nat) → (digits : List Char) →
    (long : Bool) → Prop
  | short {kind : Kind} {base : Nat} {body digits : List Char}
      (numeral : Numeral kind base body digits) : Written kind body base digits false
  | long {kind : Kind} {base : Nat} {body digits : List Char} {mark : Char}
      (numeral : Numeral kind base body digits) (marked : mark ∈ ['L', 'l']) :
      Written kind (body ++ [mark]) base digits true

def answer (lexeme : String) (long : Bool) (value : Nat) : Except Problem Value :=
  match long with
  | true => if value ≤ 2 ^ 63 - 1 then .ok (.long value) else .error (.outOfRange lexeme)
  | false => if value ≤ 2 ^ 31 - 1 then .ok (.int value) else .error (.outOfRange lexeme)

def Formed (found : Except Problem Value) : Prop :=
  ∀ kind lexeme, found ≠ .error (.malformed kind lexeme)

theorem answer_formed (lexeme : String) (long : Bool) (value : Nat) :
    Formed (answer lexeme long value) := by
  intro kind other
  cases long <;> simp only [answer] <;> split <;> simp

theorem exists_written (integral : kind = .integer ∨ kind = .hexInteger)
    (member : text ∈ kind.language) : ∃ base digits long, Written kind text base digits long := by
  obtain ⟨base, body, run, mark, numeral, marked, rfl⟩ := exists_numeral integral member
  rcases mem_optional.mp marked with rfl | ⟨c, listed, rfl⟩
  · rw [List.append_nil]
    exact ⟨base, run, false, .short numeral⟩
  · exact ⟨base, run, true, .long numeral listed⟩

theorem Written.decode (written : Written kind lexeme.toList base run long) :
    decodeInteger kind lexeme = answer lexeme long (positional base run) := by
  generalize split : lexeme.toList = text at written
  cases written with
  | short numeral =>
      subst split
      rw [numeral.decode_int, digitsValue_eq base numeral.hexDigits]
      rfl
  | long numeral marked =>
      rw [numeral.decode_long marked split, digitsValue_eq base numeral.hexDigits]
      rfl

theorem of_dropMark? (dropped : dropMark? accepted text = some body) :
    ∃ c ∈ accepted, text = body ++ [c] := by
  rw [dropMark?] at dropped
  split at dropped
  · rename_i c last
    split at dropped
    · rename_i listed
      cases dropped
      exact ⟨c, by simpa using listed, (List.dropLast_append_getLast? c last).symm⟩
    · cases dropped
  · cases dropped

theorem mem_of_valid {p : Char → Prop} {f : Char → Bool} (agree : ∀ c, p c ↔ f c = true)
    (valid : (run.isEmpty || !run.all f) = false) : run ∈ many (oneOf p) := by
  rw [mem_many_oneOf]
  simpa [agree] using valid

theorem digitsOf_cases (integral : kind = .integer ∨ kind = .hexInteger) (lexeme : String)
    (body : List Char) : digitsOf kind lexeme body = .error (.malformed kind lexeme) ∨
      ∃ base run, digitsOf kind lexeme body = .ok (base, run) ∧
        ((run.isEmpty || !run.all (isDigitIn base)) = false → Numeral kind base body run) := by
  rcases integral with rfl | rfl
  · exact .inr ⟨10, body, rfl, fun valid => .decimal (mem_of_valid isDigitIn_decimal valid)⟩
  · unfold digitsOf
    dsimp only
    split
    · rename_i digits
      exact .inr ⟨16, digits, rfl, fun valid =>
        .hexadecimal (by simp) (mem_of_valid isDigitIn_hex valid)⟩
    · rename_i digits
      exact .inr ⟨16, digits, rfl, fun valid =>
        .hexadecimal (by simp) (mem_of_valid isDigitIn_hex valid)⟩
    · exact .inl rfl

theorem numeral_of_formed (integral : kind = .integer ∨ kind = .hexInteger)
    (left : (dropMark? ['L', 'l'] lexeme.toList).getD lexeme.toList = body)
    (formed : Formed (decodeInteger kind lexeme)) :
    ∃ base digits, Numeral kind base body digits := by
  rcases digitsOf_cases integral lexeme body with malformed | ⟨base, run, found, numeral⟩
  · refine absurd ?_ (formed kind lexeme)
    cases dropped : dropMark? ['L', 'l'] lexeme.toList
    all_goals
      simp only [dropped, Option.getD] at left
      subst left
      simp only [decodeInteger, dropped, malformed, bind, Except.bind]
  · refine ⟨base, run, numeral ?_⟩
    by_contra invalid
    have refused := Bool.eq_true_of_not_eq_false invalid
    refine formed kind lexeme ?_
    cases dropped : dropMark? ['L', 'l'] lexeme.toList
    all_goals
      simp only [dropped, Option.getD] at left
      subst left
      simp only [decodeInteger, dropped, found, refused, bind, Except.bind, if_true]
      rfl

theorem written_of_formed (integral : kind = .integer ∨ kind = .hexInteger)
    (formed : Formed (decodeInteger kind lexeme)) :
    ∃ base digits long, Written kind lexeme.toList base digits long := by
  obtain ⟨base, digits, numeral⟩ := numeral_of_formed integral rfl formed
  cases dropped : dropMark? ['L', 'l'] lexeme.toList with
  | none =>
      rw [dropped] at numeral
      exact ⟨base, digits, false, .short numeral⟩
  | some body =>
      obtain ⟨c, marked, split⟩ := of_dropMark? dropped
      rw [dropped] at numeral
      exact ⟨base, digits, true, split ▸ .long numeral marked⟩

theorem formed_iff (integral : kind = .integer ∨ kind = .hexInteger) :
    Formed (decodeInteger kind lexeme) ↔
      ∃ base digits long, Written kind lexeme.toList base digits long := by
  refine ⟨written_of_formed integral, ?_⟩
  rintro ⟨base, digits, long, written⟩
  rw [written.decode]
  exact answer_formed lexeme long _

end Literal

namespace Rule

theorem malformed_of_plain {length : Nat} {flaw : Flaw} (plain : kind.isString = false)
    (proposed : (ofKind kind).propose text = some (.reject length flaw)) :
    ∃ word reason, Malformed text word reason ∧ word.length = length := by
  rcases kind_of_reject proposed with rfl | rfl | rfl | rfl
  · exact (malformed_of_hexInteger proposed).2
  · exact (malformed_of_real proposed).2
  · cases plain
  · cases plain

theorem propose_whole (plain : kind.isString = false) :
    (ofKind kind).propose text = some (.accept text.length kind) ↔ text ∈ kind.language := by
  have reads := ofKind_reads kind text
  constructor
  · intro proposed
    obtain ⟨-, word, rest, rfl, member, whole⟩ := reads.sound _ _ proposed
    obtain rfl : rest = [] := by simpa using whole
    rwa [List.append_nil]
  · intro member
    obtain ⟨proposal, proposed, bound⟩ := reads.covers text [] (List.append_nil text).symm member
    cases proposal with
    | accept length other =>
        obtain ⟨rfl, word, rest, rfl, -, rfl⟩ := reads.sound length other proposed
        obtain rfl : rest = [] := by simpa using bound
        rwa [List.append_nil] at proposed ⊢
    | reject length flaw =>
        obtain ⟨word, reason, malformed, rfl⟩ := malformed_of_plain plain proposed
        obtain rfl := malformed.begins.eq_of_length_le bound
        exact absurd member malformed.not_mem

end Rule

namespace Literal

theorem Numeral.mem {mark : List Char} (numeral : Numeral kind base body run)
    (marked : mark ∈ optional (oneOf (· ∈ ['L', 'l']))) : body ++ mark ∈ kind.language := by
  cases numeral with
  | decimal member => exact Language.append_mem_mul member marked
  | @hexadecimal x run listed member =>
      change '0' :: x :: (run ++ mark) ∈ hexIntegers
      rw [hexIntegers_eq]
      exact Language.append_mem_mul (a := ['0']) (mem_just.mpr rfl)
        (Language.append_mem_mul (a := [x]) ⟨x, listed, rfl⟩
          (Language.append_mem_mul member marked))

theorem Written.mem (written : Written kind text base run long) : text ∈ kind.language := by
  cases written with
  | short numeral =>
      rw [← List.append_nil text]
      exact numeral.mem (mem_optional.mpr (.inl rfl))
  | long numeral marked => exact numeral.mem (mem_optional.mpr (.inr ⟨_, marked, rfl⟩))

theorem written_iff (integral : kind = .integer ∨ kind = .hexInteger) :
    (∃ base digits long, Written kind text base digits long) ↔
      (Rule.ofKind kind).propose text = some (.accept text.length kind) := by
  have plain : kind.isString = false := by rcases integral with rfl | rfl <;> rfl
  rw [Rule.propose_whole plain]
  constructor
  · rintro ⟨base, digits, long, written⟩
    exact written.mem
  · exact exists_written integral

structure Exact (kind : Kind) (rule : List Char → Option Proposal) (lexeme : String) : Prop where
  formed_iff : Formed (decodeInteger kind lexeme) ↔
    ∃ base digits long, Written kind lexeme.toList base digits long
  matched_iff : (∃ base digits long, Written kind lexeme.toList base digits long) ↔
    rule lexeme.toList = some (.accept lexeme.length kind)
  decoded : ∀ base digits long, Written kind lexeme.toList base digits long →
    decodeInteger kind lexeme = answer lexeme long (positional base digits)

theorem exact_of_integral (integral : kind = .integer ∨ kind = .hexInteger) (lexeme : String) :
    Exact kind (Rule.ofKind kind).propose lexeme where
  formed_iff := formed_iff integral
  matched_iff := by
    rw [written_iff integral, String.length_toList]
  decoded := fun _ _ _ => Written.decode

/-- Decimal and hexadecimal integers are decoded exactly, and nothing else is decoded as one. -/
theorem decodeInteger_exact (lexeme : String) :
    Exact .integer integer lexeme ∧ Exact .hexInteger hexInteger lexeme :=
  ⟨exact_of_integral (.inl rfl) lexeme, exact_of_integral (.inr rfl) lexeme⟩

end Literal
end ExprLex
