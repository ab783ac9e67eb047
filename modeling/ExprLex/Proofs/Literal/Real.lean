import ExprLex.Proofs.Literal.Integer
import ExprLex.Proofs.Literal.Rounding

namespace ExprLex.Literal
open Computability Grammar

variable {run power number mark : List Char} {exponent : Int} {lexeme : String}

/-- Of the digits of an exponent those count that are needed to reach 65536. -/
structure Capped (run read : List Char) : Prop where
  ahead : read <+: run
  reached : read = run ∨ 65536 ≤ positional 10 read
  needed : positional 10 read.dropLast < 65536

inductive Power : List Char → Int → Prop
  | absent : Power [] 0
  | present {e : Char} {sign run read : List Char} (marked : e ∈ ['E', 'e'])
      (signed : sign ∈ optional (oneOf (· ∈ ['+', '-']))) (whole : run ∈ digits)
      (capped : Capped run read) :
      Power (e :: (sign ++ run))
        (if sign = ['-'] then -(positional 10 read : Int) else positional 10 read)

/-- Whether a text is a decimal number with some value, without a type mark. -/
inductive Scientific : List Char → ℚ → Prop
  | whole {run power : List Char} {exponent : Int} (member : run ∈ digits)
      (powered : Power power exponent) :
      Scientific (run ++ power) (positional 10 run * 10 ^ exponent)
  | pointed {whole fraction power : List Char} {exponent : Int} (all : ∀ c ∈ whole, Digit c)
      (member : fraction ∈ digits) (powered : Power power exponent) :
      Scientific (whole ++ '.' :: (fraction ++ power))
        (positional 10 (whole ++ fraction) * 10 ^ (exponent - fraction.length))

theorem positional_concat (base : Nat) (run : List Char) (c : Char) :
    positional base (run ++ [c]) = base * positional base run + digitRank c := by
  rw [positional, positional, List.map_append, List.reverse_append, List.map_singleton,
    List.reverse_singleton, List.singleton_append, Nat.ofDigits_cons, add_comm]

theorem exponentValue_concat (run : List Char) (c : Char) :
    Decimal.exponentValue (run ++ [c]) =
      if Decimal.exponentValue run < 65536 then 10 * Decimal.exponentValue run + digitValue c
      else Decimal.exponentValue run := by
  rw [Decimal.exponentValue, List.foldl_append]
  rfl

theorem exponentValue_capped (all : ∀ c ∈ run, Digit c) :
    ∃ read, Capped run read ∧ Decimal.exponentValue run = positional 10 read := by
  induction run using List.reverseRecOn with
  | nil => exact ⟨[], ⟨List.prefix_rfl, .inl rfl, by decide⟩, rfl⟩
  | append_singleton run c ih =>
      obtain ⟨allRun, digit⟩ := List.forall_mem_append.mp all
      obtain ⟨read, ⟨ahead, reached, needed⟩, same⟩ := ih allRun
      rw [exponentValue_concat, same]
      split
      · rename_i below
        obtain rfl := reached.resolve_right (not_le.mpr below)
        refine ⟨read ++ [c], ⟨List.prefix_rfl, .inl rfl, by rwa [List.dropLast_concat]⟩, ?_⟩
        rw [positional_concat, digitValue_eq (.inl (digit c (List.mem_singleton_self c)))]
      · rename_i full
        exact ⟨read, ⟨ahead.trans (List.prefix_append run [c]), .inr (not_lt.mp full), needed⟩, rfl⟩

theorem exponentMark_listed {e : Char} (marked : e ∈ exponentMarks) :
    (decide (e = 'e') || decide (e = 'E')) = true := by
  rcases List.mem_pair.mp marked with rfl | rfl <;> rfl

theorem exponent?_signed {e sign : Char} (marked : e ∈ exponentMarks) (signed : sign ∈ signs)
    (whole : run ∈ digits) : Decimal.exponent? (e :: sign :: run) =
      some (if sign = '-' then -(Decimal.exponentValue run : Int)
        else Decimal.exponentValue run) := by
  rcases List.mem_pair.mp signed with rfl | rfl
  all_goals
    simp only [Decimal.exponent?, exponentMark_listed marked, run_valid digit_iff whole, if_true]
    rfl

theorem exponent?_unsigned {e : Char} (marked : e ∈ exponentMarks) (whole : run ∈ digits) :
    Decimal.exponent? (e :: run) = some (Decimal.exponentValue run : Int) := by
  have unsigned := digits_unsigned whole []
  rw [List.append_nil] at unsigned
  simp only [Decimal.exponent?, exponentMark_listed marked, if_true]
  split
  · simp [signs] at unsigned
  · simp [signs] at unsigned
  · simp only [run_valid digit_iff whole]
    rfl

theorem exists_power (member : power ∈ optional exponents) :
    ∃ exponent, Power power exponent ∧ Decimal.exponent? power = some exponent := by
  rcases mem_optional.mp member with rfl | member
  · exact ⟨0, .absent, rfl⟩
  · obtain ⟨_, lead, run, whole, rfl⟩ := Language.mem_mul.mp member
    obtain ⟨_, ⟨e, marked, rfl⟩, sign, signed, rfl⟩ := Language.mem_mul.mp lead
    obtain ⟨read, capped, same⟩ := exponentValue_capped (mem_digits.mp whole).2
    refine ⟨_, .present marked signed whole capped, ?_⟩
    rcases mem_optional.mp signed with rfl | ⟨c, listed, rfl⟩
    · simpa [same] using exponent?_unsigned marked whole
    · simpa [same] using exponent?_signed marked listed whole

theorem power_breaks (member : power ∈ optional exponents) :
    Breaks Digit power ∧ Breaks (· = '.') power := by
  rcases mem_optional.mp member with rfl | member
  · exact ⟨breaks_nil, breaks_nil⟩
  · obtain ⟨e, tail, split, listed⟩ := not_breaks_iff.mp (exponent_begins member [])
    obtain ⟨-, undotted, digitless⟩ := exponentMark_apart e listed
    rw [List.append_nil] at split
    subst split
    exact ⟨breaks_cons.mpr digitless, breaks_cons.mpr undotted⟩

section
variable (negative : Bool) (powered : power ∈ optional exponents)
  (found : Decimal.exponent? power = some exponent)
include powered found

theorem unsigned?_digits (whole : run ∈ digits) : Decimal.unsigned? negative (run ++ power) =
    some ⟨negative, digitsValue 10 run, exponent⟩ := by
  obtain ⟨nonempty, all⟩ := mem_digits.mp whole
  obtain ⟨stop, undotted⟩ := power_breaks powered
  rw [Decimal.unsigned?, takeWhile_run digit_iff all stop, dropWhile_run digit_iff all stop]
  split
  rename_i fraction rest read
  -- No point follows the digits, so all that is left is the exponent.
  split at read
  · simp at undotted
  · cases read
    simp [nonempty, found]

theorem unsigned?_pointed {whole : List Char} (all : ∀ c ∈ whole, Digit c) (part : run ∈ digits) :
    Decimal.unsigned? negative (whole ++ '.' :: (run ++ power)) =
      some ⟨negative, digitsValue 10 (whole ++ run), exponent - run.length⟩ := by
  obtain ⟨nonempty, allPart⟩ := mem_digits.mp part
  have stop := (power_breaks powered).1
  have dotted : Breaks Digit ('.' :: (run ++ power)) := breaks_cons.mpr dot_not_digit
  rw [Decimal.unsigned?, takeWhile_run digit_iff all dotted, dropWhile_run digit_iff all dotted]
  simp only [takeWhile_run digit_iff allPart stop, dropWhile_run digit_iff allPart stop]
  simp [nonempty, found]

end

theorem Power.mem (powered : Power power exponent) : power ∈ optional exponents := by
  cases powered with
  | absent => exact mem_optional.mpr (.inl rfl)
  | present marked signed whole capped =>
      have lead := Language.append_mem_mul (show [_] ∈ oneOf _ from ⟨_, marked, rfl⟩) signed
      exact mem_optional.mpr (.inr (Language.append_mem_mul lead whole))

theorem Scientific.mem {exact : ℚ} (spelled : Scientific number exact) : number ∈ numbers := by
  cases spelled with
  | whole member powered => exact Language.append_mem_mul (.inl member) powered.mem
  | @pointed whole fraction power _ all member powered =>
      have point : ['.'] ∈ just ['.'] := mem_just.mpr rfl
      rw [show whole ++ '.' :: (fraction ++ power) = whole ++ ['.'] ++ fraction ++ power by simp]
      refine Language.append_mem_mul (.inr ?_) powered.mem
      by_cases empty : whole = []
      · subst empty
        exact .inl (Language.append_mem_mul point member)
      · have digits := mem_digits.mpr ⟨empty, all⟩
        exact .inr (Language.append_mem_mul (Language.append_mem_mul digits point) member)

theorem digitsValue_decimal (all : ∀ c ∈ run, Digit c) : digitsValue 10 run = positional 10 run :=
  digitsValue_eq 10 fun c listed => .inl (all c listed)

theorem exists_scientific (negative : Bool) (member : number ∈ numbers) :
    ∃ significand exponent,
      Decimal.unsigned? negative number = some ⟨negative, significand, exponent⟩ ∧
        Scientific number (significand * 10 ^ exponent) := by
  obtain ⟨mantissa, either, power, powered, rfl⟩ := Language.mem_mul.mp member
  obtain ⟨exponent, spelled, found⟩ := exists_power powered
  have pointed {whole run : List Char} (all : ∀ c ∈ whole, Digit c) (part : run ∈ digits) :
      ∃ significand exponent, Decimal.unsigned? negative (whole ++ '.' :: (run ++ power)) =
        some ⟨negative, significand, exponent⟩ ∧
          Scientific (whole ++ '.' :: (run ++ power)) (significand * 10 ^ exponent) := by
    refine ⟨_, _, unsigned?_pointed negative powered found all part, ?_⟩
    rw [digitsValue_decimal (List.forall_mem_append.mpr ⟨all, (mem_digits.mp part).2⟩)]
    exact .pointed all part spelled
  rcases either with whole | dotted | dotted
  · refine ⟨_, _, unsigned?_digits negative powered found whole, ?_⟩
    rw [digitsValue_decimal (mem_digits.mp whole).2]
    exact .whole whole spelled
  · obtain ⟨_, rfl, run, part, rfl⟩ := Language.mem_mul.mp dotted
    exact pointed (fun c listed => absurd listed List.not_mem_nil) part
  · obtain ⟨_, first, part, partMember, rfl⟩ := Language.mem_mul.mp dotted
    obtain ⟨run, whole, _, rfl, rfl⟩ := Language.mem_mul.mp first
    simpa using pointed (mem_digits.mp whole).2 partMember

theorem ofChars?_mem (member : number ∈ numbers) : ∃ significand exponent,
    RealText.ofChars? number = some (.finite ⟨false, significand, exponent⟩) ∧
      Scientific number (significand * 10 ^ exponent) := by
  obtain ⟨significand, exponent, read, spelled⟩ := exists_scientific false member
  have unsigned := numbers_unsigned member
  refine ⟨significand, exponent, ?_, spelled⟩
  unfold RealText.ofChars?
  split
  rename_i negative body same
  -- A sign would have to be the first character.
  split at same
  · simp [signs] at unsigned
  · simp [signs] at unsigned
  · cases same
    rw [read]

theorem magnitude_rounds {format : BinaryFormat} (wide : 0 < format.fractionBits)
    (decimal : Decimal) : format.Rounds (decimal.significand * 10 ^ decimal.exponent)
      (decimal.magnitude format) := by
  obtain ⟨negative, significand, exponent⟩ := decimal
  cases exponent with
  | ofNat exponent =>
      have rounds := format.nearest_rounds wide (significand * 10 ^ exponent) one_pos
      rw [Nat.cast_one, div_one, Nat.cast_mul, Nat.cast_pow, ← zpow_natCast] at rounds
      exact rounds
  | negSucc exponent =>
      have rounds := format.nearest_rounds wide significand
        (Nat.pow_pos (n := exponent + 1) (Nat.succ_pos 9))
      rw [Nat.cast_pow] at rounds
      rw [zpow_negSucc, ← div_eq_mul_inv]
      exact rounds

theorem finiteBits_mem (format : BinaryFormat) (wide : 0 < format.fractionBits) (lexeme : String)
    (member : number ∈ numbers) : ∃ exact bits, Scientific number exact ∧
      format.Rounds exact bits ∧ finiteBits format lexeme number =
        if bits < format.infinity then .ok bits else .error (.outOfRange lexeme) := by
  obtain ⟨significand, exponent, read, spelled⟩ := ofChars?_mem member
  refine ⟨_, _, spelled, magnitude_rounds wide ⟨false, significand, exponent⟩, ?_⟩
  rw [finiteBits, read]
  dsimp only [Decimal.bits?]
  by_cases small : Decimal.magnitude format ⟨false, significand, exponent⟩ < format.infinity
  · simp [small]
  · simp [small]

/-- Whether a text is a real number with some value, for single precision or for double. -/
inductive WrittenReal : (text : List Char) → (single : Bool) → ℚ → Prop
  | single {text : List Char} {exact : ℚ} {mark : Char} (spelled : Scientific text exact)
      (marked : mark ∈ ['F', 'f']) : WrittenReal (text ++ [mark]) true exact
  | double {text : List Char} {exact : ℚ} {mark : Char} (spelled : Scientific text exact)
      (marked : mark ∈ ['D', 'd']) : WrittenReal (text ++ [mark]) false exact
  | plain {text : List Char} {exact : ℚ} (spelled : Scientific text exact) :
      WrittenReal text false exact

def precision (single : Bool) : BinaryFormat := if single then ⟨23, 8⟩ else ⟨52, 11⟩

def rounded (lexeme : String) (single : Bool) (bits : Nat) : Except Problem Value :=
  match single with
  | true => if bits < 255 * 2 ^ 23 then .ok (.float (.ofNat bits)) else .error (.outOfRange lexeme)
  | false =>
      if bits < 2047 * 2 ^ 52 then .ok (.double (.ofNat bits)) else .error (.outOfRange lexeme)

theorem number_unmarked (member : number ∈ numbers) : ∀ c ∈ number.getLast?, c ∉ realMarks := by
  obtain ⟨d, last, digit⟩ := numbers_endsIn number member
  intro c found marked
  rw [last] at found
  cases found
  exact (realMark_apart d marked).2.2 digit

theorem decodeReal_single {c : Char} (member : number ∈ numbers) (marked : c ∈ ['F', 'f'])
    (split : lexeme.toList = number ++ [c]) : ∃ exact bits, Scientific number exact ∧
      (precision true).Rounds exact bits ∧ decodeReal lexeme = rounded lexeme true bits := by
  have dropped : dropMark? ['F', 'f'] lexeme.toList = some number :=
    split ▸ dropMark?_listed marked number
  obtain ⟨exact, bits, spelled, rounds, found⟩ :=
    finiteBits_mem .single (by decide) lexeme member
  refine ⟨exact, bits, spelled, rounds, ?_⟩
  rw [show BinaryFormat.single.infinity = 255 * 2 ^ 23 from rfl] at found
  simp only [decodeReal, dropped, found, rounded]
  split <;> rfl

theorem double_unmarked (member : number ∈ numbers)
    (marked : mark ∈ optional (oneOf (· ∈ ['D', 'd']))) :
    ∀ c ∈ (number ++ mark).getLast?, c ∉ ['F', 'f'] := by
  rcases mem_optional.mp marked with rfl | ⟨d, listed, rfl⟩
  · rw [List.append_nil]
    intro c last single
    exact number_unmarked member c last (List.mem_append_left ['D', 'd'] single)
  · have apart : ∀ c ∈ ['D', 'd'], c ∉ ['F', 'f'] := forall_listed (by decide)
    intro c found
    rw [List.getLast?_concat] at found
    cases found
    exact apart d listed

theorem decodeReal_double (member : number ∈ numbers)
    (marked : mark ∈ optional (oneOf (· ∈ ['D', 'd']))) (split : lexeme.toList = number ++ mark) :
    ∃ exact bits, Scientific number exact ∧
      (precision false).Rounds exact bits ∧ decodeReal lexeme = rounded lexeme false bits := by
  have kept : dropMark? ['F', 'f'] lexeme.toList = none :=
    dropMark?_unlisted (split ▸ double_unmarked member marked)
  have bare : (dropMark? ['D', 'd'] lexeme.toList).getD lexeme.toList = number := by
    rw [split]
    rcases mem_optional.mp marked with rfl | ⟨d, listed, rfl⟩
    · rw [List.append_nil, dropMark?_unlisted]
      · rfl
      · intro c last double
        exact number_unmarked member c last (List.mem_append_right ['F', 'f'] double)
    · rw [dropMark?_listed listed]
      rfl
  obtain ⟨exact, bits, spelled, rounds, found⟩ :=
    finiteBits_mem .double (by decide) lexeme member
  refine ⟨exact, bits, spelled, rounds, ?_⟩
  rw [show BinaryFormat.double.infinity = 2047 * 2 ^ 52 from rfl] at found
  simp only [decodeReal, kept, bare, found, rounded]
  split <;> rfl

/-- A real number is decoded to the nearest number of its precision, if that is finite. -/
theorem decodeReal_rounded (member : lexeme.toList ∈ reals) :
    ∃ single exact bits, WrittenReal lexeme.toList single exact ∧
      (∀ other, (precision single).Rounds exact other ↔ other = bits) ∧
        decodeReal lexeme = rounded lexeme single bits := by
  obtain ⟨number, inside, mark, marked, split⟩ := Language.mem_mul.mp (reals_le member)
  by_cases single : mark ∈ oneOf (· ∈ ['F', 'f'])
  · obtain ⟨c, listed, rfl⟩ := single
    obtain ⟨exact, bits, spelled, rounds, found⟩ := decodeReal_single inside listed split.symm
    exact ⟨true, exact, bits, split ▸ .single spelled listed, rounds.iff_eq, found⟩
  · have double : mark ∈ optional (oneOf (· ∈ ['D', 'd'])) := by
      rcases mem_optional.mp marked with rfl | ⟨c, listed, rfl⟩
      · exact mem_optional.mpr (.inl rfl)
      · have either : c ∈ ['F', 'f'] ++ ['D', 'd'] := listed
        have other := (List.mem_append.mp either).resolve_left fun first => single ⟨c, first, rfl⟩
        exact mem_optional.mpr (.inr ⟨c, other, rfl⟩)
    obtain ⟨exact, bits, spelled, rounds, found⟩ := decodeReal_double inside double split.symm
    refine ⟨false, exact, bits, ?_, rounds.iff_eq, found⟩
    rw [← split]
    rcases mem_optional.mp double with rfl | ⟨c, listed, rfl⟩
    · rw [List.append_nil]
      exact .plain spelled
    · exact .double spelled listed

end ExprLex.Literal
