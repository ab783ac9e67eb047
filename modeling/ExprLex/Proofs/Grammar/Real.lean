import ExprLex.Proofs.Grammar.Number

namespace ExprLex.Grammar
open Computability

variable {run rest text mantissa word : List Char} {proposal : Proposal}

theorem exponent_breaks (stop : Breaks (· ∈ exponentMarks) text) : exponent text = .absent := by
  rw [exponent, if_neg (mt beginsWith_iff.mp (not_not.mpr stop))]

theorem exponent_opened {e : Char} {sign : List Char} (mark : e ∈ exponentMarks)
    (signed : Marked signs sign rest) : exponent (e :: (sign ++ rest)) =
      if digitCount Char.isDigit rest = 0 then .cutShort (1 + sign.length)
      else .complete (1 + sign.length + digitCount Char.isDigit rest) := by
  have opened : beginsWith exponentMarks (e :: (sign ++ rest)) = true :=
    beginsWith_iff.mpr (by simpa using mark)
  have lead : markLength signs ((e :: (sign ++ rest)).drop 1) = sign.length :=
    markLength_append signed
  have behind : (e :: (sign ++ rest)).drop (1 + sign.length) = rest := by
    rw [Nat.add_comm, List.drop_succ_cons, List.drop_left]
  simp only [exponent, opened, if_true, lead, behind]
  split
  · rename_i none
    rw [if_pos none]
  · rename_i some
    rw [if_neg some]

theorem exponent_begun (begun : ¬ Breaks (· ∈ exponentMarks) text) :
    (∃ word rest, text = word ++ rest ∧ word ∈ exponents ∧ exponent text = .complete word.length) ∨
    (∃ e sign rest, text = e :: (sign ++ rest) ∧ e ∈ exponentMarks ∧ Marked signs sign rest ∧
      Breaks Digit rest ∧ exponent text = .cutShort (1 + sign.length)) := by
  obtain ⟨e, tail, rfl, mark⟩ := not_breaks_iff.mp begun
  obtain ⟨sign, tail, rfl, signed⟩ := exists_mark signs tail
  obtain ⟨run, rest, rfl, all, stop⟩ := exists_run Digit tail
  have opened := exponent_opened mark signed
  rw [digitCount_digits all stop] at opened
  by_cases empty : run = []
  · subst empty
    exact .inr ⟨e, sign, rest, rfl, mark, signed, stop, opened⟩
  · rw [if_neg (by simpa using empty)] at opened
    refine .inl ⟨e :: (sign ++ run), rest, by simp, ?_, ?_⟩
    · change [e] ++ sign ++ run ∈ exponents
      exact Language.append_mem_mul (Language.append_mem_mul ⟨e, mark, rfl⟩ signed.1)
        (mem_digits.mpr ⟨empty, all⟩)
    · rw [opened]
      simp only [List.length_cons, List.length_append, Exponent.complete.injEq]
      omega

theorem digit_not_sign : ∀ c ∈ signs, ¬ Digit c := forall_listed (by decide)

theorem digits_unsigned (member : run ∈ digits) (rest : List Char) :
    Breaks (· ∈ signs) (run ++ rest) := by
  obtain ⟨nonempty, all⟩ := mem_digits.mp member
  obtain ⟨c, run, rfl⟩ := List.exists_cons_of_ne_nil nonempty
  exact breaks_cons.mpr fun listed => digit_not_sign c listed (all c List.mem_cons_self)

theorem exponent_covers (member : word ∈ exponents) (rest : List Char) :
    ∃ length, exponent (word ++ rest) = .complete length ∧ word.length ≤ length ∧
      (Breaks Digit rest → length = word.length) := by
  obtain ⟨_, lead, run, whole, rfl⟩ := Language.mem_mul.mp member
  obtain ⟨_, ⟨e, mark, rfl⟩, sign, signed, rfl⟩ := Language.mem_mul.mp lead
  obtain ⟨nonempty, all⟩ := mem_digits.mp whole
  obtain ⟨more, rest, rfl, allMore, stop⟩ := exists_run Digit rest
  have taken : Marked signs sign (run ++ (more ++ rest)) :=
    ⟨signed, fun _ => digits_unsigned whole _⟩
  have count : digitCount Char.isDigit (run ++ (more ++ rest)) = run.length + more.length := by
    rw [← List.append_assoc, digitCount_digits (List.forall_mem_append.mpr ⟨all, allMore⟩) stop,
      List.length_append]
  have opened := exponent_opened mark taken
  rw [count, if_neg (by simp [nonempty])] at opened
  refine ⟨_, by simpa using opened, by simp; omega, fun ends => ?_⟩
  have none : more = [] := by
    cases more with
    | nil => rfl
    | cons c more => exact absurd (allMore c List.mem_cons_self) (by simpa using ends)
  subst none
  simp
  omega

def endings : Language Char := optional exponents * optional typeMarks

theorem finishReal_absent (stop : Breaks (· ∈ exponentMarks) rest) :
    finishReal (mantissa ++ rest) mantissa.length =
      .accept (mantissa.length + markLength realMarks rest) .real := by
  simp [finishReal, exponent_breaks stop]

theorem finishReal_complete {length : Nat} (found : exponent rest = .complete length) :
    finishReal (mantissa ++ rest) mantissa.length =
      .accept (mantissa.length + length + markLength realMarks (rest.drop length)) .real := by
  simp [finishReal, found, ← List.drop_drop]

theorem finishReal_cutShort {length : Nat} (found : exponent rest = .cutShort length) :
    finishReal (mantissa ++ rest) mantissa.length =
      .reject (mantissa.length + length) .malformedNumber := by
  simp [finishReal, found]

theorem le_finishReal (mantissa rest : List Char) :
    mantissa.length ≤ (finishReal (mantissa ++ rest) mantissa.length).length := by
  by_cases stop : Breaks (· ∈ exponentMarks) rest
  · rw [finishReal_absent stop]
    exact Nat.le_add_right _ _
  · rcases exponent_begun stop with ⟨_, _, _, _, found⟩ | ⟨_, _, _, _, _, _, _, found⟩
    · rw [finishReal_complete found]
      simp only [Proposal.length]
      omega
    · rw [finishReal_cutShort found]
      exact Nat.le_add_right _ _

theorem finishReal_accept {length : Nat} {kind : Kind}
    (accepted : finishReal (mantissa ++ rest) mantissa.length = .accept length kind) :
    kind = .real ∧ ∃ word more, rest = word ++ more ∧ word ∈ endings ∧
      mantissa.length + word.length = length ∧
      (¬ Breaks (· ∈ exponentMarks) rest → word ∈ exponents * optional typeMarks) := by
  by_cases stop : Breaks (· ∈ exponentMarks) rest
  · rw [finishReal_absent stop] at accepted
    obtain ⟨mark, more, rfl, marked⟩ := exists_mark realMarks rest
    cases accepted
    refine ⟨rfl, mark, more, rfl, ?_, by rw [markLength_append marked], absurd stop⟩
    exact Language.append_mem_mul (a := []) (mem_optional.mpr (.inl rfl)) marked.1
  · rcases exponent_begun stop with ⟨word, rest, rfl, member, found⟩ | ⟨_, _, _, _, _, _, _, found⟩
    · rw [finishReal_complete found, List.drop_left] at accepted
      obtain ⟨mark, more, rfl, marked⟩ := exists_mark realMarks rest
      cases accepted
      refine ⟨rfl, word ++ mark, more, by simp, ?_, ?_, fun _ => ?_⟩
      · exact Language.append_mem_mul (mem_optional.mpr (.inr member)) marked.1
      · rw [markLength_append marked, List.length_append, Nat.add_assoc]
      · exact Language.append_mem_mul member marked.1
    · rw [finishReal_cutShort found] at accepted
      cases accepted

theorem realMark_apart : ∀ c ∈ realMarks, c ∉ exponentMarks ∧ c ≠ '.' ∧ ¬ Digit c :=
  forall_listed (by decide)

theorem finishReal_covers (mantissa : List Char) (member : word ∈ endings) (rest : List Char) :
    mantissa.length + word.length ≤
      (finishReal (mantissa ++ (word ++ rest)) mantissa.length).length := by
  obtain ⟨power, powerMember, mark, marked, rfl⟩ := Language.mem_mul.mp member
  rcases mem_optional.mp powerMember with rfl | powerMember
  · rcases mem_optional.mp marked with rfl | ⟨c, (listed : c ∈ realMarks), rfl⟩
    · simpa using le_finishReal mantissa rest
    · have stop : Breaks (· ∈ exponentMarks) (c :: rest) := by
        simpa using (realMark_apart c listed).1
      rw [List.nil_append, List.singleton_append, finishReal_absent stop, markLength_cons listed]
      simp [Proposal.length]
  · obtain ⟨length, found, bound, exact⟩ := exponent_covers powerMember (mark ++ rest)
    rw [List.append_assoc, finishReal_complete found]
    rcases mem_optional.mp marked with rfl | ⟨c, (listed : c ∈ realMarks), rfl⟩
    · simp only [Proposal.length, List.append_nil]
      omega
    · have ends : length = power.length :=
        exact (by simpa using (realMark_apart c listed).2.2)
      subst ends
      rw [List.drop_left, List.singleton_append, markLength_cons listed]
      simp [Proposal.length, Nat.add_assoc]

theorem leadingDot_dot (member : run ∈ digits) (stop : Breaks Digit rest) :
    leadingDot ('.' :: (run ++ rest)) =
      some (finishReal (('.' :: run) ++ rest) ('.' :: run).length) := by
  obtain ⟨nonempty, all⟩ := mem_digits.mp member
  obtain ⟨more, exact⟩ := Nat.exists_eq_succ_of_ne_zero (mt List.length_eq_zero_iff.mp nonempty)
  have count := digitCount_digits all stop
  rw [exact] at count
  simp [leadingDot, count, exact, Nat.add_comm]

theorem leadingDot_bare (stop : Breaks Digit rest) : leadingDot ('.' :: rest) = none := by
  simp [leadingDot, (digitCount_eq_zero digit_iff).mpr stop]

theorem leadingDot_breaks (stop : Breaks (· = '.') text) : leadingDot text = none := by
  unfold leadingDot
  split
  · simp at stop
  · rfl

theorem dot_not_digit : ¬ Digit '.' := by decide

theorem leadingDot_digits (member : run ∈ digits) : leadingDot (run ++ rest) = none := by
  obtain ⟨nonempty, all⟩ := mem_digits.mp member
  obtain ⟨c, run, rfl⟩ := List.exists_cons_of_ne_nil nonempty
  apply leadingDot_breaks
  rw [List.cons_append, breaks_cons]
  rintro rfl
  exact dot_not_digit (all '.' List.mem_cons_self)

theorem fraction_breaks (stop : Breaks Digit text) : fraction text = none := by
  simp [fraction, (digitCount_eq_zero digit_iff).mpr stop]

theorem scientific_breaks (stop : Breaks Digit text) : scientific text = none := by
  simp [scientific, (digitCount_eq_zero digit_iff).mpr stop]

theorem marked_breaks (stop : Breaks Digit text) : marked text = none := by
  simp [marked, (digitCount_eq_zero digit_iff).mpr stop]

section
variable (member : run ∈ digits) (stop : Breaks Digit rest)
include member stop

theorem digitCount_mem : digitCount Char.isDigit (run ++ rest) = run.length :=
  digitCount_digits (mem_digits.mp member).2 stop

theorem fraction_undotted (undotted : Breaks (· = '.') rest) : fraction (run ++ rest) = none := by
  rw [fraction, digitCount_mem member stop]
  simp only [List.drop_left]
  split
  · rfl
  · split
    · simp at undotted
    · rfl

theorem scientific_digits : scientific (run ++ rest) =
    if beginsWith exponentMarks rest then some (finishReal (run ++ rest) run.length) else none := by
  have nonempty := (mem_digits.mp member).1
  rw [scientific, digitCount_mem member stop, List.drop_left]
  cases beginsWith exponentMarks rest <;> simp [nonempty]

theorem marked_digits : marked (run ++ rest) =
    if beginsWith realMarks rest then some (.accept (run.length + 1) .real) else none := by
  have nonempty := (mem_digits.mp member).1
  rw [marked, digitCount_mem member stop, List.drop_left]
  cases beginsWith realMarks rest <;> simp [nonempty]

end

theorem fraction_dot (member : run ∈ digits) (text : List Char) : fraction (run ++ '.' :: text) =
    if digitCount Char.isDigit text = 0 then
      if beginsWith ['.'] text then none else some (.reject (run.length + 1) .malformedNumber)
    else
      some (finishReal (run ++ '.' :: text) (run.length + 1 + digitCount Char.isDigit text)) := by
  have nonempty := (mem_digits.mp member).1
  rw [fraction, digitCount_mem member (breaks_cons.mpr dot_not_digit)]
  simp only [List.drop_left, List.length_eq_zero_iff, nonempty, if_false]
  split
  · rename_i none
    rw [if_pos none]
  · rename_i some
    rw [if_neg some]

def pointed : Language Char := just ['.'] * digits + digits * just ['.'] * digits

theorem longest_single {rank : Nat} (positive : 0 < proposal.length) :
    Offer.longest [(rank, proposal)] = some (rank, proposal) := by
  simp [Offer.longest, Offer.prefer, Nat.ne_of_gt positive]

theorem real_of_forms {first second third fourth : Option Proposal}
    (dot : leadingDot text = first) (point : fraction text = second)
    (power : scientific text = third) (mark : marked text = fourth)
    (only : [first, second, third, fourth].reduceOption = [proposal])
    (positive : 0 < proposal.length) : real text = some proposal := by
  subst dot point power mark
  rw [real, realForms]
  cases first : leadingDot text <;> cases second : fraction text <;>
    cases third : scientific text <;> cases fourth : marked text <;>
    simp_all [List.reduceOption, longest_single]

theorem real_eq_none (dot : leadingDot text = none) (point : fraction text = none)
    (power : scientific text = none) (mark : marked text = none) : real text = none := by
  simp [real, realForms, dot, point, power, mark, Offer.longest]

theorem finishReal_pos (nonempty : mantissa ≠ []) (rest : List Char) :
    0 < (finishReal (mantissa ++ rest) mantissa.length).length :=
  (List.length_pos_iff.mpr nonempty).trans_le (le_finishReal mantissa rest)

theorem real_pointed (member : mantissa ∈ pointed) (stop : Breaks Digit rest) :
    real (mantissa ++ rest) = some (finishReal (mantissa ++ rest) mantissa.length) := by
  rcases (Language.mem_add _ _ _).mp member with dotted | dotted
  · obtain ⟨_, rfl, run, whole, rfl⟩ := Language.mem_mul.mp dotted
    have digitless : Breaks Digit (['.'] ++ run ++ rest) := breaks_cons.mpr dot_not_digit
    exact real_of_forms (leadingDot_dot whole stop) (fraction_breaks digitless)
      (scientific_breaks digitless) (marked_breaks digitless) rfl (finishReal_pos (by simp) rest)
  · obtain ⟨_, first, part, partMember, rfl⟩ := Language.mem_mul.mp dotted
    obtain ⟨run, whole, _, rfl, rfl⟩ := Language.mem_mul.mp first
    have dotted : Breaks Digit ('.' :: (part ++ rest)) := breaks_cons.mpr dot_not_digit
    have split : run ++ ['.'] ++ part ++ rest = run ++ '.' :: (part ++ rest) := by simp
    have length : (run ++ ['.'] ++ part).length = run.length + 1 + part.length := by
      simp only [List.length_append, List.length_singleton]
    have positive : 0 < (finishReal (run ++ ['.'] ++ part ++ rest)
        (run ++ ['.'] ++ part).length).length := finishReal_pos (by simp) rest
    have point := fraction_dot whole (part ++ rest)
    rw [digitCount_mem partMember stop,
      if_neg (by simpa using (mem_digits.mp partMember).1)] at point
    rw [split, length] at positive ⊢
    exact real_of_forms (leadingDot_digits whole) point
      (scientific_digits whole dotted) (marked_digits whole dotted) rfl positive

theorem exponentMark_apart : ∀ c ∈ exponentMarks, c ∉ realMarks ∧ c ≠ '.' ∧ ¬ Digit c :=
  forall_listed (by decide)

theorem real_powered (member : run ∈ digits) (begun : ¬ Breaks (· ∈ exponentMarks) rest) :
    real (run ++ rest) = some (finishReal (run ++ rest) run.length) := by
  obtain ⟨e, rest, rfl, mark⟩ := not_breaks_iff.mp begun
  obtain ⟨unmarked, undotted, digitless⟩ := exponentMark_apart e mark
  have stop : Breaks Digit (e :: rest) := breaks_cons.mpr digitless
  have power := scientific_digits member stop
  rw [if_pos (beginsWith_iff.mpr begun)] at power
  have suffixless := marked_digits member stop
  rw [if_neg (mt beginsWith_iff.mp (not_not.mpr (breaks_cons.mpr unmarked)))] at suffixless
  exact real_of_forms (leadingDot_digits member)
    (fraction_undotted member stop (breaks_cons.mpr undotted)) power suffixless rfl
    (finishReal_pos (mem_digits.mp member).1 _)

theorem real_marked {c : Char} (member : run ∈ digits) (mark : c ∈ realMarks) :
    real (run ++ c :: rest) = some (.accept (run.length + 1) .real) := by
  obtain ⟨powerless, undotted, digitless⟩ := realMark_apart c mark
  have stop : Breaks Digit (c :: rest) := breaks_cons.mpr digitless
  have power := scientific_digits member stop
  rw [if_neg (mt beginsWith_iff.mp (not_not.mpr (breaks_cons.mpr powerless)))] at power
  have suffix := marked_digits member stop
  rw [if_pos (beginsWith_iff.mpr (by simpa using mark))] at suffix
  exact real_of_forms (leadingDot_digits member)
    (fraction_undotted member stop (breaks_cons.mpr undotted)) power suffix rfl (Nat.succ_pos _)

theorem real_bare (member : run ∈ digits) (stop : Breaks (fun c => Digit c ∨ c = '.') rest) :
    real (run ++ '.' :: rest) = some (.reject (run.length + 1) .malformedNumber) := by
  have dotted : Breaks Digit ('.' :: rest) := breaks_cons.mpr dot_not_digit
  have point := fraction_dot member rest
  have digitless : Breaks Digit rest := fun c ahead digit => stop c ahead (.inl digit)
  have undotted : beginsWith ['.'] rest ≠ true := by
    rw [Ne, beginsWith_iff, not_not]
    exact fun c ahead listed => stop c ahead (.inr (List.mem_singleton.mp listed))
  rw [if_pos ((digitCount_eq_zero digit_iff).mpr digitless), if_neg undotted] at point
  exact real_of_forms (leadingDot_digits member) point
    (scientific_digits member dotted) (marked_digits member dotted) rfl (Nat.succ_pos _)

inductive RealReading : List Char → Proposal → Prop
  | pointed {mantissa rest : List Char} (member : mantissa ∈ pointed) (stop : Breaks Digit rest) :
      RealReading (mantissa ++ rest) (finishReal (mantissa ++ rest) mantissa.length)
  | powered {run rest : List Char} (member : run ∈ digits)
      (begun : ¬ Breaks (· ∈ exponentMarks) rest) :
      RealReading (run ++ rest) (finishReal (run ++ rest) run.length)
  | marked {run rest : List Char} {c : Char} (member : run ∈ digits) (mark : c ∈ realMarks) :
      RealReading (run ++ c :: rest) (.accept (run.length + 1) .real)
  | bare {run rest : List Char} (member : run ∈ digits)
      (stop : Breaks (fun c => Digit c ∨ c = '.') rest) :
      RealReading (run ++ '.' :: rest) (.reject (run.length + 1) .malformedNumber)

theorem real_of_reading (reading : RealReading text proposal) : real text = some proposal := by
  cases reading with
  | pointed member stop => exact real_pointed member stop
  | powered member begun => exact real_powered member begun
  | marked member mark => exact real_marked member mark
  | bare member stop => exact real_bare member stop

theorem real_dot_bare (stop : Breaks Digit rest) : real ('.' :: rest) = none := by
  have digitless : Breaks Digit ('.' :: rest) := breaks_cons.mpr dot_not_digit
  exact real_eq_none (leadingDot_bare stop) (fraction_breaks digitless)
    (scientific_breaks digitless) (marked_breaks digitless)

theorem real_breaks (stop : Breaks Digit text) (undotted : Breaks (· = '.') text) :
    real text = none :=
  real_eq_none (leadingDot_breaks undotted) (fraction_breaks stop) (scientific_breaks stop)
    (marked_breaks stop)

theorem real_range (member : run ∈ digits) : real (run ++ '.' :: '.' :: rest) = none := by
  have dotted : Breaks Digit ('.' :: '.' :: rest) := breaks_cons.mpr dot_not_digit
  have point := fraction_dot member ('.' :: rest)
  rw [if_pos ((digitCount_eq_zero digit_iff).mpr (breaks_cons.mpr dot_not_digit)),
    if_pos (beginsWith_iff.mpr (by simp))] at point
  exact real_eq_none (leadingDot_digits member) point (scientific_digits member dotted)
    (marked_digits member dotted)

theorem real_plain (member : run ∈ digits) (stop : Breaks Digit rest)
    (undotted : Breaks (· = '.') rest) (powerless : Breaks (· ∈ exponentMarks) rest)
    (unmarked : Breaks (· ∈ realMarks) rest) : real (run ++ rest) = none := by
  have power := scientific_digits member stop
  rw [if_neg (mt beginsWith_iff.mp (not_not.mpr powerless))] at power
  have suffix := marked_digits member stop
  rw [if_neg (mt beginsWith_iff.mp (not_not.mpr unmarked))] at suffix
  exact real_eq_none (leadingDot_digits member) (fraction_undotted member stop undotted) power
    suffix

theorem reading_of_real (proposed : real text = some proposal) : RealReading text proposal := by
  -- Each shape of the text for which some reading exists has it, and no text has two.
  suffices shaped : real text = none ∨ ∃ other, RealReading text other by
    rcases shaped with nothing | ⟨other, reading⟩
    · rw [nothing] at proposed
      cases proposed
    · have same := (real_of_reading reading).symm.trans proposed
      cases same
      exact reading
  obtain ⟨run, rest, rfl, all, stop⟩ := exists_run Digit text
  by_cases empty : run = []
  · subst empty
    by_cases undotted : Breaks (· = '.') rest
    · exact .inl (real_breaks stop undotted)
    · obtain ⟨_, tail, rfl, rfl⟩ := not_breaks_iff.mp undotted
      obtain ⟨part, rest, rfl, allPart, stopPart⟩ := exists_run Digit tail
      by_cases bare : part = []
      · subst bare
        exact .inl (real_dot_bare stopPart)
      · have dotted : ['.'] ++ part ∈ pointed := .inl
          (Language.append_mem_mul (mem_just.mpr rfl) (mem_digits.mpr ⟨bare, allPart⟩))
        have reading := RealReading.pointed dotted stopPart
        exact .inr ⟨_, reading⟩
  · have member : run ∈ digits := mem_digits.mpr ⟨empty, all⟩
    by_cases undotted : Breaks (· = '.') rest
    · by_cases powerless : Breaks (· ∈ exponentMarks) rest
      · by_cases unmarked : Breaks (· ∈ realMarks) rest
        · exact .inl (real_plain member stop undotted powerless unmarked)
        · obtain ⟨c, rest, rfl, mark⟩ := not_breaks_iff.mp unmarked
          exact .inr ⟨_, .marked member mark⟩
      · exact .inr ⟨_, .powered member powerless⟩
    · obtain ⟨_, tail, rfl, rfl⟩ := not_breaks_iff.mp undotted
      obtain ⟨part, rest, rfl, allPart, stopPart⟩ := exists_run Digit tail
      by_cases bare : part = []
      · subst bare
        by_cases ranged : Breaks (· = '.') rest
        · refine .inr ⟨_, .bare member fun c ahead either => ?_⟩
          exact either.elim (stopPart c ahead) (ranged c ahead)
        · obtain ⟨_, tail, rfl, rfl⟩ := not_breaks_iff.mp ranged
          exact .inl (real_range member)
      · have dotted : run ++ ['.'] ++ part ∈ pointed := .inr
          (Language.append_mem_mul (Language.append_mem_mul member (mem_just.mpr rfl))
            (mem_digits.mpr ⟨bare, allPart⟩))
        have reading := RealReading.pointed dotted stopPart
        rw [show run ++ ['.'] ++ part ++ rest = run ++ '.' :: (part ++ rest) by simp] at reading
        exact .inr ⟨_, reading⟩

theorem real_eq_some : real text = some proposal ↔ RealReading text proposal :=
  ⟨reading_of_real, real_of_reading⟩

theorem mem_reals : word ∈ reals ↔
    word ∈ pointed * endings ∨ word ∈ digits * (exponents * optional typeMarks) ∨
      word ∈ digits * typeMarks := by
  simp only [reals, pointed, endings, add_mul, mul_assoc, Language.mem_add, or_assoc]

def numbers : Language Char := (digits + pointed) * optional exponents

theorem reals_le (member : word ∈ reals) : word ∈ numbers * optional typeMarks := by
  rcases mem_reals.mp member with member | member | member
  · rw [endings, ← mul_assoc] at member
    obtain ⟨_, inside, mark, marked, rfl⟩ := Language.mem_mul.mp member
    obtain ⟨mantissa, dotted, power, powered, rfl⟩ := Language.mem_mul.mp inside
    exact Language.append_mem_mul (Language.append_mem_mul (.inr dotted) powered) marked
  · rw [← mul_assoc] at member
    obtain ⟨_, inside, mark, marked, rfl⟩ := Language.mem_mul.mp member
    obtain ⟨run, whole, power, powered, rfl⟩ := Language.mem_mul.mp inside
    exact Language.append_mem_mul
      (Language.append_mem_mul (.inl whole) (mem_optional.mpr (.inr powered))) marked
  · obtain ⟨run, whole, mark, marked, rfl⟩ := Language.mem_mul.mp member
    have plain : run ++ [] ∈ numbers :=
      Language.append_mem_mul (.inl whole) (mem_optional.mpr (.inl rfl))
    rw [List.append_nil] at plain
    exact Language.append_mem_mul plain (mem_optional.mpr (.inr marked))

theorem numbers_unsigned (member : word ∈ numbers) : Breaks (· ∈ signs) word := by
  obtain ⟨_, either, power, -, rfl⟩ := Language.mem_mul.mp member
  rcases either with whole | dotted | dotted
  · exact digits_unsigned whole power
  · obtain ⟨_, rfl, run, -, rfl⟩ := Language.mem_mul.mp dotted
    exact breaks_cons.mpr (by decide)
  · obtain ⟨_, first, part, -, rfl⟩ := Language.mem_mul.mp dotted
    obtain ⟨run, whole, point, -, rfl⟩ := Language.mem_mul.mp first
    rw [List.append_assoc, List.append_assoc]
    exact digits_unsigned whole _

theorem digits_append {more : List Char} (member : run ∈ digits) (all : ∀ c ∈ more, Digit c) :
    run ++ more ∈ digits := by
  obtain ⟨nonempty, allRun⟩ := mem_digits.mp member
  exact mem_digits.mpr ⟨by simp [nonempty], List.forall_mem_append.mpr ⟨allRun, all⟩⟩

theorem pointed_append {more : List Char} (member : mantissa ∈ pointed)
    (all : ∀ c ∈ more, Digit c) : mantissa ++ more ∈ pointed := by
  rcases (Language.mem_add _ _ _).mp member with dotted | dotted
  all_goals
    obtain ⟨lead, leading, run, whole, rfl⟩ := Language.mem_mul.mp dotted
    rw [List.append_assoc]
  · exact .inl (Language.append_mem_mul leading (digits_append whole all))
  · exact .inr (Language.append_mem_mul leading (digits_append whole all))

theorem exponent_begins (member : word ∈ exponents) (rest : List Char) :
    ¬ Breaks (· ∈ exponentMarks) (word ++ rest) := by
  obtain ⟨_, lead, run, -, rfl⟩ := Language.mem_mul.mp member
  obtain ⟨_, ⟨e, mark, rfl⟩, sign, -, rfl⟩ := Language.mem_mul.mp lead
  rw [not_breaks_iff]
  exact ⟨e, sign ++ run ++ rest, by simp, mark⟩

theorem ending_breaks (member : word ∈ endings) (nonempty : word ≠ []) (rest : List Char) :
    Breaks Digit (word ++ rest) := by
  obtain ⟨power, powerMember, mark, marked, rfl⟩ := Language.mem_mul.mp member
  rcases mem_optional.mp powerMember with rfl | powerMember
  · rcases mem_optional.mp marked with rfl | ⟨c, listed, rfl⟩
    · contradiction
    · exact breaks_cons.mpr (realMark_apart c listed).2.2
  · rw [List.append_assoc]
    obtain ⟨e, tail, equal, listed⟩ :=
      not_breaks_iff.mp (exponent_begins powerMember (mark ++ rest))
    rw [equal]
    exact breaks_cons.mpr (exponentMark_apart e listed).2.2

theorem real_reads (text : List Char) : Reads .real text (real text) where
  sound := by
    intro length other accepted
    generalize equal : Proposal.accept length other = proposal at accepted
    cases real_eq_some.mp accepted with
    | @pointed mantissa rest member stop =>
        obtain ⟨rfl, word, more, rfl, ending, total, -⟩ := finishReal_accept equal.symm
        refine ⟨rfl, mantissa ++ word, more, by simp, ?_, by simp [total]⟩
        exact mem_reals.mpr (.inl (Language.append_mem_mul member ending))
    | @powered run rest member begun =>
        obtain ⟨rfl, word, more, rfl, -, total, power⟩ := finishReal_accept equal.symm
        refine ⟨rfl, run ++ word, more, by simp, ?_, by simp [total]⟩
        exact mem_reals.mpr (.inr (.inl (Language.append_mem_mul member (power begun))))
    | @marked run rest c member mark =>
        cases equal
        refine ⟨rfl, run ++ [c], rest, by simp, ?_, by simp⟩
        exact mem_reals.mpr (.inr (.inr (Language.append_mem_mul member ⟨c, mark, rfl⟩)))
    | bare => cases equal
  covers := by
    rintro word rest rfl member
    rcases mem_reals.mp member with member | member | member
    · obtain ⟨mantissa, dotted, ending, ends, rfl⟩ := Language.mem_mul.mp member
      rw [List.append_assoc]
      by_cases plain : ending = []
      · -- Without an ending, the fraction may go on in what follows.
        subst plain
        obtain ⟨more, rest, rfl, all, stop⟩ := exists_run Digit rest
        have found := real_pointed (pointed_append dotted all) stop
        rw [List.append_assoc] at found
        refine ⟨_, found, ?_⟩
        have bound := le_finishReal (mantissa ++ more) rest
        simp only [List.append_assoc, List.length_append, List.append_nil] at bound ⊢
        omega
      · refine ⟨_, real_pointed dotted (ending_breaks ends plain rest), ?_⟩
        simpa using finishReal_covers mantissa ends rest
    · obtain ⟨run, whole, _, powered, rfl⟩ := Language.mem_mul.mp member
      obtain ⟨power, powerMember, mark, marked, rfl⟩ := Language.mem_mul.mp powered
      have ends : power ++ mark ∈ endings :=
        Language.append_mem_mul (mem_optional.mpr (.inr powerMember)) marked
      rw [List.append_assoc]
      refine ⟨_, real_powered whole ?_, by simpa using finishReal_covers run ends rest⟩
      rw [List.append_assoc]
      exact exponent_begins powerMember (mark ++ rest)
    · obtain ⟨run, whole, _, ⟨c, mark, rfl⟩, rfl⟩ := Language.mem_mul.mp member
      rw [List.append_assoc]
      exact ⟨_, real_marked whole mark, by simp [Proposal.length]⟩

end ExprLex.Grammar
