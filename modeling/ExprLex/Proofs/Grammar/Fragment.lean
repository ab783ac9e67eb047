import ExprLex.Proofs.Grammar.Separation

namespace ExprLex
open Computability Grammar Rule

variable {kind : Kind} {text word rest more : List Char} {l m : Language Char}
  {reason spelling : String} {quote : Char} {length : Nat}

namespace Grammar

def beginnings (l : Language Char) : Language Char := {text | ∃ rest, text ++ rest ∈ l}

theorem mem_beginnings (begins : text <+: word) (member : word ∈ l) :
    text ∈ beginnings l := by
  obtain ⟨rest, rfl⟩ := begins
  exact ⟨rest, member⟩

theorem beginnings_add (member : text ∈ beginnings (l + m)) :
    text ∈ beginnings l ∨ text ∈ beginnings m := by
  obtain ⟨rest, whole⟩ := member
  exact ((Language.mem_add _ _ _).mp whole).imp (⟨rest, ·⟩) (⟨rest, ·⟩)

theorem beginnings_mul (member : text ∈ beginnings (l * m)) :
    text ∈ beginnings l ∨ text ∈ l * beginnings m := by
  obtain ⟨rest, whole⟩ := member
  obtain ⟨first, firstMember, second, secondMember, equal⟩ := Language.mem_mul.mp whole
  rcases List.append_eq_append_iff.mp equal with ⟨tail, rfl, rfl⟩ | ⟨tail, rfl, rfl⟩
  · exact .inr (Language.append_mem_mul firstMember ⟨rest, secondMember⟩)
  · exact .inl ⟨tail, firstMember⟩

theorem beginnings_oneOf {p : Char → Prop} (member : text ∈ beginnings (oneOf p)) :
    text = [] ∨ text ∈ oneOf p := by
  obtain ⟨rest, c, accepted, equal⟩ := member
  cases text with
  | nil => exact .inl rfl
  | cons d text =>
      obtain ⟨rfl, tail⟩ := List.cons.inj equal
      obtain ⟨rfl, -⟩ := List.append_eq_nil_iff.mp tail
      exact .inr ⟨d, accepted, rfl⟩

theorem beginnings_many {p : Char → Prop} (member : text ∈ beginnings (many (oneOf p))) :
    text = [] ∨ text ∈ many (oneOf p) := by
  obtain ⟨rest, whole⟩ := member
  obtain ⟨-, all⟩ := mem_many_oneOf.mp whole
  by_cases empty : text = []
  · exact .inl empty
  · exact .inr (mem_many_oneOf.mpr ⟨empty, fun c listed => all c (List.mem_append_left _ listed)⟩)

theorem beginnings_digits (member : text ∈ beginnings digits) : text = [] ∨ text ∈ digits :=
  beginnings_many member

theorem beginnings_mark {p : Char → Prop} (member : text ∈ beginnings (optional (oneOf p))) :
    text ∈ optional (oneOf p) := by
  obtain ⟨rest, whole⟩ := member
  rcases mem_optional.mp whole with empty | whole
  · exact mem_optional.mpr (.inl (List.append_eq_nil_iff.mp empty).1)
  · exact mem_optional.mpr (beginnings_oneOf ⟨rest, whole⟩)

theorem beginnings_just {c : Char} (member : text ∈ beginnings (just [c])) :
    text = [] ∨ text = [c] := by
  obtain ⟨rest, whole⟩ := member
  rcases beginnings_oneOf (p := (· = c)) ⟨rest, c, rfl, whole⟩ with empty | ⟨_, rfl, same⟩
  · exact .inl empty
  · exact .inr same

theorem beginnings_star (member : text ∈ beginnings l∗) :
    text = [] ∨ ∃ whole ∈ l∗, ∃ cut ∈ beginnings l, text = whole ++ cut := by
  obtain ⟨rest, words, equal, all⟩ := member
  induction words generalizing text with
  | nil => exact .inl (List.append_eq_nil_iff.mp equal).1
  | cons word words ih =>
      obtain ⟨first, all⟩ := List.forall_mem_cons.mp all
      rw [List.flatten_cons] at equal
      rcases List.append_eq_append_iff.mp equal with ⟨tail, rfl, -⟩ | ⟨tail, rfl, behind⟩
      · exact .inr ⟨[], Language.nil_mem_kstar _, text, ⟨tail, first⟩, rfl⟩
      · rcases ih behind.symm all with rfl | ⟨whole, wholeMember, cut, cutMember, rfl⟩
        · rw [List.append_nil]
          exact .inr ⟨[], Language.nil_mem_kstar _, word, ⟨[], by rwa [List.append_nil]⟩, rfl⟩
        · refine .inr ⟨word ++ whole, ?_, cut, cutMember, (List.append_assoc ..).symm⟩
          exact mem_star.mpr (.inr ⟨word, first, whole, wholeMember, rfl⟩)

theorem star_append (whole : text ∈ l∗) (part : word ∈ l) : text ++ word ∈ l∗ := by
  have both : text ++ word ∈ l∗ * l := Language.append_mem_mul whole part
  exact kstar_mul_le_kstar (a := l) both

/-- What a text can be that one lexeme or one flawed literal begins with. -/
inductive Fragment : List Char → Prop
  | lexeme {text : List Char} (kind : Kind) (member : text ∈ kind.language) : Fragment text
  | malformed {text word : List Char} {reason : String} (malformed : Malformed text word reason) :
      Fragment text
  | unclosed {text word : List Char} {quote : Char} (unclosed : Unclosed text word quote) :
      Fragment text
  | escaped (name : List Char) (member : name = [] ∨ name ∈ identifiers) :
      Fragment (name ++ ['\\'])

def exponentLeads : Language Char :=
  oneOf (· ∈ ['E', 'e']) * optional (oneOf (· ∈ ['+', '-']))

theorem beginnings_leads (member : text ∈ beginnings exponentLeads) :
    text = [] ∨ text ∈ exponentLeads := by
  rcases beginnings_mul member with member | member
  · refine (beginnings_oneOf member).imp_right fun mark => ?_
    rw [← List.append_nil text]
    exact Language.append_mem_mul mark (mem_optional.mpr (.inl rfl))
  · obtain ⟨mark, marked, sign, signed, rfl⟩ := Language.mem_mul.mp member
    exact .inr (Language.append_mem_mul marked (beginnings_mark signed))

theorem beginnings_exponents (member : text ∈ beginnings exponents) :
    text = [] ∨ text ∈ exponentLeads ∨ text ∈ exponents := by
  rcases beginnings_mul member with member | member
  · exact (beginnings_leads member).imp_right .inl
  · obtain ⟨lead, leading, run, cut, rfl⟩ := Language.mem_mul.mp member
    rcases beginnings_digits cut with rfl | whole
    · rw [List.append_nil]
      exact .inr (.inl leading)
    · exact .inr (.inr (Language.append_mem_mul leading whole))

theorem digits_fragment (member : text ∈ digits) : Fragment text := by
  rw [← List.append_nil text]
  exact .lexeme .integer
    (Language.append_mem_mul member (mem_optional.mpr (.inl rfl)))

theorem leads_fragment (member : word ∈ mantissas) (leading : rest ∈ exponentLeads) :
    Fragment (word ++ rest) := by
  obtain ⟨_, ⟨e, mark, rfl⟩, sign, signed, rfl⟩ := Language.mem_mul.mp leading
  have malformed : Malformed (word ++ e :: (sign ++ [])) _ _ :=
    .exponent member mark signed (fun _ => breaks_nil) breaks_nil
  rw [List.append_nil] at malformed
  exact .malformed malformed

theorem mem_reals_pointed (member : word ∈ pointed) : word ∈ reals := by
  have bare : [] ∈ endings :=
    Language.append_mem_mul (a := []) (mem_optional.mpr (.inl rfl)) (mem_optional.mpr (.inl rfl))
  rw [← List.append_nil word]
  exact mem_reals.mpr (.inl (Language.append_mem_mul member bare))

theorem dotted_fragment (member : text ∈ beginnings (digits * just ['.'])) (nonempty : text ≠ []) :
    Fragment text := by
  rcases beginnings_mul member with member | member
  · exact digits_fragment ((beginnings_digits member).resolve_left nonempty)
  · obtain ⟨run, whole, point, cut, rfl⟩ := Language.mem_mul.mp member
    rcases beginnings_just cut with rfl | rfl
    · rw [List.append_nil]
      exact digits_fragment whole
    · exact .malformed (.fraction whole breaks_nil)

theorem pointed_fragment (member : text ∈ beginnings pointed) (nonempty : text ≠ []) :
    Fragment text := by
  have real {text : List Char} (whole : text ∈ pointed) : Fragment text :=
    .lexeme .real (mem_reals_pointed whole)
  rcases beginnings_add member with member | member
  · rcases beginnings_mul member with member | member
    · exact .lexeme .dot ((beginnings_just member).resolve_left nonempty)
    · obtain ⟨_, rfl, run, cut, rfl⟩ := Language.mem_mul.mp member
      rcases beginnings_digits cut with rfl | whole
      · exact .lexeme .dot rfl
      · exact real (.inl (Language.append_mem_mul (mem_just.mpr rfl) whole))
  · rcases beginnings_mul member with member | member
    · exact dotted_fragment member nonempty
    · obtain ⟨lead, leading, part, cut, rfl⟩ := Language.mem_mul.mp member
      rcases beginnings_digits cut with rfl | whole
      · rw [List.append_nil] at nonempty ⊢
        exact dotted_fragment ⟨[], by rwa [List.append_nil]⟩ nonempty
      · exact real (.inr (Language.append_mem_mul leading whole))

theorem mantissa_fragment (member : word ∈ mantissas) : Fragment word := by
  rcases (Language.mem_add _ _ _).mp member with whole | dotted
  · exact digits_fragment whole
  · exact .lexeme .real (mem_reals_pointed dotted)

theorem scientific_fragment (member : text ∈ beginnings (mantissas * exponentLeads))
    (nonempty : text ≠ []) : Fragment text := by
  rcases beginnings_mul member with member | member
  · rcases beginnings_add member with whole | dotted
    · exact digits_fragment ((beginnings_digits whole).resolve_left nonempty)
    · exact pointed_fragment dotted nonempty
  · obtain ⟨mantissa, whole, lead, cut, rfl⟩ := Language.mem_mul.mp member
    rcases beginnings_leads cut with rfl | leading
    · rw [List.append_nil]
      exact mantissa_fragment whole
    · exact leads_fragment whole leading

theorem mem_reals_powered (member : word ∈ mantissas)
    (powered : rest ∈ exponents * optional typeMarks) : word ++ rest ∈ reals := by
  rcases (Language.mem_add _ _ _).mp member with whole | dotted
  · exact mem_reals.mpr (.inr (.inl (Language.append_mem_mul whole powered)))
  · obtain ⟨power, powerMember, mark, marked, rfl⟩ := Language.mem_mul.mp powered
    have ends : power ++ mark ∈ endings :=
      Language.append_mem_mul (mem_optional.mpr (.inr powerMember)) marked
    exact mem_reals.mpr (.inl (Language.append_mem_mul dotted ends))

theorem powered_fragment (member : word ∈ mantissas)
    (cut : rest ∈ beginnings (exponents * optional typeMarks)) : Fragment (word ++ rest) := by
  have whole {rest : List Char} (powered : rest ∈ exponents * optional typeMarks) :
      Fragment (word ++ rest) := .lexeme .real (mem_reals_powered member powered)
  rcases beginnings_mul cut with cut | cut
  · rcases beginnings_exponents cut with rfl | leading | power
    · rw [List.append_nil]
      exact mantissa_fragment member
    · exact leads_fragment member leading
    · rw [← List.append_nil rest]
      exact whole (Language.append_mem_mul power (mem_optional.mpr (.inl rfl)))
  · obtain ⟨power, powerMember, mark, marked, rfl⟩ := Language.mem_mul.mp cut
    exact whole (Language.append_mem_mul powerMember (beginnings_mark marked))

theorem endings_eq : endings = optional typeMarks + exponents * optional typeMarks := by
  rw [endings, optional, add_mul, one_mul]

theorem reals_fragment (member : text ∈ beginnings reals) (nonempty : text ≠ []) :
    Fragment text := by
  obtain ⟨rest, whole⟩ := member
  rcases mem_reals.mp whole with member | member | member
  · rcases beginnings_mul ⟨rest, member⟩ with member | member
    · exact pointed_fragment member nonempty
    · obtain ⟨mantissa, dotted, ending, cut, rfl⟩ := Language.mem_mul.mp member
      rw [endings_eq] at cut
      rcases beginnings_add cut with marked | powered
      · have ends : [] ++ ending ∈ endings :=
          Language.append_mem_mul (mem_optional.mpr (.inl rfl)) (beginnings_mark marked)
        exact .lexeme .real
          (mem_reals.mpr (.inl (Language.append_mem_mul dotted ends)))
      · exact powered_fragment (.inr dotted) powered
  · rcases beginnings_mul ⟨rest, member⟩ with member | member
    · exact digits_fragment ((beginnings_digits member).resolve_left nonempty)
    · obtain ⟨run, digital, ending, powered, rfl⟩ := Language.mem_mul.mp member
      exact powered_fragment (.inl digital) powered
  · rcases beginnings_mul ⟨rest, member⟩ with member | member
    · exact digits_fragment ((beginnings_digits member).resolve_left nonempty)
    · obtain ⟨run, digital, mark, cut, rfl⟩ := Language.mem_mul.mp member
      rcases beginnings_oneOf cut with rfl | marked
      · rw [List.append_nil]
        exact digits_fragment digital
      · exact .lexeme .real
          (mem_reals.mpr (.inr (.inr (Language.append_mem_mul digital marked))))

theorem integers_fragment (member : text ∈ beginnings integers) (nonempty : text ≠ []) :
    Fragment text := by
  rcases beginnings_mul member with member | member
  · exact digits_fragment ((beginnings_digits member).resolve_left nonempty)
  · obtain ⟨run, whole, mark, cut, rfl⟩ := Language.mem_mul.mp member
    exact .lexeme .integer (Language.append_mem_mul whole (beginnings_mark cut))

theorem zero_mem_digits : ['0'] ∈ digits := mem_digits.mpr ⟨by simp, by simp [digit_iff]⟩

theorem hexPrefix_fragment (member : text ∈ beginnings (just ['0'] * oneOf (· ∈ ['x', 'X'])))
    (nonempty : text ≠ []) : Fragment text := by
  rcases beginnings_mul member with member | member
  · obtain rfl := (beginnings_just member).resolve_left nonempty
    exact digits_fragment zero_mem_digits
  · obtain ⟨_, rfl, mark, cut, rfl⟩ := Language.mem_mul.mp member
    rcases beginnings_oneOf cut with rfl | ⟨x, marked, rfl⟩
    · exact digits_fragment zero_mem_digits
    · exact .malformed (.hexDigits marked breaks_nil)

theorem hexIntegers_fragment (member : text ∈ beginnings hexIntegers) (nonempty : text ≠ []) :
    Fragment text := by
  rcases beginnings_mul member with member | member
  · rcases beginnings_mul member with member | member
    · exact hexPrefix_fragment member nonempty
    · obtain ⟨lead, leading, run, cut, rfl⟩ := Language.mem_mul.mp member
      rcases beginnings_many cut with rfl | whole
      · rw [List.append_nil] at nonempty ⊢
        exact hexPrefix_fragment ⟨[], by rwa [List.append_nil]⟩ nonempty
      · rw [← List.append_nil (lead ++ run)]
        exact .lexeme .hexInteger (Language.append_mem_mul
          (Language.append_mem_mul leading whole) (mem_optional.mpr (.inl rfl)))
  · obtain ⟨lead, leading, mark, cut, rfl⟩ := Language.mem_mul.mp member
    exact .lexeme .hexInteger (Language.append_mem_mul leading (beginnings_mark cut))

theorem Malformed.fragment (malformed : Malformed text word reason) (begins : rest <+: word)
    (nonempty : rest ≠ []) : Fragment rest := by
  cases malformed with
  | hexDigits mark stop =>
      exact hexPrefix_fragment (mem_beginnings begins
        (Language.append_mem_mul (a := ['0']) rfl ⟨_, mark, rfl⟩)) nonempty
  | fraction member stop =>
      exact dotted_fragment (mem_beginnings begins
        (Language.append_mem_mul member (mem_just.mpr rfl))) nonempty
  | @exponent mantissa sign tail e member mark signed taken stop =>
      have leading : e :: sign ∈ exponentLeads :=
        Language.append_mem_mul (a := [e]) ⟨e, mark, rfl⟩ signed
      exact scientific_fragment (mem_beginnings begins
        (Language.append_mem_mul member leading)) nonempty

theorem beginnings_nameParts (member : text ∈ beginnings namePart∗) :
    text ∈ namePart∗ ∨ ∃ name ∈ namePart∗, text = name ++ ['\\'] := by
  rcases beginnings_star member with rfl | ⟨name, whole, part, cut, rfl⟩
  · exact .inl (Language.nil_mem_kstar _)
  · have longer {part : List Char} (added : part ∈ namePart) : name ++ part ∈ namePart∗ :=
      star_append whole added
    rcases beginnings_add cut with cut | ⟨rest, escape⟩
    · rcases beginnings_oneOf cut with rfl | accepted
      · rw [List.append_nil]
        exact .inl whole
      · exact .inl (longer (.inl accepted))
    · cases part with
      | nil =>
          rw [List.append_nil]
          exact .inl whole
      | cons c part =>
          obtain ⟨rfl, tail⟩ := List.cons.inj escape
          rcases beginnings_just ⟨rest, tail⟩ with rfl | rfl
          · exact .inr ⟨name, whole, rfl⟩
          · exact .inl (longer (.inr rfl))

theorem identifiers_fragment (member : text ∈ beginnings identifiers) (nonempty : text ≠ []) :
    Fragment text := by
  rcases beginnings_mul member with member | member
  · obtain ⟨c, start, rfl⟩ := (beginnings_oneOf member).resolve_left nonempty
    exact .lexeme .identifier
      (Language.append_mem_mul (a := [c]) ⟨c, start, rfl⟩ (Language.nil_mem_kstar _))
  · obtain ⟨first, start, parts, cut, rfl⟩ := Language.mem_mul.mp member
    rcases beginnings_nameParts cut with whole | ⟨name, whole, rfl⟩
    · exact .lexeme .identifier (Language.append_mem_mul start whole)
    · rw [← List.append_assoc]
      exact .escaped _ (.inr (Language.append_mem_mul start whole))

theorem beginnings_stringPart {doubling : Bool}
    (member : text ∈ beginnings (stringPart quote doubling)) :
    text = [] ∨ text ∈ stringPart quote doubling ∨ text = [quote] := by
  obtain ⟨rest, whole⟩ := member
  cases text with
  | nil => exact .inl rfl
  | cons c text =>
      right
      cases text with
      | nil =>
          rcases mem_stringPart.mp whole with ⟨d, other, quotable, equal⟩ | ⟨-, equal⟩
          · obtain ⟨rfl, -⟩ := List.cons.inj equal
            exact .inl (mem_stringPart.mpr (.inl ⟨c, other, quotable, rfl⟩))
          · obtain ⟨rfl, -⟩ := List.cons.inj equal
            exact .inr rfl
      | cons d text =>
          left
          have tail : text ++ rest = [] := by
            rcases mem_stringPart.mp whole with ⟨_, -, -, equal⟩ | ⟨-, equal⟩
            · cases equal
            · exact (List.cons.inj (List.cons.inj equal).2).2
          obtain ⟨rfl, rfl⟩ := List.append_eq_nil_iff.mp tail
          rwa [List.append_nil] at whole

section
variable {doubling : Bool} (kind : Kind) (spelled : kind.language = strings quote doubling)
  (unclosed : ∀ body ∈ (stringPart quote doubling)∗, Fragment (quote :: body))
include spelled unclosed

theorem opened_fragment
    (member : text ∈ beginnings (just [quote] * (stringPart quote doubling)∗))
    (nonempty : text ≠ []) : Fragment text := by
  have opened : Fragment [quote] := unclosed [] (Language.nil_mem_kstar _)
  rcases beginnings_mul member with member | member
  · obtain rfl := (beginnings_just member).resolve_left nonempty
    exact opened
  · obtain ⟨_, rfl, body, inside, rfl⟩ := Language.mem_mul.mp member
    rcases beginnings_star inside with rfl | ⟨whole, parts, part, cut, rfl⟩
    · exact opened
    · rcases beginnings_stringPart cut with rfl | added | rfl
      · rw [List.append_nil]
        exact unclosed whole parts
      · exact unclosed (whole ++ part) (star_append parts added)
      · -- Between two quotes that stand for one, the text ends like a string.
        refine .lexeme kind ?_
        rw [spelled, ← List.append_assoc]
        exact Language.append_mem_mul (Language.append_mem_mul rfl parts) rfl

theorem strings_fragment (member : text ∈ beginnings (strings quote doubling))
    (nonempty : text ≠ []) : Fragment text := by
  rcases beginnings_mul member with member | member
  · exact opened_fragment kind spelled unclosed member nonempty
  · obtain ⟨opened, body, mark, cut, rfl⟩ := Language.mem_mul.mp member
    rcases beginnings_just cut with rfl | rfl
    · rw [List.append_nil] at nonempty ⊢
      exact opened_fragment kind spelled unclosed ⟨[], by rwa [List.append_nil]⟩ nonempty
    · refine .lexeme kind ?_
      rw [spelled]
      exact Language.append_mem_mul body rfl

end

theorem single_fragment (body : List Char) (member : body ∈ (stringPart '\x27' true)∗) :
    Fragment ('\x27' :: body) := by
  have unclosed : Unclosed ('\x27' :: (body ++ [])) _ _ := .single member (.inl rfl)
  rw [List.append_nil] at unclosed
  exact .unclosed unclosed

theorem double_fragment (body : List Char) (member : body ∈ (stringPart '"' false)∗) :
    Fragment ('"' :: body) := by
  have unclosed : Unclosed ('"' :: (body ++ [])) _ _ := .double member (.inl rfl)
  rw [List.append_nil] at unclosed
  exact .unclosed unclosed

theorem Unclosed.fragment (unclosed : Unclosed text word quote) (begins : rest <+: word)
    (nonempty : rest ≠ []) : Fragment rest := by
  cases unclosed with
  | @single body tail member barred =>
      have whole : '\x27' :: body ∈ just ['\x27'] * (stringPart '\x27' true)∗ :=
        Language.append_mem_mul (a := ['\x27']) rfl member
      exact opened_fragment .singleQuoted rfl single_fragment
        (mem_beginnings begins whole) nonempty
  | @double body tail member barred =>
      have whole : '"' :: body ∈ just ['"'] * (stringPart '"' false)∗ :=
        Language.append_mem_mul (a := ['"']) rfl member
      exact opened_fragment .doubleQuoted rfl double_fragment
        (mem_beginnings begins whole) nonempty

theorem nameParts_of_start (all : ∀ c ∈ text, isNameStart c = true) : text ∈ namePart∗ := by
  induction text with
  | nil => exact Language.nil_mem_kstar _
  | cons c text ih =>
      obtain ⟨start, all⟩ := List.forall_mem_cons.mp all
      have part : isNamePart c = true := by
        rw [← namePart_iff]
        exact ((nameStart_iff c).mpr start).imp_right .inr
      exact mem_nameParts.mpr (.inr (.inl ⟨c, text, part, ih all, rfl⟩))

theorem name_fragment (all : ∀ c ∈ text, isNameStart c = true) (nonempty : text ≠ []) :
    Fragment text := by
  obtain ⟨c, text, rfl⟩ := List.exists_cons_of_ne_nil nonempty
  obtain ⟨start, all⟩ := List.forall_mem_cons.mp all
  exact .lexeme .identifier (Language.append_mem_mul (a := [c])
    ⟨c, (nameStart_iff c).mpr start, rfl⟩ (nameParts_of_start all))

theorem head_fragment {c : Char} (opened : kind.opens c = true) : Fragment [c] := by
  by_cases plain : c = '\\'
  · subst plain
    exact .escaped [] (.inl rfl)
  · rcases opens_alone opened plain with ⟨kind, member⟩ | quoted
    · exact .lexeme kind member
    · rcases List.mem_pair.mp quoted with rfl | rfl
      · exact single_fragment [] (Language.nil_mem_kstar _)
      · exact double_fragment [] (Language.nil_mem_kstar _)

theorem reserved_name (fixed : kind.fixedText = some spelling) (reserved : kind.isReserved = true) :
    ∀ c ∈ spelling.toList, isNameStart c = true := by
  cases kind <;> cases reserved <;> cases fixed <;> exact forall_listed (by decide)

theorem fixedText_short (fixed : kind.fixedText = some spelling)
    (free : kind.isReserved = false) : spelling.toList.length ≤ 2 := by
  cases kind <;> cases free <;> cases fixed <;> decide

theorem fixed_fragment (fixed : kind.fixedText = some spelling) (begins : text <+: spelling.toList)
    (nonempty : text ≠ []) : Fragment text := by
  cases reserved : kind.isReserved with
  | true =>
      have name := reserved_name fixed reserved
      exact name_fragment (fun c listed => name c (begins.subset listed)) nonempty
  | false =>
    have short := fixedText_short fixed reserved
    obtain ⟨c, tail, rfl⟩ := List.exists_cons_of_ne_nil nonempty
    obtain ⟨rest, equal⟩ := begins
    cases tail with
    | nil =>
        have opened : kind.opens c = true := by
          rw [(opens_fixed fixed c).2, ← equal]
          exact beq_self_eq_true _
        exact head_fragment opened
    | cons d tail =>
        have done : rest = [] := by
          rw [← equal] at short
          simp only [List.cons_append, List.length_cons, List.length_append] at short
          exact List.length_eq_zero_iff.mp (by omega)
        refine .lexeme kind ?_
        rw [language_fixed fixed, mem_just, ← equal, done, List.append_nil]

theorem language_fragment (member : text ∈ beginnings kind.language) (nonempty : text ≠ []) :
    Fragment text := by
  cases fixed : kind.fixedText with
  | some spelling =>
      rw [language_fixed fixed] at member
      exact fixed_fragment fixed member nonempty
  | none =>
      cases kind
      case integer => exact integers_fragment member nonempty
      case hexInteger => exact hexIntegers_fragment member nonempty
      case real => exact reals_fragment member nonempty
      case singleQuoted =>
        exact strings_fragment .singleQuoted rfl single_fragment member nonempty
      case doubleQuoted =>
        exact strings_fragment .doubleQuoted rfl double_fragment member nonempty
      case identifier => exact identifiers_fragment member nonempty
      case whitespace =>
        exact .lexeme .whitespace ((beginnings_many member).resolve_left nonempty)
      case endOfInput =>
        obtain ⟨rest, whole⟩ := member
        exact absurd whole (Language.notMem_zero _)
      all_goals cases fixed

end Grammar

namespace Grammar

theorem Fragment.unparted (fragment : Fragment (word ++ rest))
    (chosen : choice (word ++ rest) = some (.accept word.length kind)) :
    rest = [] ∨ choice rest = none := by
  generalize whole : word ++ rest = text at fragment chosen
  cases fragment with
  | lexeme kind member =>
      rw [← List.append_nil text] at chosen
      have long := choice_long member chosen
      rw [← whole, List.length_append, Proposal.length_accept] at long
      exact .inl (List.length_eq_zero_iff.mp (by omega))
  | malformed malformed => cases (choice_malformed malformed).symm.trans chosen
  | unclosed unclosed => cases (choice_unclosed unclosed).symm.trans chosen
  | escaped name member =>
      -- The name is read at least, and behind it there is at most the backslash.
      have nothing : choice ['\\'] = none := choice_eq_none_iff.mpr (foreign_iff.mpr (by simp))
      have long : name.length ≤ word.length := by
        rcases member with rfl | member
        · exact Nat.zero_le _
        · exact choice_long (show name ∈ Kind.identifier.language from member) chosen
      obtain ⟨tail, rfl⟩ := List.prefix_of_prefix_length_le (List.prefix_append name ['\\'])
        (whole ▸ List.prefix_append word rest) long
      rw [List.append_assoc, List.append_cancel_left_eq] at whole
      cases tail with
      | nil =>
          rw [List.nil_append] at whole
          exact .inr (whole ▸ nothing)
      | cons c tail =>
          obtain ⟨-, empty⟩ := List.cons.inj whole
          exact .inl (List.append_eq_nil_iff.mp empty).2

theorem Breaks.left {p : Char → Prop} (stop : Breaks p (rest ++ more)) : Breaks p rest := by
  cases rest with
  | nil => exact breaks_nil
  | cons c rest => exact breaks_cons.mpr (breaks_cons.mp stop)

theorem Malformed.cut (malformed : Malformed (word ++ (rest ++ more)) word reason) :
    Malformed (word ++ rest) word reason := by
  generalize whole : word ++ (rest ++ more) = text at malformed
  cases malformed with
  | @hexDigits x tail mark stop =>
      obtain rfl : rest ++ more = tail := (List.append_right_inj ['0', x]).mp whole
      exact .hexDigits mark stop.left
  | @fraction run tail member stop =>
      rw [List.append_assoc] at whole ⊢
      rw [List.append_cancel_left_eq] at whole
      obtain rfl : rest ++ more = tail := (List.cons.inj whole).2
      exact .fraction member stop.left
  | @exponent mantissa sign tail e member mark signed taken stop =>
      rw [List.append_assoc] at whole ⊢
      rw [List.append_cancel_left_eq] at whole
      obtain rfl : rest ++ more = tail :=
        (List.append_right_inj sign).mp (List.cons.inj whole).2
      exact .exponent member mark signed (fun bare => (taken bare).left) stop.left

theorem Unclosed.cut (unclosed : Unclosed (word ++ (rest ++ more)) word quote) :
    Unclosed (word ++ rest) word quote := by
  have barred (cut : rest ++ more = [] ∨ (rest ++ more).head? = some '\uffff') :
      rest = [] ∨ rest.head? = some '\uffff' := by
    cases rest with
    | nil => exact .inl rfl
    | cons c rest => exact cut.imp_left nofun
  generalize whole : word ++ (rest ++ more) = text at unclosed
  cases unclosed with
  | @single body tail member stop =>
      obtain rfl : rest ++ more = tail :=
        (List.append_right_inj body).mp (List.cons.inj whole).2
      exact .single member (barred stop)
  | @double body tail member stop =>
      obtain rfl : rest ++ more = tail :=
        (List.append_right_inj body).mp (List.cons.inj whole).2
      exact .double member (barred stop)

end Grammar

namespace Rule

theorem readable_nonempty (readable : choice text ≠ none) : text ≠ [] := by
  rintro rfl
  exact readable rfl

section
variable (chosen : choice (word ++ rest) = some (.accept word.length kind))
  (readable : choice rest ≠ none)
include chosen readable

theorem not_fragment : ¬ Fragment (word ++ rest) := by
  intro fragment
  exact (fragment.unparted chosen).elim (readable_nonempty readable) readable

theorem accept_append {length : Nat} {other : Kind}
    (found : choice (word ++ rest ++ more) = some (.accept length other)) :
    length = word.length ∧ other = kind := by
  have owned := owns_of_choice chosen
  rw [List.append_assoc] at found
  have long := choice_long owned.1 found
  obtain ⟨read, tail, split, member, rfl, nonempty⟩ := choice_lexeme found
  rw [split] at found
  rw [← List.append_assoc] at split
  rcases List.prefix_or_prefix_of_prefix ⟨tail, split.symm⟩ (List.prefix_append (word ++ rest) more)
    with ⟨behind, equal⟩ | beyond
  · -- What is read was there before, so it is no longer than the lexeme.
    rw [← equal] at chosen
    have short := choice_long member chosen
    rw [Proposal.length_accept] at short
    obtain ⟨rfl, -⟩ := List.append_inj equal (Nat.le_antisymm short long)
    exact ⟨rfl, (owns_of_choice found).unique owned⟩
  · have begun : word ++ rest ≠ [] := by simp [readable_nonempty readable]
    have fragment := language_fragment (mem_beginnings beyond member) begun
    exact absurd fragment (not_fragment chosen readable)

theorem reject_append {flaw : Flaw} {length : Nat} :
    choice (word ++ rest ++ more) ≠ some (.reject length flaw) := by
  intro found
  have begun : word ++ rest ≠ [] := by simp [readable_nonempty readable]
  have held := List.prefix_append (word ++ rest) more
  rcases flaw_of_choice found with ⟨-, part, reason, malformed, -⟩ |
    ⟨-, part, quote, unclosed, -⟩
  · rcases List.prefix_or_prefix_of_prefix malformed.begins held with ⟨behind, equal⟩ | beyond
    · rw [← equal, List.append_assoc] at malformed
      rw [← equal] at chosen
      cases (choice_malformed malformed.cut).symm.trans chosen
    · exact not_fragment chosen readable (malformed.fragment beyond begun)
  · rcases List.prefix_or_prefix_of_prefix unclosed.begins held with ⟨behind, equal⟩ | beyond
    · rw [← equal, List.append_assoc] at unclosed
      rw [← equal] at chosen
      cases (choice_unclosed unclosed.cut).symm.trans chosen
    · exact not_fragment chosen readable (unclosed.fragment beyond begun)

theorem choice_append (more : List Char) :
    choice (word ++ rest ++ more) = some (.accept word.length kind) := by
  cases found : choice (word ++ rest ++ more) with
  | none =>
      have foreign := choice_eq_none_iff.mp found
      have begins : word <+: word ++ rest ++ more := ⟨rest ++ more, (List.append_assoc ..).symm⟩
      exact absurd (owns_of_choice chosen).1 (foreign.1 kind word begins)
  | some proposal =>
      cases proposal with
      | accept length other =>
          obtain ⟨rfl, rfl⟩ := accept_append chosen readable found
          rfl
      | reject length flaw => exact absurd found (reject_append chosen readable)

end

end Rule
end ExprLex
