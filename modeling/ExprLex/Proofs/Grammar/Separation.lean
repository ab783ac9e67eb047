import ExprLex.Proofs.Grammar.Foreign

namespace ExprLex
open Computability Grammar Rule

variable {kind other : Kind} {text word rest : List Char} {p : Char → Prop} {l m : Language Char}
  {reason : String} {spelling : String}

namespace Grammar

def Within (p : Char → Prop) (l : Language Char) : Prop := ∀ word ∈ l, ∀ c ∈ word, p c

theorem Within.mul (first : Within p l) (second : Within p m) : Within p (l * m) := by
  intro _ member
  obtain ⟨left, leftMember, right, rightMember, rfl⟩ := Language.mem_mul.mp member
  exact List.forall_mem_append.mpr ⟨first left leftMember, second right rightMember⟩

theorem Within.add (first : Within p l) (second : Within p m) : Within p (l + m) := by
  intro word member
  exact ((Language.mem_add _ _ _).mp member).elim (first word) (second word)

theorem Within.star (parts : Within p l) : Within p l∗ := by
  rintro _ ⟨words, rfl, all⟩ c member
  obtain ⟨word, listed, inside⟩ := List.mem_flatten.mp member
  exact parts word (all word listed) c inside

theorem Within.many (parts : Within p l) : Within p (many l) := parts.mul parts.star

theorem Within.optional (part : Within p l) : Within p (optional l) := by
  intro word member
  rcases mem_optional.mp member with rfl | member
  · simp
  · exact part word member

theorem within_oneOf {q : Char → Prop} (inside : ∀ c, q c → p c) : Within p (oneOf q) := by
  rintro _ ⟨c, accepted, rfl⟩
  exact List.forall_mem_singleton.mpr (inside c accepted)

theorem within_listed {accepted : List Char} (inside : ∀ c ∈ accepted, p c) :
    Within p (oneOf (· ∈ accepted)) := within_oneOf inside

theorem within_just (inside : ∀ c ∈ word, p c) : Within p (just word) := by
  rintro _ rfl
  exact inside

def Solid (c : Char) : Prop := isSpace c = false

instance (c : Char) : Decidable (Solid c) := inferInstanceAs (Decidable (_ = _))

theorem solid_of_apart {q : Char → Prop} (apart : ∀ c ∈ [' ', '\t', '\n', '\r'], ¬ q c) (c : Char)
    (accepted : q c) : Solid c := by
  rw [Solid, ← Bool.not_eq_true, ← space_iff]
  exact fun listed => apart c listed accepted

theorem digits_within : Within Solid digits := by
  have apart : ∀ c ∈ [' ', '\t', '\n', '\r'], ¬ Digit c := forall_listed (by decide)
  exact (within_oneOf (solid_of_apart apart)).many

theorem integers_within : Within Solid integers :=
  digits_within.mul (within_listed (forall_listed (by decide))).optional

theorem hexIntegers_within : Within Solid hexIntegers := by
  have apart : ∀ c ∈ [' ', '\t', '\n', '\r'], ¬ HexDigit c := forall_listed (by decide)
  have mark : Within Solid (just ['0'] * oneOf (· ∈ ['x', 'X'])) :=
    (within_just (forall_listed (by decide))).mul (within_listed (forall_listed (by decide)))
  exact (mark.mul (within_oneOf (solid_of_apart apart)).many).mul
    (within_listed (forall_listed (by decide))).optional

theorem pointed_within : Within Solid pointed := by
  have dot : Within Solid (just ['.']) := within_just (forall_listed (by decide))
  exact (dot.mul digits_within).add ((digits_within.mul dot).mul digits_within)

theorem reals_within : Within Solid reals := by
  have signs : Within Solid (oneOf (· ∈ ['+', '-'])) := within_listed (forall_listed (by decide))
  have powers : Within Solid exponents :=
    ((within_listed (forall_listed (by decide))).mul signs.optional).mul digits_within
  have marks : Within Solid typeMarks := within_listed (forall_listed (by decide))
  intro word member
  rcases mem_reals.mp member with member | member | member
  · exact (pointed_within.mul (powers.optional.mul marks.optional)) word member
  · exact (digits_within.mul (powers.mul marks.optional)) word member
  · exact (digits_within.mul marks) word member

theorem identifiers_within : Within Solid identifiers := by
  have start : ∀ c ∈ [' ', '\t', '\n', '\r'], ¬ (Letter c ∨ c = '_') :=
    forall_listed (by decide)
  have part : ∀ c ∈ [' ', '\t', '\n', '\r'], ¬ (Letter c ∨ Digit c ∨ c = '_') :=
    forall_listed (by decide)
  exact (within_oneOf (solid_of_apart start)).mul
    ((within_oneOf (solid_of_apart part)).add (within_just (forall_listed (by decide)))).star

theorem fixedText_solid (fixed : kind.fixedText = some spelling) :
    ∀ c ∈ spelling.toList, Solid c := by
  cases kind <;> cases fixed <;> exact forall_listed (by decide)

theorem language_within (plain : kind.isString = false) (visible : kind ≠ .whitespace) :
    Within Solid kind.language := by
  cases fixed : kind.fixedText with
  | some spelling =>
      rw [language_fixed fixed]
      exact within_just (fixedText_solid fixed)
  | none =>
      cases kind
      case integer => exact integers_within
      case hexInteger => exact hexIntegers_within
      case real => exact reals_within
      case singleQuoted => cases plain
      case doubleQuoted => cases plain
      case identifier => exact identifiers_within
      case whitespace => contradiction
      case endOfInput => exact fun word member => absurd member (Language.notMem_zero word)
      all_goals cases fixed

theorem Malformed.solid (malformed : Malformed text word reason) : ∀ c ∈ word, Solid c := by
  cases malformed with
  | hexDigits mark stop =>
      rcases List.mem_pair.mp mark with rfl | rfl <;> exact forall_listed (by decide)
  | fraction member stop =>
      exact List.forall_mem_append.mpr ⟨digits_within _ member, forall_listed (by decide)⟩
  | @exponent mantissa sign rest e member mark signed taken stop =>
      have marks : ∀ e ∈ ['E', 'e'], Solid e := forall_listed (by decide)
      have signs : Within Solid (optional (oneOf (· ∈ ['+', '-']))) :=
        (within_listed (forall_listed (by decide))).optional
      refine List.forall_mem_append.mpr ⟨(digits_within.add pointed_within) _ member, ?_⟩
      exact List.forall_mem_cons.mpr ⟨marks e mark, signs sign signed⟩

def EndsIn (p : Char → Prop) (l : Language Char) : Prop :=
  ∀ word ∈ l, ∃ c, word.getLast? = some c ∧ p c

theorem EndsIn.mul (l : Language Char) (last : EndsIn p m) : EndsIn p (l * m) := by
  intro _ member
  obtain ⟨left, -, right, rightMember, rfl⟩ := Language.mem_mul.mp member
  obtain ⟨c, found, accepted⟩ := last right rightMember
  exact ⟨c, by simp [List.getLast?_append, found], accepted⟩

theorem EndsIn.optional (first : EndsIn p l) (last : EndsIn p m) : EndsIn p (l * optional m) := by
  intro _ member
  obtain ⟨left, leftMember, right, rightMember, rfl⟩ := Language.mem_mul.mp member
  rcases mem_optional.mp rightMember with rfl | rightMember
  · rw [List.append_nil]
    exact first left leftMember
  · exact last.mul l _ (Language.append_mem_mul leftMember rightMember)

theorem digits_endsIn : EndsIn Digit digits := by
  intro word member
  obtain ⟨nonempty, all⟩ := mem_digits.mp member
  exact ⟨word.getLast nonempty, List.getLast?_eq_some_getLast nonempty,
    all _ (List.getLast_mem nonempty)⟩

theorem numbers_endsIn : EndsIn Digit numbers := by
  have mantissas : EndsIn Digit (digits + pointed) := by
    rintro word (whole | dotted | dotted)
    · exact digits_endsIn word whole
    · exact digits_endsIn.mul _ word dotted
    · exact digits_endsIn.mul _ word dotted
  exact mantissas.optional (digits_endsIn.mul _)

theorem reals_endsIn : EndsIn (fun c => Digit c ∨ c ∈ realMarks) reals := by
  have plain : EndsIn (fun c => Digit c ∨ c ∈ realMarks) numbers :=
    fun word member => (numbers_endsIn word member).imp fun _ last => last.imp_right .inl
  have marks : EndsIn (fun c => Digit c ∨ c ∈ realMarks) typeMarks := by
    rintro _ ⟨c, listed, rfl⟩
    exact ⟨c, rfl, .inr listed⟩
  exact fun word member => plain.optional marks word (reals_le member)

theorem Malformed.patternKind (malformed : Malformed text word reason) :
    patternKind word = some .hexInteger ∧ word.length = 2 ∨
      patternKind word = some .real ∧
        ∃ c, word.getLast? = some c ∧ ¬ (Digit c ∨ c ∈ realMarks) := by
  have marks : ∀ c ∈ ['E', 'e'], ¬ (Digit c ∨ c ∈ realMarks) := forall_listed (by decide)
  have signs : ∀ c ∈ ['+', '-'], ¬ (Digit c ∨ c ∈ realMarks) := forall_listed (by decide)
  cases malformed with
  | hexDigits mark stop =>
      refine .inl ⟨?_, rfl⟩
      rcases List.mem_pair.mp mark with rfl | rfl <;> rfl
  | fraction member stop =>
      refine .inr ⟨?_, '.', by simp, by decide⟩
      rw [patternKind_digits member (breaks_cons.mpr dot_not_digit), numberKind_real (by decide)]
  | @exponent mantissa sign rest e member mark signed taken stop =>
      have listed : e ∈ exponentMarks := by simpa [exponentMarks] using mark
      refine .inr ⟨?_, ?_⟩
      · rcases (Language.mem_add _ _ _).mp member with whole | dotted
        · rw [patternKind_digits whole (breaks_cons.mpr (exponentMark_apart e listed).2.2),
            numberKind_real (by simp [listed])]
        · exact patternKind_pointed dotted _
      · rcases mem_optional.mp signed with rfl | ⟨c, listed, rfl⟩
        · exact ⟨e, by simp, marks e mark⟩
        · exact ⟨c, by simp, signs c listed⟩

theorem Malformed.not_mem (malformed : Malformed text word reason) : word ∉ kind.language := by
  intro member
  have same {owner : Kind} (found : ExprLex.patternKind word = some owner)
      (proper : owner ≠ .identifier) : kind = owner := by
    cases fixed : kind.fixedText with
    | none => exact Option.some.inj ((patternKind_of_mem fixed member).symm.trans found)
    | some spelling =>
        rw [language_fixed fixed, mem_just] at member
        exact absurd (patternKind_fixed fixed (member ▸ found)).2 proper
  rcases malformed.patternKind with ⟨found, length⟩ | ⟨found, c, last, apart⟩
  · obtain rfl := same found (by decide)
    change word ∈ hexIntegers at member
    rw [hexIntegers_eq] at member
    obtain ⟨_, rfl, _, tail, rfl⟩ := Language.mem_mul.mp member
    obtain ⟨_, ⟨x, mark, rfl⟩, _, run, rfl⟩ := Language.mem_mul.mp tail
    obtain ⟨run, whole, mark, -, rfl⟩ := Language.mem_mul.mp run
    have positive := List.length_pos_iff.mpr (mem_many_oneOf.mp whole).1
    simp only [List.length_append, List.length_singleton] at length
    omega
  · obtain rfl := same found (by decide)
    obtain ⟨d, lastToo, ends⟩ := reals_endsIn word member
    rw [last] at lastToo
    obtain rfl := Option.some.inj lastToo
    exact apart ends

end Grammar

/-- Whether a text is a lexeme of a kind and is taken for no other kind. -/
def Kind.Owns (kind : Kind) (word : List Char) : Prop :=
  word ∈ kind.language ∧ ∀ other, other ≠ kind → word ∈ other.language →
    kind.isReserved = true ∧ other = .identifier

theorem Kind.Owns.unique (owned : kind.Owns word) (ownedToo : other.Owns word) : kind = other := by
  by_contra different
  have first := owned.2 other (Ne.symm different) ownedToo.1
  have second := ownedToo.2 kind different owned.1
  rw [second.2] at first
  cases first.1

theorem eq_of_run {part : List Char} (begins : part <+: word ++ rest)
    (long : word.length ≤ part.length) (all : ∀ c ∈ part, p c) (ended : Breaks p rest) :
    part = word := by
  obtain ⟨more, rfl⟩ := List.prefix_of_prefix_length_le (List.prefix_append word rest) begins long
  have follows := (List.prefix_append_right_inj word).mp begins
  cases more with
  | nil => exact List.append_nil word
  | cons c more =>
      obtain ⟨tail, rfl⟩ := follows
      exact absurd (all c (by simp)) (breaks_cons.mp ended)

namespace Rule

theorem owns_of_choice (chosen : choice (word ++ rest) = some (.accept word.length kind)) :
    kind.Owns word := by
  obtain ⟨selection, owner, same, selected⟩ := choice_selected chosen
  obtain ⟨rfl, read, more, split, member, exact⟩ := selected.lexeme same
  obtain ⟨rfl, -⟩ := List.append_inj split exact.symm
  exact ⟨member, fun other different shared => selected.preferred same member different shared⟩

theorem choice_long {proposal : Proposal} (member : word ∈ kind.language)
    (chosen : choice (word ++ rest) = some proposal) : word.length ≤ proposal.length := by
  obtain ⟨selection, owner, rfl, selected⟩ := choice_selected chosen
  exact selected.longest member

theorem quoted_closed {quote : Char} {doubling : Bool} (proper : quote ≠ unquotable)
    (member : word ∈ strings quote doubling) (unquoted : Breaks (· = quote) rest) (kind : Kind) :
    ∃ tail, word = quote :: tail ∧
      quoted quote doubling kind (quote :: (tail ++ rest)) = some (.accept word.length kind) := by
  obtain ⟨_, opened, _, rfl, rfl⟩ := Language.mem_mul.mp member
  obtain ⟨_, rfl, body, parts, rfl⟩ := Language.mem_mul.mp opened
  refine ⟨body ++ [quote], by simp, ?_⟩
  rw [quoted, if_pos rfl, List.append_assoc, quotedFrom_body proper parts]
  rw [List.singleton_append, quotedFrom_close proper fun _ => unquoted]
  simp only [List.length_append, List.length_singleton]

theorem choice_string (string : kind.isString = true) (member : word ∈ kind.language)
    (ended : Breaks Solid rest) : choice (word ++ rest) = some (.accept word.length kind) := by
  cases kind <;> cases string
  · have unquoted : Breaks (· = singleQuote) rest := fun c first same =>
      ended c first (same ▸ (by decide : Solid singleQuote))
    obtain ⟨tail, rfl, proposed⟩ := quoted_closed (by decide) member unquoted .singleQuoted
    exact choice_alone (fun _ => opens_single) proposed (Nat.succ_pos _)
  · have unquoted : Breaks (· = doubleQuote) rest := fun c first same =>
      ended c first (same ▸ (by decide : Solid doubleQuote))
    obtain ⟨tail, rfl, proposed⟩ := quoted_closed (by decide) member unquoted .doubleQuoted
    exact choice_alone (fun _ => opens_double) proposed (Nat.succ_pos _)

theorem choice_gap {gap : List Char} (nonempty : gap ≠ [])
    (blank : ∀ c ∈ gap, c ∈ [' ', '\t', '\n', '\r'])
    (stop : Breaks (· ∈ [' ', '\t', '\n', '\r']) rest) :
    choice (gap ++ rest) = some (.accept gap.length .whitespace) := by
  have proposed := whitespace_run blank stop
  rw [if_neg nonempty] at proposed
  obtain ⟨c, gap, rfl⟩ := List.exists_cons_of_ne_nil nonempty
  have spaced := (space_iff c).mp (blank c List.mem_cons_self)
  exact choice_alone (fun _ => opens_space spaced) proposed (Nat.succ_pos _)

theorem opens_alike {c : Char} (opened : kind.opens c = true) (openedToo : other.opens c = true)
    (plain : kind.isString = false) (visible : kind ≠ .whitespace) :
    other.isString = false ∧ other ≠ .whitespace := by
  constructor
  · by_contra string
    cases other <;> simp [Kind.isString] at string
    · obtain rfl := beq_iff_eq.mp openedToo
      rw [opens_single opened] at plain
      cases plain
    · obtain rfl := beq_iff_eq.mp openedToo
      rw [opens_double opened] at plain
      cases plain
  · rintro rfl
    exact visible (opens_space openedToo opened)

section
variable (owned : kind.Owns word) (plain : kind.isString = false) (ended : Breaks Solid rest)
include owned plain

theorem unclosed_apart {part : List Char} {quote : Char} :
    ¬ Unclosed (word ++ rest) part quote := by
  intro unclosed
  obtain ⟨c, tail, rfl, opened⟩ := opens_of_mem owned.1
  obtain ⟨listed, more, equal⟩ := unclosed.head
  obtain ⟨rfl, -⟩ := List.cons.inj equal
  rcases List.mem_pair.mp listed with rfl | rfl
  · rw [opens_single opened] at plain
    cases plain
  · rw [opens_double opened] at plain
    cases plain

include ended

theorem accept_separate {length : Nat} (visible : kind ≠ .whitespace)
    (chosen : choice (word ++ rest) = some (.accept length other)) :
    length = word.length ∧ other = kind := by
  have long := choice_long owned.1 chosen
  obtain ⟨read, more, split, member, rfl, nonempty⟩ := choice_lexeme chosen
  obtain ⟨c, tail, equal, opened⟩ := opens_of_mem owned.1
  obtain ⟨d, readTail, equalToo, openedToo⟩ := opens_of_mem member
  have first : c = d := by
    rw [equal, equalToo] at split
    exact (List.cons.inj split).1
  -- What is read has no blank in it, so it cannot go on behind the lexeme.
  obtain ⟨plainToo, visibleToo⟩ := opens_alike opened (first ▸ openedToo) plain visible
  have solid := language_within plainToo visibleToo read member
  have same : read = word := eq_of_run ⟨more, split.symm⟩ long solid ended
  subst same
  exact ⟨rfl, (owns_of_choice chosen).unique owned⟩

theorem reject_separate {length : Nat} {flaw : Flaw} :
    choice (word ++ rest) ≠ some (.reject length flaw) := by
  intro chosen
  have long := choice_long owned.1 chosen
  rcases flaw_of_choice chosen with ⟨-, part, reason, malformed, rfl⟩ |
    ⟨-, part, quote, unclosed, -⟩
  · have same := eq_of_run malformed.begins long malformed.solid ended
    exact malformed.not_mem (same ▸ owned.1)
  · exact unclosed_apart owned plain unclosed

end

theorem choice_separate (owned : kind.Owns word) (visible : kind ≠ .whitespace)
    (ended : Breaks Solid rest) : choice (word ++ rest) = some (.accept word.length kind) := by
  cases plain : kind.isString with
  | true => exact choice_string plain owned.1 ended
  | false =>
      cases chosen : choice (word ++ rest) with
      | none =>
          have foreign := choice_eq_none_iff.mp chosen
          exact absurd owned.1 (foreign.1 kind word (List.prefix_append word rest))
      | some proposal =>
          cases proposal with
          | accept length other =>
              obtain ⟨rfl, rfl⟩ := accept_separate owned plain ended visible chosen
              rfl
          | reject length flaw =>
              exact absurd chosen (reject_separate owned plain ended)

end Rule
end ExprLex
