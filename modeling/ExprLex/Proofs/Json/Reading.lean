import ExprLex.Proofs.Json.Scalars

namespace ExprLex.Json
open Machine

/-- Reading a text takes the machine from one state to another. -/
inductive Reads : Machine → List Char → Machine → Prop
  | done {machine : Machine} : Reads machine [] machine
  | gap {machine last : Machine} {c : Char} {rest : List Char} (blank : isGap c = true)
      (later : Reads machine rest last) : Reads machine (c :: rest) last
  | mark {machine next last : Machine} {mark : Mark} {c : Char} {text rest : List Char}
      (dark : isGap c = false) (first : readMark (c :: text) = some (mark, rest))
      (shorter : rest.length ≤ text.length) (steps : machine.step mark = some next)
      (later : Reads next rest last) : Reads machine (c :: text) last

variable {machine next last : Machine} {frames : List Frame} {mark : Mark}
  {text rest tail : List Char} {margin : String}

theorem Reads.marks (reads : Reads machine text last) : ∃ marks,
    marks.length ≤ text.length ∧ marks.foldlM step machine = some last ∧
      ∀ fuel done, marks.length ≤ fuel →
        readMarks fuel done text = some (done.reverse ++ marks) := by
  induction reads with
  | done =>
      refine ⟨[], le_rfl, rfl, fun fuel done enough => ?_⟩
      rw [readMarks.eq_def, List.append_nil]
      cases fuel <;> rfl
  | @gap machine last c rest blank later ih =>
      obtain ⟨marks, short, folds, found⟩ := ih
      refine ⟨marks, Nat.le_succ_of_le short, folds, fun fuel done enough => ?_⟩
      rw [← found fuel done enough]
      simp only [readMarks.eq_def _ _ (c :: rest), readMarks.eq_def _ _ rest,
        List.dropWhile_cons_of_pos blank]
  | @mark machine next last mark c text rest dark first shorter steps later ih =>
      obtain ⟨marks, short, folds, found⟩ := ih
      refine ⟨mark :: marks, Nat.succ_le_succ (short.trans shorter), ?_, ?_⟩
      · rw [List.foldlM_cons, steps]
        exact folds
      · intro fuel done enough
        cases fuel with
        | zero => cases enough
        | succ fuel =>
            have later := found fuel (mark :: done) (Nat.le_of_succ_le_succ enough)
            rw [readMarks.eq_def]
            simp [dark, first, later]

theorem Reads.ofText? {text : String} {parsed : Parsed}
    (reads : Reads {} text.toList ⟨.finished parsed, []⟩) :
    Parsed.ofText? text = some parsed := by
  obtain ⟨marks, short, folds, found⟩ := reads.marks
  simp [Parsed.ofText?, found _ [] short, folds]

theorem Reads.gaps (blank : ∀ c ∈ text, isGap c = true) (later : Reads machine tail last) :
    Reads machine (text ++ tail) last := by
  induction text with
  | nil => exact later
  | cons c text ih =>
      obtain ⟨first, others⟩ := List.forall_mem_cons.mp blank
      exact .gap first (ih others)

theorem Reads.sign {c : Char} (dark : isGap c = false)
    (first : readMark (c :: text) = some (mark, text)) (steps : machine.step mark = some next)
    (later : Reads next text last) : Reads machine (c :: text) last :=
  .mark dark first le_rfl steps later

theorem Reads.string {content : String}
    (steps : machine.step (.scalar (.string content)) = some next)
    (later : Reads next tail last) : Reads machine (enclosed content ++ tail) last :=
  .mark (by decide) (readMark_enclosed content tail) (List.suffix_append _ tail).length_le steps
    later

def Awaits (turn : Turn) : Prop := turn = .value ∨ turn = .itemOrClose

theorem Awaits.step {turn : Turn} (awaits : Awaits turn) (begins : mark ≠ .closeArray)
    (frames : List Frame) : step ⟨turn, frames⟩ mark = beginValue frames mark := by
  rcases awaits with rfl | rfl
  · cases mark <;> rfl
  · cases mark
    case closeArray => exact absurd rfl begins
    all_goals rfl

def Spells (text : List Char) (parsed : Parsed) : Prop :=
  ∀ turn frames tail last, Awaits turn → Ends tail → Reads (deliver frames parsed) tail last →
    Reads ⟨turn, frames⟩ (text ++ tail) last

structure SpellsItems (text : List Char) (items : List Parsed) : Prop where
  ends : Ends text
  reads : ∀ read frames tail last, Ends tail →
    Reads ⟨.commaOrClose, .array (items.reverse ++ read) :: frames⟩ tail last →
    Reads ⟨.commaOrClose, .array read :: frames⟩ (text ++ tail) last

structure SpellsMembers (text : List Char) (members : List (Option String × Parsed)) : Prop where
  ends : Ends text
  reads : ∀ read key frames tail last, Ends tail →
    (∀ key, Reads ⟨.commaOrClose, .object (members.reverse ++ read) key :: frames⟩ tail last) →
    Reads ⟨.commaOrClose, .object read key :: frames⟩ (text ++ tail) last

theorem Spells.scalar {c : Char} {parsed : Parsed} (dark : isGap c = false)
    (reads : ∀ tail, Ends tail → readMark (c :: text ++ tail) = some (.scalar parsed, tail)) :
    Spells (c :: text) parsed := by
  intro turn frames tail last awaits ends later
  refine .mark dark (reads tail ends) (List.suffix_append _ tail).length_le ?_ later
  exact awaits.step (by simp) frames

mutual

def Value.parsed : Value → Parsed
  | .null => .null
  | .bool b => .bool b
  | .num n => .number (toString n)
  | .str s => .string (some s)
  | .arr items => .array (parsedItems items)
  | .obj members => .object (parsedMembers members)

def parsedItems : List Value → List Parsed
  | [] => []
  | item :: items => item.parsed :: parsedItems items

def parsedMembers : List (String × Value) → List (Option String × Parsed)
  | [] => []
  | (key, value) :: members => (some key, value.parsed) :: parsedMembers members

end

def Blank (text : List Char) : Prop := ∀ c ∈ text, isGap c = true

theorem spells_num (n : Nat) : Spells (Nat.toDigits 10 n) (.number (toString n)) := by
  obtain ⟨c, more, shape, digit⟩ := exists_digit n
  have dark : isGap c = false := by
    by_contra blank
    simp only [isGap, Bool.not_eq_false, Bool.or_eq_true, beq_iff_eq] at blank
    rcases blank with ((rfl | rfl) | rfl) | rfl <;> cases digit
  rw [shape]
  exact .scalar dark fun tail ends => shape ▸ readMark_digits n ends

theorem ends_feed (text : List Char) : Ends ('\n' :: text) := by
  rintro c ⟨⟩
  decide

theorem ends_comma (text : List Char) : Ends (',' :: text) := by
  rintro c ⟨⟩
  decide

theorem spells_array {lead first later tail : List Char} {item : Parsed} {items : List Parsed}
    (blank : Blank lead) (spelled : Spells first item) (others : SpellsItems later items)
    (gaps : Blank tail) :
    Spells ('[' :: (lead ++ first ++ later ++ '\n' :: tail ++ [']'])) (.array (item :: items)) := by
  intro turn frames rest last awaits ends closed
  have close : Reads ⟨.commaOrClose, .array (items.reverse ++ [item]) :: frames⟩
      ('\n' :: (tail ++ ']' :: rest)) last := by
    refine .gap (by decide) (.gaps gaps (.sign (by decide) rfl ?_ closed))
    simp [step, close]
  simp only [List.append_assoc, List.cons_append, List.nil_append]
  refine .sign (by decide) rfl (awaits.step (by simp) frames) (.gaps blank ?_)
  refine spelled .itemOrClose _ _ _ (.inr rfl) (others.ends.append (ends_feed _)) ?_
  exact others.reads [item] frames _ _ (ends_feed _) close

theorem SpellsItems.nil : SpellsItems [] [] := ⟨by simp [Ends], by simp⟩

theorem SpellsItems.cons {lead first later : List Char} {item : Parsed} {items : List Parsed}
    (blank : Blank lead) (spelled : Spells first item) (others : SpellsItems later items) :
    SpellsItems (',' :: (lead ++ first ++ later)) (item :: items) := by
  refine ⟨ends_comma _, fun read frames tail last ends rest => ?_⟩
  simp only [List.append_assoc, List.cons_append, List.reverse_cons, List.nil_append] at rest ⊢
  refine .sign (by decide) rfl rfl (.gaps blank ?_)
  refine spelled .value _ _ _ (.inl rfl) (others.ends.append ends) ?_
  exact others.reads (item :: read) frames tail last ends rest

theorem Reads.member {turn : Turn} {key : String} {value : Parsed} {old : Option String}
    {read : List (Option String × Parsed)} (awaits : turn = .key ∨ turn = .keyOrClose)
    (spelled : Spells text value) (ends : Ends tail)
    (later : Reads ⟨.commaOrClose, .object ((some key, value) :: read) (some key) :: frames⟩ tail
      last) :
    Reads ⟨turn, .object read old :: frames⟩ (enclosed key ++ ':' :: ' ' :: (text ++ tail)) last := by
  have begins : step ⟨turn, .object read old :: frames⟩ (.scalar (.string (some key))) =
      some ⟨.colon, .object read (some key) :: frames⟩ := by
    rcases awaits with rfl | rfl <;> rfl
  refine .string begins (.sign (by decide) rfl rfl (.gap (by decide) ?_))
  exact spelled .value _ _ _ (.inl rfl) ends later

theorem spells_object {lead first later tail : List Char} {key : String} {value : Parsed}
    {members : List (Option String × Parsed)} (blank : Blank lead) (spelled : Spells first value)
    (others : SpellsMembers later members) (gaps : Blank tail) :
    Spells ('\x7b' :: (lead ++ enclosed key ++ ':' :: ' ' :: first ++ later ++ '\n' :: tail ++
      ['\x7d'])) (.object ((some key, value) :: members)) := by
  intro turn frames rest last awaits ends closed
  have close (old : Option String) :
      Reads ⟨.commaOrClose, .object (members.reverse ++ [(some key, value)]) old :: frames⟩
        ('\n' :: (tail ++ '\x7d' :: rest)) last := by
    refine .gap (by decide) (.gaps gaps (.sign (by decide) rfl ?_ closed))
    simp [step, close]
  simp only [List.append_assoc, List.cons_append, List.nil_append]
  refine .sign (by decide) rfl (awaits.step (by simp) frames) (.gaps blank ?_)
  refine .member (.inr rfl) spelled (others.ends.append (ends_feed _)) ?_
  exact others.reads [(some key, value)] (some key) frames _ _ (ends_feed _) close

theorem SpellsMembers.nil : SpellsMembers [] [] :=
  ⟨by simp [Ends], fun _ key _ _ _ _ later => later key⟩

theorem SpellsMembers.cons {lead first later : List Char} {key : String} {value : Parsed}
    {members : List (Option String × Parsed)} (blank : Blank lead) (spelled : Spells first value)
    (others : SpellsMembers later members) :
    SpellsMembers (',' :: (lead ++ enclosed key ++ ':' :: ' ' :: first ++ later))
      ((some key, value) :: members) := by
  refine ⟨ends_comma _, fun read old frames tail last ends rest => ?_⟩
  simp only [List.append_assoc, List.cons_append, List.reverse_cons, List.nil_append] at rest ⊢
  refine .sign (by decide) rfl rfl (.gaps blank ?_)
  refine .member (.inl rfl) spelled (others.ends.append ends) ?_
  exact others.reads ((some key, value) :: read) (some key) frames tail last ends rest

theorem Blank.feed (blank : Blank text) : Blank ('\n' :: text) :=
  List.forall_mem_cons.mpr ⟨by decide, blank⟩

theorem Blank.deeper (blank : Blank margin.toList) : Blank (margin ++ "  ").toList := by
  rw [String.toList_append]
  exact List.forall_mem_append.mpr ⟨blank, by simp [isGap]⟩

mutual

theorem Value.prettyOnto_spells : (value : Value) → (margin out : String) →
    Blank margin.toList → ∃ text, value.prettyOnto margin out = out ++ String.ofList text ∧
      Spells text value.parsed
  | .null, margin, out, blank => ⟨"null".toList, rfl, .scalar (by decide) fun _ _ => rfl⟩
  | .bool true, margin, out, blank => ⟨"true".toList, rfl, .scalar (by decide) fun _ _ => rfl⟩
  | .bool false, margin, out, blank => ⟨"false".toList, rfl, .scalar (by decide) fun _ _ => rfl⟩
  | .num n, margin, out, blank => by
      refine ⟨_, ?_, spells_num n⟩
      rw [Value.prettyOnto, Nat.toString_eq_ofList_toDigits]
  | .str s, margin, out, blank =>
      ⟨_, quoteOnto_eq out s, .scalar (by decide) fun tail _ => readMark_enclosed s tail⟩
  | .arr [], margin, out, blank => by
      refine ⟨"[]".toList, rfl, fun turn frames tail last awaits ends later => ?_⟩
      refine .sign (by decide) rfl (awaits.step (by simp) frames) ?_
      exact .sign (by decide) rfl rfl later
  | .obj [], margin, out, blank => by
      refine ⟨"\x7b\x7d".toList, rfl, fun turn frames tail last awaits ends later => ?_⟩
      refine .sign (by decide) rfl (awaits.step (by simp) frames) ?_
      exact .sign (by decide) rfl rfl later
  | .arr (item :: items), margin, out, blank => by
      obtain ⟨first, written, spelled⟩ := item.prettyOnto_spells (margin ++ "  ")
        (out.push '[' ++ "\n" ++ (margin ++ "  ")) blank.deeper
      obtain ⟨later, added, others⟩ := prettyItems_spells items (margin ++ "  ")
        (out.push '[' ++ "\n" ++ (margin ++ "  ") ++ String.ofList first) blank.deeper
      refine ⟨_, ?_, spells_array blank.deeper.feed spelled others blank⟩
      rw [Value.prettyOnto, Value.prettyItems, written, added]
      apply String.toList_inj.mp
      simp
  | .obj ((key, value) :: members), margin, out, blank => by
      obtain ⟨first, written, spelled⟩ := value.prettyOnto_spells (margin ++ "  ")
        (quoteOnto (out ++ "\x7b" ++ "\n" ++ (margin ++ "  ")) key ++ ": ") blank.deeper
      obtain ⟨later, added, others⟩ := prettyMembers_spells members (margin ++ "  ")
        (quoteOnto (out ++ "\x7b" ++ "\n" ++ (margin ++ "  ")) key ++ ": " ++ String.ofList first)
        blank.deeper
      refine ⟨_, ?_, spells_object blank.deeper.feed spelled others blank⟩
      rw [Value.prettyOnto, Value.prettyMembers, written, added, quoteOnto_eq]
      apply String.toList_inj.mp
      simp

theorem prettyItems_spells : (items : List Value) → (margin out : String) →
    Blank margin.toList → ∃ text,
      Value.prettyItems margin out ",\n" items = out ++ String.ofList text ∧
        SpellsItems text (parsedItems items)
  | [], margin, out, blank => ⟨[], by simp [Value.prettyItems], .nil⟩
  | item :: items, margin, out, blank => by
      obtain ⟨first, written, spelled⟩ := item.prettyOnto_spells margin
        (out ++ ",\n" ++ margin) blank
      obtain ⟨later, added, others⟩ := prettyItems_spells items margin
        (out ++ ",\n" ++ margin ++ String.ofList first) blank
      refine ⟨_, ?_, .cons blank.feed spelled others⟩
      rw [Value.prettyItems, written, added]
      apply String.toList_inj.mp
      simp

theorem prettyMembers_spells : (members : List (String × Value)) → (margin out : String) →
    Blank margin.toList → ∃ text,
      Value.prettyMembers margin out ",\n" members = out ++ String.ofList text ∧
        SpellsMembers text (parsedMembers members)
  | [], margin, out, blank => ⟨[], by simp [Value.prettyMembers], .nil⟩
  | (key, value) :: members, margin, out, blank => by
      obtain ⟨first, written, spelled⟩ := value.prettyOnto_spells margin
        (quoteOnto (out ++ ",\n" ++ margin) key ++ ": ") blank
      obtain ⟨later, added, others⟩ := prettyMembers_spells members margin
        (quoteOnto (out ++ ",\n" ++ margin) key ++ ": " ++ String.ofList first) blank
      refine ⟨_, ?_, .cons blank.feed spelled others⟩
      rw [Value.prettyMembers, written, added, quoteOnto_eq]
      apply String.toList_inj.mp
      simp

end

end ExprLex.Json
