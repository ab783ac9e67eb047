import ExprLex.Proofs.Grammar.Reserved

namespace ExprLex
open Computability Grammar

variable {kind other : Kind} {text : List Char} {proposal : Proposal} {length : Nat} {flaw : Flaw}

namespace Grammar

theorem patternKind_hexInteger_flaw (proposed : hexInteger text = some (.reject length flaw)) :
    patternKind (text.take length) = some .hexInteger := by
  obtain ⟨x, rest, mark, rfl⟩ := hexInteger_marked_of_some proposed
  rw [hexInteger_marked mark] at proposed
  split at proposed
  · cases proposed
    rcases List.mem_pair.mp mark with rfl | rfl <;> rfl
  · cases proposed

theorem patternKind_real_flaw (proposed : real text = some (.reject length flaw)) :
    patternKind (text.take length) = some .real := by
  have taken (mantissa sign more : List Char) (e : Char) :
      (mantissa ++ e :: (sign ++ more)).take (mantissa.length + (1 + sign.length)) =
        mantissa ++ e :: sign := by
    simp [List.take_append, Nat.add_comm 1]
  generalize equal : Proposal.reject length flaw = proposal at proposed
  cases real_eq_some.mp proposed with
  | pointed member stop =>
      obtain ⟨-, e, sign, more, rfl, -, -, -, rfl⟩ := finishReal_reject equal.symm
      rw [taken]
      exact patternKind_pointed member _
  | powered member begun =>
      obtain ⟨-, e, sign, more, rfl, mark, -, -, rfl⟩ := finishReal_reject equal.symm
      rw [taken, patternKind_digits member (breaks_cons.mpr (exponentMark_apart e mark).2.2),
        numberKind_real (by simp [mark])]
  | marked member mark => cases equal
  | @bare run rest member stop =>
      cases equal
      have read : (run ++ '.' :: rest).take (run.length + 1) = run ++ ['.'] := by
        simp [List.take_append]
      rw [read, patternKind_digits member (breaks_cons.mpr dot_not_digit),
        numberKind_real (by decide)]

end Grammar

namespace Rule

theorem patternKind_of_propose (free : kind.fixedText = none)
    (proposed : (ofKind kind).propose text = some proposal) :
    patternKind (text.take proposal.length) = some kind := by
  cases proposal with
  | accept length owner =>
      obtain ⟨rfl, word, rest, rfl, member, rfl⟩ :=
        (ofKind_reads kind text).sound length owner proposed
      rw [Proposal.length_accept, List.take_left]
      exact patternKind_of_mem free member
  | reject length flaw =>
      rcases kind_of_reject proposed with rfl | rfl | rfl | rfl
      · exact patternKind_hexInteger_flaw proposed
      · exact patternKind_real_flaw proposed
      · obtain ⟨-, body, rest, rfl, -, -, rfl⟩ := unclosed_of_quoted (by decide) proposed
        rfl
      · obtain ⟨-, body, rest, rfl, -, -, rfl⟩ := unclosed_of_quoted (by decide) proposed
        rfl

theorem propose_fixed {spelling : String} (fixed : kind.fixedText = some spelling)
    (proposed : (ofKind kind).propose text = some proposal) :
    proposal = .accept spelling.toList.length kind ∧
      text.take proposal.length = spelling.toList := by
  rw [ofKind_propose fixed, spelled] at proposed
  split at proposed
  · rename_i begun
    obtain ⟨rest, rfl⟩ := List.isPrefixOf_iff_prefix.mp begun
    cases proposed
    exact ⟨rfl, List.take_left⟩
  · cases proposed

theorem accept_of_propose (name : kind.isReserved = true ∨ kind = .identifier)
    (proposed : (ofKind kind).propose text = some proposal) :
    proposal = .accept proposal.length kind := by
  cases proposal with
  | accept length owner => rw [((ofKind_reads kind text).sound length owner proposed).1]; rfl
  | reject length flaw =>
      rcases kind_of_reject proposed with rfl | rfl | rfl | rfl <;>
        exact absurd name (by decide)

theorem kinds_of_tie {proposalToo : Proposal} (different : kind ≠ other)
    (proposed : (ofKind kind).propose text = some proposal)
    (proposedToo : (ofKind other).propose text = some proposalToo)
    (tied : proposal.length = proposalToo.length) :
    kind.isReserved = true ∧ other = .identifier ∨
      other.isReserved = true ∧ kind = .identifier := by
  cases fixed : kind.fixedText with
  | none =>
      have pattern := patternKind_of_propose fixed proposed
      cases fixedToo : other.fixedText with
      | none =>
          have patternToo := patternKind_of_propose fixedToo proposedToo
          rw [← tied, pattern] at patternToo
          exact absurd (Option.some.inj patternToo) different
      | some spelling =>
          have read := (propose_fixed fixedToo proposedToo).2
          rw [← tied] at read
          exact .inr (patternKind_fixed fixedToo (read ▸ pattern))
  | some spelling =>
      have read := (propose_fixed fixed proposed).2
      cases fixedToo : other.fixedText with
      | none =>
          have patternToo := patternKind_of_propose fixedToo proposedToo
          rw [← tied, read] at patternToo
          exact .inl (patternKind_fixed fixed patternToo)
      | some spellingToo =>
          have readToo := (propose_fixed fixedToo proposedToo).2
          rw [← tied, read, String.toList_inj] at readToo
          exact absurd (fixedText_injective fixed (readToo ▸ fixedToo)) different

/-- Whether the rules of reserved words stand before that of identifiers. -/
def WordsFirst (rules : List Rule) : Prop :=
  ∀ (word : Word) (early late : Nat), rules[early]? = some (Rule.word word) →
    rules[late]? = some (pattern .identifier Grammar.identifier) → early < late

theorem kind_of_ofKind_word {word : Word} (equal : ofKind kind = Rule.word word) :
    kind.isReserved = true := by
  have read : (ofKind kind).propose word.text.toList =
      some (.accept word.text.toList.length word.kind) := by
    rw [equal]
    cases word <;> rfl
  obtain ⟨rfl, -⟩ := (ofKind_reads kind _).sound _ _ read
  exact word.kind_isReserved

theorem kind_of_ofKind_identifier
    (equal : ofKind kind = pattern .identifier Grammar.identifier) : kind = .identifier := by
  have read : (ofKind kind).propose ['a'] = some (.accept 1 .identifier) := by
    rw [equal]
    rfl
  exact ((ofKind_reads kind _).sound _ _ read).1.symm

theorem wordsFirst_map {kinds : List Kind}
    (first : ∀ (kind : Kind) (early late : Nat), kind.isReserved = true →
      kinds[early]? = some kind → kinds[late]? = some .identifier → early < late) :
    WordsFirst (kinds.map ofKind) := by
  intro word early late atEarly atLate
  rw [List.getElem?_map, Option.map_eq_some_iff] at atEarly atLate
  obtain ⟨kind, foundEarly, equal⟩ := atEarly
  obtain ⟨other, foundLate, equalLate⟩ := atLate
  obtain rfl := kind_of_ofKind_identifier equalLate
  exact first kind early late (kind_of_ofKind_word equal) foundEarly foundLate

theorem catalogue_wordsFirst : WordsFirst catalogue := by
  rw [catalogue_eq]
  exact wordsFirst_map fun _ _ _ reserved early late => order_reserved early reserved late

variable {rules rulesToo : List Rule} {selection selectionToo : Selection} {rule ruleToo : Rule}

theorem Wins.length_le (wins : Wins rules text selection rule) (member : ruleToo ∈ rules)
    (proposed : ruleToo.propose text = some proposal) :
    proposal.length ≤ selection.proposal.length := by
  obtain ⟨rank, located⟩ := List.mem_iff_getElem?.mp member
  have top := wins.top rank ruleToo proposal located proposed
  omega

theorem Wins.shorter_word (wins : Wins rules text selection (ofKind .identifier))
    (first : WordsFirst rules) (reserved : kind.isReserved = true) (member : ofKind kind ∈ rules)
    (proposed : (ofKind kind).propose text = some proposal) :
    proposal.length < selection.proposal.length := by
  obtain ⟨word, rfl⟩ := Kind.exists_word reserved
  obtain ⟨rank, located⟩ := List.mem_iff_getElem?.mp member
  have earlier := first word rank selection.rank (ofKind_word word ▸ located) wins.located
  have top := wins.top rank _ proposal located proposed
  omega

theorem Wins.kind_unique (perm : rules.Perm rulesToo) (first : WordsFirst rules)
    (firstToo : WordsFirst rulesToo) (wins : Wins rules text selection (ofKind kind))
    (winsToo : Wins rulesToo text selectionToo (ofKind other)) : kind = other := by
  have member : ofKind kind ∈ rulesToo := perm.mem_iff.mp (List.mem_of_getElem? wins.located)
  have memberToo : ofKind other ∈ rules := perm.mem_iff.mpr (List.mem_of_getElem? winsToo.located)
  have tied : selection.proposal.length = selectionToo.proposal.length :=
    Nat.le_antisymm (winsToo.length_le member wins.proposed)
      (wins.length_le memberToo winsToo.proposed)
  by_contra different
  rcases kinds_of_tie different wins.proposed winsToo.proposed tied with
    ⟨reserved, rfl⟩ | ⟨reserved, rfl⟩
  · exact absurd tied (winsToo.shorter_word firstToo reserved member wins.proposed).ne
  · exact absurd tied (wins.shorter_word first reserved memberToo winsToo.proposed).ne'

def reading (selection : Selection) : Proposal × String := (selection.proposal, selection.rule)

theorem Wins.reading_unique (perm : rules.Perm catalogue) (first : WordsFirst rules)
    (wins : Wins rules text selection rule) (winsToo : Wins catalogue text selectionToo ruleToo) :
    reading selection = reading selectionToo := by
  obtain ⟨kind, -, rfl⟩ :=
    mem_catalogue.mp (perm.mem_iff.mp (List.mem_of_getElem? wins.located))
  obtain ⟨other, -, rfl⟩ := mem_catalogue.mp (List.mem_of_getElem? winsToo.located)
  obtain rfl := wins.kind_unique perm first catalogue_wordsFirst winsToo
  have same := Option.some.inj (wins.proposed.symm.trans winsToo.proposed)
  simp only [reading, same, wins.named, winsToo.named]

theorem selectFrom_perm (perm : rules.Perm catalogue) (first : WordsFirst rules) :
    (selectFrom rules text).map reading = (select text).map reading := by
  have empty : selectFrom rules text = none ↔ select text = none := by
    simp only [select, selectFrom_eq_none, perm.mem_iff]
  cases chosen : selectFrom rules text with
  | none => rw [empty.mp chosen]
  | some selection =>
      cases chosenToo : select text with
      | none => rw [empty.mpr chosenToo] at chosen; cases chosen
      | some selectionToo =>
          obtain ⟨rule, wins⟩ := selectFrom_eq_some chosen
          obtain ⟨ruleToo, winsToo⟩ := selectFrom_eq_some chosenToo
          exact congrArg some (wins.reading_unique perm first winsToo)

theorem offers_tied {offer offerToo : Offer} (member : offer ∈ offers catalogue text)
    (memberToo : offerToo ∈ offers catalogue text) (before : offer.1 < offerToo.1)
    (tied : offer.2.length = offerToo.2.length) :
    ∃ (word : Word) (length : Nat), catalogue[offer.1]? = some (Rule.word word) ∧
      offer.2 = .accept length word.kind ∧
      catalogue[offerToo.1]? = some (pattern .identifier Grammar.identifier) ∧
      offerToo.2 = .accept length .identifier := by
  obtain ⟨rule, located, proposed⟩ := mem_offers.mp member
  obtain ⟨ruleToo, locatedToo, proposedToo⟩ := mem_offers.mp memberToo
  obtain ⟨kind, place, rfl⟩ := getElem?_catalogue.mp located
  obtain ⟨other, placeToo, rfl⟩ := getElem?_catalogue.mp locatedToo
  have different : kind ≠ other := by
    rintro rfl
    have bound := (List.getElem?_eq_some_iff.mp place).1
    have same := (List.getElem?_inj bound order_nodup).mp (place.trans placeToo.symm)
    exact absurd same before.ne
  rcases kinds_of_tie different proposed proposedToo tied with
    ⟨reserved, rfl⟩ | ⟨reserved, rfl⟩
  · obtain ⟨word, rfl⟩ := Kind.exists_word reserved
    refine ⟨word, offer.2.length, ofKind_word word ▸ located,
      accept_of_propose (.inl reserved) proposed, locatedToo, ?_⟩
    rw [tied]
    exact accept_of_propose (.inr rfl) proposedToo
  · -- The word would stand behind identifiers.
    exact absurd before (Nat.lt_asymm (order_reserved placeToo reserved place))

/-- What is selected does not depend on the order of the rules, as long as those of reserved words
stand before that of identifiers: only these can offer equally much. -/
theorem selectFrom_reordered (text : List Char) :
    (∀ rules : List Rule, rules.Perm catalogue → WordsFirst rules →
      (selectFrom rules text).map reading = (select text).map reading) ∧
    ∀ offer ∈ offers catalogue text, ∀ offerToo ∈ offers catalogue text,
      offer.1 < offerToo.1 → offer.2.length = offerToo.2.length →
      ∃ (word : Word) (length : Nat), catalogue[offer.1]? = some (Rule.word word) ∧
        offer.2 = .accept length word.kind ∧
        catalogue[offerToo.1]? = some (pattern .identifier Grammar.identifier) ∧
        offerToo.2 = .accept length .identifier := by
  constructor
  · intro rules perm first
    exact selectFrom_perm perm first
  · intro offer member offerToo memberToo before tied
    exact offers_tied member memberToo before tied

def backwards : List Kind := order.reverse.erase .identifier ++ [.identifier]

theorem backwards_perm : (backwards.map ofKind).Perm catalogue := by
  have kinds : backwards.Perm order := by decide
  exact kinds.map ofKind

theorem backwards_wordsFirst : WordsFirst (backwards.map ofKind) := by
  have early : ∀ i : Fin backwards.length, backwards[i].isReserved = true → i.val < 55 := by decide
  have late : ∀ i : Fin backwards.length, backwards[i] = .identifier → i.val = 55 := by decide
  exact wordsFirst_map fun _ _ _ reserved atEarly atLate =>
    reserved_before early late atEarly reserved atLate

theorem selectFrom_backwards :
    (selectFrom (backwards.map ofKind) "in x".toList).map reading =
      (select "in x".toList).map reading ∧
    (select "in x".toList).map reading = some (.accept 2 .inOp, "in") ∧
    ∃ (word : Word) (length : Nat), catalogue[11]? = some (Rule.word word) ∧
      Proposal.accept 2 .inOp = .accept length word.kind ∧
      catalogue[48]? = some (pattern .identifier Grammar.identifier) ∧
      Proposal.accept 2 .identifier = .accept length .identifier := by
  have reordered := selectFrom_reordered "in x".toList
  refine ⟨reordered.1 _ backwards_perm backwards_wordsFirst, by decide, ?_⟩
  exact reordered.2 (11, .accept 2 .inOp) (by decide) (48, .accept 2 .identifier) (by decide)
    (by decide) rfl

end Rule
end ExprLex
