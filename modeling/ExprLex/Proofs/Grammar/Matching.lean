import ExprLex.Proofs.Grammar.Overlap
import ExprLex.Proofs.Grammar.Selection

namespace ExprLex.Rule
open Grammar

variable {kind other : Kind} {text word rest : List Char} {spelling : String}
  {proposal : Proposal} {selection : Selection}

theorem spelled_reads (fixed : kind.fixedText = some spelling) (text : List Char) :
    Reads kind text (spelled spelling.toList kind text) where
  sound := by
    intro length other accepted
    rw [spelled] at accepted
    split at accepted
    · rename_i begun
      obtain ⟨rest, rfl⟩ := List.isPrefixOf_iff_prefix.mp begun
      cases accepted
      exact ⟨rfl, spelling.toList, rest, rfl, by rw [language_fixed fixed, mem_just], rfl⟩
    · cases accepted
  covers := by
    intro word rest split member
    rw [language_fixed fixed, mem_just] at member
    subst member split
    have begun : spelling.toList.isPrefixOf (spelling.toList ++ rest) = true :=
      List.isPrefixOf_iff_prefix.mpr ⟨rest, rfl⟩
    exact ⟨_, if_pos begun, le_rfl⟩

theorem ofKind_reads (kind : Kind) (text : List Char) :
    Reads kind text ((ofKind kind).propose text) := by
  cases fixed : kind.fixedText with
  | some spelling =>
      rw [ofKind_propose fixed]
      exact spelled_reads fixed text
  | none =>
      cases kind
      case integer => exact integer_reads text
      case hexInteger => exact hexInteger_reads text
      case real => exact real_reads text
      case singleQuoted => exact quoted_reads (by decide) rfl text
      case doubleQuoted => exact quoted_reads (by decide) rfl text
      case identifier => exact identifier_reads text
      case whitespace => exact whitespace_reads text
      case endOfInput =>
        constructor
        · intro length other accepted
          cases accepted
        · intro word rest split member
          exact absurd member (Language.notMem_zero word)
      all_goals cases fixed

theorem language_proper (member : word ∈ kind.language) : kind ≠ .endOfInput := by
  rintro rfl
  exact Language.notMem_zero word member

theorem exists_proposal (member : word ∈ kind.language) (rest : List Char) :
    ∃ (rank : Nat) (proposal : Proposal), order[rank]? = some kind ∧
      (ofKind kind).propose (word ++ rest) = some proposal ∧ word.length ≤ proposal.length := by
  obtain ⟨proposal, proposed, bound⟩ :=
    (ofKind_reads kind (word ++ rest)).covers word rest rfl member
  obtain ⟨rank, located⟩ :=
    List.mem_iff_getElem?.mp ((mem_order kind).mpr (language_proper member))
  exact ⟨rank, proposal, located, proposed, bound⟩

theorem Selected.longest (selected : Selected (word ++ rest) selection kind)
    (member : word ∈ other.language) : word.length ≤ selection.proposal.length := by
  obtain ⟨rank, proposal, located, proposed, bound⟩ := exists_proposal member rest
  have top := selected.top rank other proposal located proposed
  omega

theorem Selected.lexeme {length : Nat} {accepted : Kind} (selected : Selected text selection kind)
    (read : selection.proposal = .accept length accepted) : accepted = kind ∧
      ∃ word rest, text = word ++ rest ∧ word ∈ kind.language ∧ word.length = length :=
  (ofKind_reads kind text).sound length accepted (read ▸ selected.proposed)

theorem reserved_before {kinds : List Kind} {border place rank : Nat}
    (early : ∀ i : Fin kinds.length, kinds[i].isReserved = true → i.val < border)
    (late : ∀ i : Fin kinds.length, kinds[i] = .identifier → i.val = border)
    (located : kinds[place]? = some kind) (reserved : kind.isReserved = true)
    (identifier : kinds[rank]? = some .identifier) : place < rank := by
  obtain ⟨bound, found⟩ := List.getElem?_eq_some_iff.mp located
  obtain ⟨boundLate, foundLate⟩ := List.getElem?_eq_some_iff.mp identifier
  calc place < border := early ⟨place, bound⟩ (by simpa [found] using reserved)
    _ = rank := (late ⟨rank, boundLate⟩ foundLate).symm

theorem order_reserved {place rank : Nat} (located : order[place]? = some kind)
    (reserved : kind.isReserved = true) (identifier : order[rank]? = some .identifier) :
    place < rank := by
  -- All reserved words have their rules in front of that of identifiers, which is number 48.
  have early : ∀ i : Fin order.length, order[i].isReserved = true → i.val < 48 := by decide
  have late : ∀ i : Fin order.length, order[i] = .identifier → i.val = 48 := by decide
  exact reserved_before early late located reserved identifier

theorem Selected.preferred (selected : Selected (word ++ rest) selection kind)
    (read : selection.proposal = .accept word.length kind) (member : word ∈ kind.language)
    (different : other ≠ kind) (shared : word ∈ other.language) :
    kind.isReserved = true ∧ other = .identifier := by
  rcases language_overlap different.symm member shared with found | ⟨reserved, rfl⟩
  · exact found
  · -- The rule of the word proposes as much and stands earlier, so it would have been selected.
    obtain ⟨rank, proposal, located, proposed, bound⟩ := exists_proposal shared rest
    have top := selected.top rank other proposal located proposed
    have earlier := order_reserved located reserved selected.located
    rw [read, Proposal.length_accept] at top
    omega

theorem select_eq_none_lexeme (nothing : select text = none) (begins : word <+: text)
    (nonempty : word ≠ []) : word ∉ kind.language := by
  intro member
  obtain ⟨rest, rfl⟩ := begins
  obtain ⟨rank, proposal, -, proposed, bound⟩ := exists_proposal member rest
  have empty := select_eq_none.mp nothing kind proposal (language_proper member) proposed
  rw [empty] at bound
  exact nonempty (List.length_eq_zero_iff.mp (Nat.le_zero.mp bound))

theorem choice_lexeme {length : Nat} (chosen : choice text = some (.accept length kind)) :
    ∃ word rest, text = word ++ rest ∧ word ∈ kind.language ∧ word.length = length ∧ word ≠ [] := by
  obtain ⟨selection, owner, same, selected⟩ := choice_selected chosen
  obtain ⟨rfl, word, rest, rfl, member, exact⟩ := selected.lexeme same
  have positive := selected.positive
  refine ⟨word, rest, rfl, member, exact, ?_⟩
  rintro rfl
  rw [same, Proposal.length_accept, ← exact] at positive
  exact absurd positive (Nat.lt_irrefl 0)

end ExprLex.Rule
