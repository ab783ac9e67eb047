import ExprLex.Proofs.Grammar.Foreign

namespace ExprLex
open Grammar

variable {kind : Kind} {text word : List Char} {length : Nat} {flaw : Flaw}

namespace Grammar

/-- Whether a text begins with a literal that is not complete, of which there is `word`. -/
def Flawed (text word : List Char) : Prop :=
  (∃ reason, Malformed text word reason) ∨ ∃ quote, Unclosed text word quote

theorem Flawed.begins (flawed : Flawed text word) : word <+: text := by
  rcases flawed with ⟨reason, malformed⟩ | ⟨quote, unclosed⟩
  · exact malformed.begins
  · exact unclosed.begins

end Grammar

namespace Rule

theorem choice_flawed (flawed : Flawed text word) :
    ∃ flaw, choice text = some (.reject word.length flaw) := by
  rcases flawed with ⟨reason, malformed⟩ | ⟨quote, unclosed⟩
  · exact ⟨_, choice_malformed malformed⟩
  · exact ⟨_, choice_unclosed unclosed⟩

theorem flawed_of_choice (chosen : choice text = some (.reject length flaw)) :
    length ≤ text.length ∧ Flawed text (text.take length) := by
  obtain ⟨word, flawed, rfl⟩ : ∃ word, Flawed text word ∧ word.length = length := by
    rcases flaw_of_choice chosen with ⟨-, word, reason, malformed, size⟩ |
      ⟨-, word, quote, unclosed, size⟩
    · exact ⟨word, .inl ⟨reason, malformed⟩, size⟩
    · exact ⟨word, .inr ⟨quote, unclosed⟩, size⟩
  rw [← List.prefix_iff_eq_take.mp flawed.begins]
  exact ⟨flawed.begins.length_le, flawed⟩

/-- Selection is maximal munch: what is selected is a lexeme of its kind, nothing longer at the
beginning of the text is a lexeme of any kind, and only a reserved word has a second kind, which it
is not taken for. A lexeme is refused only for a literal that is not complete, and where nothing is
selected, the text begins with neither. -/
theorem select_munches (text : List Char) :
    match select text with
    | some ⟨.accept length kind, _, _⟩ =>
        (length ≤ text.length ∧ text.take length ∈ kind.language) ∧
        (∀ (other : Kind) (word : List Char), word <+: text → length < word.length →
          word ∉ other.language) ∧
        (∀ other, other ≠ kind → text.take length ∈ other.language →
          kind.isReserved = true ∧ other = .identifier) ∧
        ∀ word, ¬ Flawed text word
    | some ⟨.reject length _, _, _⟩ =>
        (∀ (other : Kind) (word : List Char), word <+: text → length < word.length →
          word ∉ other.language) ∧
        length ≤ text.length ∧ Flawed text (text.take length)
    | none =>
        (∀ (kind : Kind) (word : List Char), word <+: text → word ≠ [] → word ∉ kind.language) ∧
        ∀ word, ¬ Flawed text word := by
  cases found : select text with
  | none =>
      refine ⟨fun kind word => select_eq_none_lexeme found, fun word flawed => ?_⟩
      obtain ⟨flaw, chosen⟩ := choice_flawed flawed
      rw [choice_eq_none.mpr found] at chosen
      cases chosen
  | some selection =>
      obtain ⟨kind, selected⟩ := select_eq_some found
      have longest : ∀ (other : Kind) (word : List Char), word <+: text →
          selection.proposal.length < word.length → word ∉ other.language := by
        intro other word begins longer member
        obtain ⟨rest, rfl⟩ := begins
        exact absurd (selected.longest member) (Nat.not_le.mpr longer)
      have chosen : choice text = some selection.proposal := by rw [choice, found]; rfl
      obtain ⟨proposal, rank, rule⟩ := selection
      cases proposal with
      | reject length flaw => exact ⟨longest, flawed_of_choice chosen⟩
      | accept length accepted =>
          have whole (word : List Char) : ¬ Flawed text word := by
            intro flawed
            obtain ⟨flaw, rejected⟩ := choice_flawed flawed
            rw [chosen] at rejected
            cases rejected
          obtain ⟨rfl, word, rest, rfl, member, rfl⟩ := selected.lexeme rfl
          simp only [List.take_left]
          refine ⟨⟨by simp, member⟩, longest, ?_, whole⟩
          intro other different shared
          exact selected.preferred rfl member different shared

end Rule
end ExprLex
