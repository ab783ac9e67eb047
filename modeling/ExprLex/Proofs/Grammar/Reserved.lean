import ExprLex.Proofs.Grammar.Separation

namespace ExprLex

variable {kind : Kind} {word : List Char}

theorem Word.ofText?_text (word : Word) : ofText? word.text = some word := by
  cases word <;> rfl

theorem Word.text_of_ofText? {word : Word} {text : String} (found : ofText? text = some word) :
    word.text = text := by
  unfold ofText? at found
  split at found <;> cases found <;> rfl

theorem Word.isReserved_iff {text : String} :
    isReserved text = true ↔ ∃ word : Word, word.text = text := by
  rw [isReserved, Option.isSome_iff_exists]
  constructor
  · rintro ⟨word, found⟩
    exact ⟨word, text_of_ofText? found⟩
  · rintro ⟨word, rfl⟩
    exact ⟨word, ofText?_text word⟩

theorem Word.fixedText_kind (word : Word) : word.kind.fixedText = some word.text := by
  cases word <;> rfl

theorem Word.kind_isReserved (word : Word) : word.kind.isReserved = true := by
  cases word <;> rfl

theorem Kind.exists_word (reserved : kind.isReserved = true) : ∃ word : Word, word.kind = kind := by
  cases kind
  case andOp => exact ⟨.andOp, rfl⟩
  case orOp => exact ⟨.orOp, rfl⟩
  case inOp => exact ⟨.inOp, rfl⟩
  case isOp => exact ⟨.isOp, rfl⟩
  case betweenOp => exact ⟨.betweenOp, rfl⟩
  case matchesOp => exact ⟨.matchesOp, rfl⟩
  case newOp => exact ⟨.newOp, rfl⟩
  case trueLit => exact ⟨.trueLit, rfl⟩
  case falseLit => exact ⟨.falseLit, rfl⟩
  case nullLit => exact ⟨.nullLit, rfl⟩
  all_goals cases reserved

theorem Kind.Owns.exists_word (owned : kind.Owns word) (reserved : kind.isReserved = true) :
    ∃ entry, Word.ofText? (String.ofList word) = some entry ∧ entry.kind = kind := by
  obtain ⟨entry, rfl⟩ := Kind.exists_word reserved
  have spelled := owned.1
  rw [language_fixed entry.fixedText_kind, Grammar.mem_just] at spelled
  exact ⟨entry, by rw [spelled, String.ofList_toList, entry.ofText?_text], rfl⟩

theorem Kind.Owns.reserved (owned : kind.Owns word) :
    kind.isReserved = Word.isReserved (String.ofList word) := by
  rw [Bool.eq_iff_iff, Word.isReserved_iff]
  constructor
  · intro reserved
    obtain ⟨entry, found, -⟩ := owned.exists_word reserved
    exact ⟨entry, Word.text_of_ofText? found⟩
  · rintro ⟨entry, same⟩
    by_cases equal : entry.kind = kind
    · exact equal ▸ entry.kind_isReserved
    · -- No other kind than identifiers shares the text of a reserved word.
      have spelled : word ∈ entry.kind.language := by
        rw [language_fixed entry.fixedText_kind, Grammar.mem_just, same, String.toList_ofList]
      exact (owned.2 entry.kind equal spelled).1

theorem Rule.ofKind_word (word : Word) : ofKind word.kind = Rule.word word := by
  cases word <;> rfl

end ExprLex
