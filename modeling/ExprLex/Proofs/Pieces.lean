import ExprLex.Proofs.Report

namespace ExprLex
open Text Position

variable {text : List Char} {source : String} {number : Nat}

theorem exists_read (few : number ≤ text.count '\n') :
    ∃ read ahead, text = read ++ ahead ∧ read.count '\n' = number := by
  induction text using List.reverseRecOn with
  | nil => exact ⟨[], [], rfl, (Nat.le_zero.mp few).symm⟩
  | append_singleton text c ih =>
      by_cases within : number ≤ text.count '\n'
      · obtain ⟨read, ahead, rfl, same⟩ := ih within
        exact ⟨read, ahead ++ [c], List.append_assoc .., same⟩
      · -- The last character is the line feed that is wanted.
        have last : [c].count '\n' ≤ 1 := List.count_le_length
        refine ⟨text ++ [c], [], (List.append_nil _).symm, ?_⟩
        rw [List.count_append] at few ⊢
        omega

theorem exists_numbered (few : number ≤ text.count '\n') : ∃ before line rest,
    text = before ++ line ++ rest ∧ before.count '\n' = number ∧ Line before line rest := by
  obtain ⟨read, ahead, rfl, same⟩ := exists_read few
  obtain ⟨before, lead, tail, rest, rfl, rfl, line⟩ := exists_line read ahead
  have unbroken : '\n' ∉ lead := fun listed => line.unbroken (List.mem_append_left _ listed)
  rw [List.count_append, List.count_eq_zero.mpr unbroken, Nat.add_zero] at same
  exact ⟨before, lead ++ tail, rest, by simp, same, line⟩

namespace LineIndex

theorem length_starts (source : String) :
    (ofText source).starts.length = source.toList.count '\n' + 1 := by
  rw [starts_ofText, List.length_cons, length_startsBehind]

theorem line?_found (few : number ≤ source.toList.count '\n') :
    ∃ piece, (source.toList.splitOn '\n')[number]? = some piece ∧
      (ofText source).line? (number + 1) = .ok (some (String.ofList (trimmed piece))) := by
  obtain ⟨before, piece, rest, split, rfl, line⟩ := exists_numbered few
  refine ⟨piece, split ▸ line.splitOn, ?_⟩
  rw [line?_eq line split, trimReturns_eq]

theorem line?_missing (outside : number = 0 ∨ source.toList.count '\n' + 1 < number) :
    (ofText source).line? number = .ok none := by
  rcases outside with rfl | beyond
  · rw [line?, starts_ofText]
    rfl
  · have nothing : (ofText source).starts.drop (number - 1) = [] := by
      rw [List.drop_eq_nil_iff, length_starts]
      omega
    rw [line?, nothing]

theorem line?_behind {read ahead : List Char} (split : source.toList = read ++ ahead) :
    ∃ line, (ofText source).line? (behind read).line = .ok (some line) := by
  have few : read.count '\n' ≤ source.toList.count '\n' := by
    rw [split, List.count_append]
    exact Nat.le_add_right ..
  have number : (behind read).line = read.count '\n' + 1 := by
    rw [behind, passed_line]
    exact Nat.add_comm ..
  obtain ⟨piece, -, found⟩ := line?_found few
  exact ⟨_, number ▸ found⟩

/-- The lines of a text are its pieces between line feeds, numbered from 1 and shown without the
carriage returns at their ends. There are no others, and the line of every place is one of them. -/
theorem line?_pieces (countable : Position.Countable source.toList) :
    (∀ number, 1 ≤ number → number ≤ 1 + source.toList.count '\n' →
      ∃ piece, (source.toList.splitOn '\n')[number - 1]? = some piece ∧
        (ofText source).line? number = .ok (some (String.ofList (trimmed piece)))) ∧
    (∀ number, number = 0 ∨ 1 + source.toList.count '\n' < number →
      (ofText source).line? number = .ok none) ∧
    ∀ offset, (⟨min offset source.utf8ByteSize⟩ : String.Pos.Raw).IsValid source →
      ∃ p line, (ofText source).positionAt offset = .ok p ∧
        (ofText source).line? p.line = .ok (some line) := by
  refine ⟨fun number positive few => ?_, fun number outside => ?_, fun offset valid => ?_⟩
  · obtain ⟨number, rfl⟩ := Nat.exists_eq_add_of_le' positive
    exact line?_found (by omega)
  · exact line?_missing (by omega)
  · obtain ⟨read, ahead, split, cut⟩ := isValid_iff.mp valid
    obtain ⟨line, found⟩ := line?_behind split
    exact ⟨behind read, line, positionAt_behind countable split cut.symm, found⟩

theorem line?_pieces_returns : Position.Countable "é\r\r\nb".toList ∧
    (1 ≤ 1 ∧ 1 ≤ 1 + "é\r\r\nb".toList.count '\n' ∧
      (ofText "é\r\r\nb").line? 1 = .ok (some "é")) ∧
    (1 + "é\r\r\nb".toList.count '\n' < 3 ∧ (ofText "é\r\r\nb").line? 3 = .ok none) ∧
    (⟨min 4 "é\r\r\nb".utf8ByteSize⟩ : String.Pos.Raw).IsValid "é\r\r\nb" ∧
    ∃ p line, (ofText "é\r\r\nb").positionAt 4 = .ok p ∧
      (ofText "é\r\r\nb").line? p.line = .ok (some line) := by
  have countable : Position.Countable "é\r\r\nb".toList := by decide
  obtain ⟨numbered, outside, placed⟩ := line?_pieces countable
  obtain ⟨piece, first, shown⟩ := numbered 1 (by decide) (by decide)
  obtain rfl : "é\r\r".toList = piece := Option.some.inj first
  exact ⟨countable, ⟨by decide, by decide, shown⟩, ⟨by decide, outside 3 (by decide)⟩, by decide,
    placed 4 (by decide)⟩

end LineIndex
end ExprLex
