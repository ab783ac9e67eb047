import ExprLex.Text.Bytes
import Mathlib

namespace ExprLex.Text

variable {before part rest chars : List Char} {count start stop : Nat}

def bytes (chars : List Char) : Nat := (chars.map Char.utf8Size).sum

@[simp] theorem bytes_nil : bytes [] = 0 := rfl

@[simp] theorem bytes_cons (c : Char) (chars : List Char) :
    bytes (c :: chars) = c.utf8Size + bytes chars := by
  simp [bytes]

@[simp] theorem bytes_append (chars more : List Char) :
    bytes (chars ++ more) = bytes chars + bytes more := by
  simp [bytes]

theorem length_le_bytes (chars : List Char) : chars.length ≤ bytes chars := by
  induction chars with
  | nil => simp
  | cons c chars ih =>
      have positive := c.utf8Size_pos
      rw [List.length_cons, bytes_cons]
      omega

theorem prefix_of_bytes_le {short long : List Char} (left : short <+: chars)
    (right : long <+: chars) (ordered : bytes short ≤ bytes long) : short <+: long := by
  rcases List.prefix_or_prefix_of_prefix left right with goesOn | ⟨more, rfl⟩
  · exact goesOn
  · have few := length_le_bytes more
    rw [bytes_append] at ordered
    obtain rfl : more = [] := List.length_eq_zero_iff.mp (by omega)
    rw [List.append_nil]

theorem utf8ByteSize_ofList (chars : List Char) :
    (String.ofList chars).utf8ByteSize = bytes chars := by
  induction chars with
  | nil => rfl
  | cons c chars ih =>
      have split : String.ofList (c :: chars) = String.singleton c ++ String.ofList chars := by
        apply String.toList_inj.mp
        simp
      rw [split, String.utf8ByteSize_append, String.utf8ByteSize_singleton, ih, bytes_cons]

theorem utf8ByteSize_eq (text : String) : text.utf8ByteSize = bytes text.toList := by
  rw [← utf8ByteSize_ofList, String.ofList_toList]

theorem dropBytes_append (before rest : List Char) :
    dropBytes (before ++ rest) (bytes before) = .ok rest := by
  induction before with
  | nil => cases rest <;> rfl
  | cons c before ih =>
      have positive := c.utf8Size_pos
      obtain ⟨count, total⟩ : ∃ count, bytes (c :: before) = count + 1 :=
        ⟨c.utf8Size - 1 + bytes before, by rw [bytes_cons]; omega⟩
      rw [total, List.cons_append, dropBytes]
      rw [bytes_cons] at total
      rw [if_pos (by omega), show count + 1 - c.utf8Size = bytes before by omega, ih]

theorem takeBytesOnto_append (taken part rest : List Char) :
    takeBytesOnto taken (part ++ rest) (bytes part) = .ok (taken.reverse ++ part) := by
  induction part generalizing taken with
  | nil => cases rest <;> simp [takeBytesOnto]
  | cons c part ih =>
      have positive := c.utf8Size_pos
      obtain ⟨count, total⟩ : ∃ count, bytes (c :: part) = count + 1 :=
        ⟨c.utf8Size - 1 + bytes part, by rw [bytes_cons]; omega⟩
      rw [total, List.cons_append, takeBytesOnto]
      rw [bytes_cons] at total
      rw [if_pos (by omega), show count + 1 - c.utf8Size = bytes part by omega, ih]
      simp

theorem slice_append {text : String} (split : text.toList = before ++ part ++ rest) :
    slice text (bytes before) (bytes before + bytes part) = .ok (String.ofList part) := by
  have dropped := dropBytes_append before (part ++ rest)
  have taken := takeBytesOnto_append [] part rest
  rw [List.append_assoc] at split
  simp [slice, split, dropped, takeBytes, taken, bind, Except.bind, pure, Except.pure]

theorem of_dropBytes (dropped : dropBytes chars count = .ok rest) :
    ∃ before, chars = before ++ rest ∧ bytes before = count := by
  fun_induction dropBytes chars count with
  | case1 chars =>
      cases dropped
      exact ⟨[], rfl, rfl⟩
  | case2 => cases dropped
  | case3 c chars count fits ih =>
      obtain ⟨before, rfl, total⟩ := ih dropped
      exact ⟨c :: before, rfl, by rw [bytes_cons]; omega⟩
  | case4 => cases dropped

theorem of_takeBytesOnto {taken : List Char}
    (found : takeBytesOnto taken chars count = .ok part) :
    ∃ more rest, part = taken.reverse ++ more ∧ chars = more ++ rest ∧ bytes more = count := by
  fun_induction takeBytesOnto taken chars count with
  | case1 taken chars =>
      cases found
      exact ⟨[], chars, (List.append_nil _).symm, rfl, rfl⟩
  | case2 => cases found
  | case3 taken c chars count fits ih =>
      obtain ⟨more, rest, rfl, rfl, total⟩ := ih found
      exact ⟨c :: more, rest, by simp, rfl, by rw [bytes_cons]; omega⟩
  | case4 => cases found

theorem of_slice {text part : String} (cut : slice text start stop = .ok part) :
    ∃ before rest, text.toList = before ++ part.toList ++ rest ∧ start = bytes before ∧
      stop = start + bytes part.toList := by
  rw [slice] at cut
  split at cut
  · cases cut
  · rename_i ordered
    cases dropped : dropBytes text.toList start with
    | error fault =>
        rw [dropped] at cut
        cases cut
    | ok tail =>
        cases taken : takeBytes tail (stop - start) with
        | error fault => simp [dropped, taken, bind, Except.bind] at cut
        | ok found =>
            obtain rfl : String.ofList found = part := by
              simpa [dropped, taken, bind, Except.bind, pure, Except.pure] using cut
            obtain ⟨before, split, size⟩ := of_dropBytes dropped
            obtain ⟨more, rest, rfl, rfl, total⟩ := of_takeBytesOnto taken
            refine ⟨before, rest, by simp [split], size.symm, ?_⟩
            rw [String.toList_ofList, total]
            omega

theorem isValid_iff {text : String} {offset : Nat} :
    (⟨offset⟩ : String.Pos.Raw).IsValid text ↔
      ∃ before rest, text.toList = before ++ rest ∧ bytes before = offset := by
  rw [String.Pos.Raw.isValid_iff_exists_append]
  constructor
  · rintro ⟨left, right, rfl, same⟩
    refine ⟨left.toList, right.toList, String.toList_append, ?_⟩
    rw [← utf8ByteSize_eq]
    exact (congrArg String.Pos.Raw.byteIdx same).symm
  · rintro ⟨before, rest, split, rfl⟩
    refine ⟨String.ofList before, String.ofList rest, ?_, ?_⟩
    · rw [← String.ofList_append, ← split, String.ofList_toList]
    · rw [← utf8ByteSize_ofList]
      rfl

theorem exists_part {text : String} (ordered : start ≤ stop)
    (begins : (⟨start⟩ : String.Pos.Raw).IsValid text)
    (ends : (⟨stop⟩ : String.Pos.Raw).IsValid text) :
    ∃ before part rest, text.toList = before ++ part ++ rest ∧ bytes before = start ∧
      bytes (before ++ part) = stop := by
  obtain ⟨before, ahead, split, rfl⟩ := isValid_iff.mp begins
  obtain ⟨long, rest, splitToo, rfl⟩ := isValid_iff.mp ends
  obtain ⟨part, rfl⟩ := prefix_of_bytes_le ⟨ahead, split.symm⟩ ⟨rest, splitToo.symm⟩ ordered
  exact ⟨before, part, rest, splitToo, rfl, rfl⟩

end ExprLex.Text
