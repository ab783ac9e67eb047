import ExprLex.LineIndex
import ExprLex.Proofs.Position

namespace ExprLex
open Text Position

variable {before line lead tail rest read ahead chars more : List Char} {source : String}
  {span : Span} {offset n start : Nat} {low high : List Nat}

structure Line (before line rest : List Char) : Prop where
  begins : before = [] ∨ ∃ lead, before = lead ++ ['\n']
  unbroken : '\n' ∉ line
  ends : rest = [] ∨ ∃ tail, rest = '\n' :: tail

theorem exists_lead (read : List Char) : ∃ before lead, read = before ++ lead ∧
    (before = [] ∨ ∃ lead, before = lead ++ ['\n']) ∧ '\n' ∉ lead := by
  induction read using List.reverseRecOn with
  | nil => exact ⟨[], [], rfl, .inl rfl, List.not_mem_nil⟩
  | append_singleton read c ih =>
      by_cases feed : c = '\n'
      · subst feed
        exact ⟨read ++ ['\n'], [], (List.append_nil _).symm, .inr ⟨read, rfl⟩, List.not_mem_nil⟩
      · obtain ⟨before, lead, rfl, begins, unbroken⟩ := ih
        refine ⟨before, lead ++ [c], List.append_assoc .., begins, ?_⟩
        simp [unbroken, Ne.symm feed]

theorem exists_tail (ahead : List Char) : ∃ tail rest, ahead = tail ++ rest ∧
    (rest = [] ∨ ∃ tail, rest = '\n' :: tail) ∧ '\n' ∉ tail := by
  induction ahead with
  | nil => exact ⟨[], [], rfl, .inl rfl, List.not_mem_nil⟩
  | cons c ahead ih =>
      by_cases feed : c = '\n'
      · subst feed
        exact ⟨[], '\n' :: ahead, rfl, .inr ⟨ahead, rfl⟩, List.not_mem_nil⟩
      · obtain ⟨tail, rest, rfl, ends, unbroken⟩ := ih
        exact ⟨c :: tail, rest, rfl, ends, by simp [unbroken, Ne.symm feed]⟩

theorem exists_line (read ahead : List Char) : ∃ before lead tail rest,
    read = before ++ lead ∧ ahead = tail ++ rest ∧ Line before (lead ++ tail) rest := by
  obtain ⟨before, lead, rfl, begins, unbroken⟩ := exists_lead read
  obtain ⟨tail, rest, rfl, ends, unbrokenToo⟩ := exists_tail ahead
  exact ⟨before, lead, tail, rest, rfl, rfl, begins, by simp [unbroken, unbrokenToo], ends⟩

theorem Line.number (line : Line before (lead ++ tail) rest) :
    (behind (before ++ lead)).line = before.count '\n' + 1 := by
  have unbroken : '\n' ∉ lead := fun listed => line.unbroken (List.mem_append_left _ listed)
  rw [behind, passed_line, List.count_append, List.count_eq_zero.mpr unbroken]
  exact Nat.add_comm ..

theorem Line.column (line : Line before (lead ++ tail) rest) :
    (behind (before ++ lead)).column = lead.length + 1 := by
  have unbroken : '\n' ∉ lead := fun listed => line.unbroken (List.mem_append_left _ listed)
  have first : (behind before).column = 1 := by
    rcases line.begins with rfl | ⟨lead, rfl⟩
    · rfl
    · rw [behind, passed_append, passed_cons, passed_nil, past, if_pos rfl]
  rw [behind, passed_append, passed_column _ unbroken, ← behind, first, Nat.add_comm]

namespace LineIndex

def startsBehind (offset : Nat) : List Char → List Nat
  | [] => []
  | c :: chars =>
      if c = '\n' then (offset + c.utf8Size) :: startsBehind (offset + c.utf8Size) chars
      else startsBehind (offset + c.utf8Size) chars

theorem startsFrom_eq (offset : Nat) (found : List Nat) (chars : List Char) :
    startsFrom offset found chars = found.reverse ++ startsBehind offset chars := by
  induction chars generalizing offset found with
  | nil => exact (List.append_nil _).symm
  | cons c chars ih =>
      rw [startsFrom, ih, startsBehind]
      split
      · rw [List.reverse_cons, List.append_assoc, List.singleton_append]
      · rfl

theorem starts_ofText (source : String) :
    (ofText source).starts = 0 :: startsBehind 0 source.toList :=
  startsFrom_eq 0 [0] source.toList

theorem startsBehind_append (offset : Nat) (chars more : List Char) :
    startsBehind offset (chars ++ more) =
      startsBehind offset chars ++ startsBehind (offset + bytes chars) more := by
  induction chars generalizing offset with
  | nil => rfl
  | cons c chars ih =>
      rw [List.cons_append, startsBehind, startsBehind, ih, bytes_cons, Nat.add_assoc]
      split <;> rfl

theorem length_startsBehind (offset : Nat) (chars : List Char) :
    (startsBehind offset chars).length = chars.count '\n' := by
  induction chars generalizing offset with
  | nil => rfl
  | cons c chars ih =>
      rw [startsBehind]
      by_cases feed : c = '\n'
      · simp [feed, ih]
      · simp [feed, ih]

theorem startsBehind_unbroken (offset : Nat) (unbroken : '\n' ∉ chars) :
    startsBehind offset chars = [] := by
  rw [← List.length_eq_zero_iff, length_startsBehind, List.count_eq_zero.mpr unbroken]

theorem mem_startsBehind (listed : start ∈ startsBehind offset chars) :
    offset < start ∧ start ≤ offset + bytes chars := by
  induction chars generalizing offset with
  | nil => cases listed
  | cons c chars ih =>
      have positive := c.utf8Size_pos
      have later (found : start ∈ startsBehind (offset + c.utf8Size) chars) :
          offset < start ∧ start ≤ offset + bytes (c :: chars) := by
        have bounds := ih found
        rw [bytes_cons]
        omega
      rw [startsBehind] at listed
      split at listed
      · rcases List.mem_cons.mp listed with rfl | found
        · rw [bytes_cons]
          omega
        · exact later found
      · exact later listed

theorem exists_starts (line : Line before chars rest)
    (split : source.toList = before ++ chars ++ rest) : ∃ earlier,
    (ofText source).starts =
      earlier ++ bytes before :: startsBehind (bytes (before ++ chars)) rest ∧
      earlier.length = before.count '\n' ∧ ∀ start ∈ earlier, start < bytes before := by
  have later (offset : Nat) : startsBehind offset (chars ++ rest) =
      startsBehind (offset + bytes chars) rest := by
    rw [startsBehind_append, startsBehind_unbroken offset line.unbroken, List.nil_append]
  rw [starts_ofText, split, List.append_assoc, bytes_append]
  rcases line.begins with rfl | ⟨lead, rfl⟩
  · refine ⟨[], ?_, rfl, by simp⟩
    rw [List.nil_append, later]
    rfl
  · have last : startsBehind 0 (lead ++ ['\n']) =
        startsBehind 0 lead ++ [bytes (lead ++ ['\n'])] := by
      rw [startsBehind_append, bytes_append, startsBehind, if_pos rfl]
      simp [startsBehind]
    refine ⟨0 :: startsBehind 0 lead, ?_, ?_, ?_⟩
    · rw [startsBehind_append, later, last, Nat.zero_add]
      simp
    · rw [List.length_cons, length_startsBehind, List.count_append]
      rfl
    · intro start listed
      have feed : bytes ['\n'] = 1 := rfl
      rw [bytes_append, feed]
      rcases List.mem_cons.mp listed with rfl | listed
      · omega
      · have bounds := mem_startsBehind listed
        omega

theorem line?_eq (line : Line before chars rest)
    (split : source.toList = before ++ chars ++ rest) :
    (ofText source).line? (before.count '\n' + 1) =
      .ok (some (trimReturns (String.ofList chars))) := by
  have slice := slice_append split
  obtain ⟨earlier, starts, number, -⟩ := exists_starts line split
  rw [LineIndex.line?, Nat.add_sub_cancel, starts, ← number, List.drop_left]
  dsimp only
  rw [if_neg (Nat.succ_ne_zero _)]
  rcases line.ends with rfl | ⟨tail, rfl⟩
  · rw [List.append_nil] at split
    have size : (ofText source).source.utf8ByteSize = bytes before + bytes chars := by
      rw [ofText, utf8ByteSize_eq, split, bytes_append]
    simp only [startsBehind, size]
    rw [ofText, slice]
    rfl
  · have feed : '\n'.utf8Size = 1 := rfl
    simp only [startsBehind, if_true, feed, Nat.add_sub_cancel, bytes_append]
    rw [ofText, slice]
    rfl

theorem takeWhile_low (below : ∀ m ∈ low, m < n) (above : ∀ m ∈ high.head?, n ≤ m) :
    (low ++ high).takeWhile (· < n) = low := by
  rw [List.takeWhile_append_of_pos (by simpa using below)]
  cases high with
  | nil => simp
  | cons m high =>
      have least : n ≤ m := above m rfl
      simp [Nat.not_lt_of_le least]

theorem search_found (below : ∀ m ∈ low, m < n) :
    search n (low ++ n :: high) = .ok low.length := by
  simp [search, takeWhile_low below (show ∀ m ∈ (n :: high).head?, n ≤ m by simp)]

theorem search_missing (below : ∀ m ∈ low, m < n) (above : ∀ m ∈ high, n < m) :
    search n (low ++ high) = .error low.length := by
  have least : ∀ m ∈ high.head?, n ≤ m := fun m first =>
    Nat.le_of_lt (above m (List.mem_of_mem_head? first))
  have absent : (low ++ high)[low.length]? ≠ some n := by
    rw [List.getElem?_append_right le_rfl, Nat.sub_self]
    intro found
    exact Nat.lt_irrefl n (above n (List.mem_of_getElem? found))
  simp only [search, takeWhile_low below least, if_neg absent]

theorem lineAt_eq (line : Line before (lead ++ tail) rest)
    (split : source.toList = before ++ (lead ++ tail) ++ rest) :
    (ofText source).lineAt (bytes (before ++ lead)) = .ok (before.count '\n') := by
  obtain ⟨earlier, starts, number, below⟩ := exists_starts line split
  cases lead with
  | nil =>
      rw [lineAt, starts, List.append_nil, search_found below, number]
  | cons c lead =>
      -- Behind its beginning a line is found by where it would have to be put.
      have positive := c.utf8Size_pos
      have missing : search (bytes (before ++ c :: lead)) (ofText source).starts =
          .error (before.count '\n' + 1) := by
        rw [starts, List.append_cons earlier, search_missing]
        · simp [number]
        · intro start listed
          rw [bytes_append, bytes_cons]
          rcases List.mem_append.mp listed with listed | listed
          · have bound := below start listed
            omega
          · obtain rfl := List.mem_singleton.mp listed
            omega
        · intro start listed
          have bounds := mem_startsBehind listed
          simp only [bytes_append] at bounds ⊢
          omega
      rw [lineAt, missing]

theorem positionAt_behind (countable : Position.Countable source.toList)
    (split : source.toList = read ++ ahead) (cut : min offset source.utf8ByteSize = bytes read) :
    (ofText source).positionAt offset = .ok (behind read) := by
  obtain ⟨before, lead, tail, rest, rfl, rfl, line⟩ := exists_line read ahead
  have around : source.toList = before ++ (lead ++ tail) ++ rest := by simp [split]
  obtain ⟨earlier, starts, number, -⟩ := exists_starts line around
  have begun : (ofText source).starts[before.count '\n']? = some (bytes before) := by
    rw [starts, ← number, List.getElem?_append_right le_rfl, Nat.sub_self]
    rfl
  have part : source.toList = before ++ lead ++ (tail ++ rest) := by simp [split]
  have slice : slice source (bytes before) (bytes (before ++ lead)) = .ok (String.ofList lead) := by
    rw [bytes_append]
    exact slice_append part
  -- Lines and columns are at most one more than the characters of the text.
  have few := List.count_le_length (l := before) (a := '\n')
  rw [split] at countable
  simp only [Position.Countable, List.length_append] at countable
  have size : (ofText source).source = source := rfl
  simp only [positionAt, size, cut, lineAt_eq line around, begun, slice, bind, Except.bind, pure,
    Except.pure, String.length_ofList]
  rw [Nat.mod_eq_of_lt (by omega), Nat.mod_eq_of_lt (by omega), ← line.number, ← line.column,
    ← behind_offset]

theorem positionAt_offset (countable : Position.Countable source.toList)
    (split : source.toList = read ++ ahead) :
    (ofText source).positionAt (behind read).offset = .ok (behind read) := by
  refine positionAt_behind countable split ?_
  rw [behind_offset, utf8ByteSize_eq, split, bytes_append]
  exact Nat.min_eq_left (Nat.le_add_right _ _)

theorem of_positionAt {p : Position} (found : (ofText source).positionAt offset = .ok p) :
    ∃ read ahead, source.toList = read ++ ahead ∧ bytes read = min offset source.utf8ByteSize := by
  have size : (ofText source).source = source := rfl
  simp only [positionAt, size] at found
  cases located : (ofText source).lineAt (min offset source.utf8ByteSize) with
  | error fault => simp [located, bind, Except.bind] at found
  | ok number =>
      cases begun : (ofText source).starts[number]? with
      | none =>
          simp [located, begun, bind, Except.bind, throw, throwThe, MonadExceptOf.throw] at found
      | some start =>
          cases cut : slice source start (min offset source.utf8ByteSize) with
          | error fault => simp [located, begun, cut, bind, Except.bind] at found
          | ok part =>
              obtain ⟨before, rest, split, first, last⟩ := of_slice cut
              exact ⟨before ++ part.toList, rest, split, by rw [bytes_append, last, first]⟩

end LineIndex
end ExprLex
