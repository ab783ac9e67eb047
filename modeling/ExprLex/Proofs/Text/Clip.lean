import ExprLex.Proofs.Text.Bytes

namespace ExprLex.Text

variable {text : String} {limit last : Nat}

def cuts (text : String) (limit : Nat) : Set Nat :=
  {offset | offset ≤ limit ∧ (⟨offset⟩ : String.Pos.Raw).IsValid text}

theorem boundaryFrom_greatest (text : String) (limit : Nat) : ∃ stop,
    boundaryFrom text limit = .ok stop ∧ IsGreatest (cuts text limit) stop.offset.byteIdx := by
  fun_induction boundaryFrom text limit with
  | case1 limit valid =>
      refine ⟨_, rfl, ⟨le_rfl, valid⟩, ?_⟩
      rintro offset ⟨near, -⟩
      exact near
  | case2 inside => exact absurd String.Pos.Raw.isValid_zero inside
  | case3 limit inside ih =>
      obtain ⟨stop, found, ⟨near, valid⟩, last⟩ := ih
      refine ⟨stop, found, ⟨near.trans (Nat.le_succ limit), valid⟩, ?_⟩
      rintro offset ⟨below, cut⟩
      -- The search goes on only from inside a character, so it passes over no cut.
      have other : offset ≠ limit + 1 := by
        rintro rfl
        exact inside cut
      exact last ⟨by omega, cut⟩

theorem mem_cuts {part : String} (beginning : part.toList <+: text.toList)
    (fits : part.utf8ByteSize ≤ limit) : part.utf8ByteSize ∈ cuts text limit := by
  obtain ⟨rest, split⟩ := beginning
  exact ⟨fits, isValid_iff.mpr ⟨part.toList, rest, split.symm, (utf8ByteSize_eq part).symm⟩⟩

theorem limit_le_greatest (large : limit < text.utf8ByteSize)
    (greatest : IsGreatest (cuts text limit) last) : limit ≤ last + 3 := by
  obtain ⟨⟨near, valid⟩, greatest⟩ := greatest
  obtain ⟨before, rest, split, rfl⟩ := isValid_iff.mp valid
  rw [utf8ByteSize_eq, split, bytes_append] at large
  cases rest with
  | nil =>
      rw [bytes_nil] at large
      omega
  | cons c rest =>
      -- The character behind the last cut goes beyond the limit, and has at most four bytes.
      have next : (⟨bytes (before ++ [c])⟩ : String.Pos.Raw).IsValid text :=
        isValid_iff.mpr ⟨before ++ [c], rest, by simp [split], rfl⟩
      have width : bytes (before ++ [c]) = bytes before + c.utf8Size := by simp
      have positive := c.utf8Size_pos
      have narrow := c.utf8Size_le_four
      have beyond : limit < bytes (before ++ [c]) := by
        by_contra within
        have passed := greatest ⟨not_lt.mp within, next⟩
        omega
      omega

theorem clip_of_fits (fits : text.utf8ByteSize ≤ limit) : clip text limit = text := if_pos fits

theorem clip_of_large {stop : text.Pos} (large : limit < text.utf8ByteSize)
    (found : boundaryFrom text limit = .ok stop) : clip text limit = (text.sliceTo stop).copy := by
  rw [clip, if_neg (not_le.mpr large)]
  split
  rename_i same _
  rw [same] at found
  cases found
  rfl

theorem clip_beginning (text : String) (limit : Nat) : (clip text limit).toList <+: text.toList := by
  rcases le_or_gt text.utf8ByteSize limit with fits | large
  · rw [clip_of_fits fits]
  · obtain ⟨stop, found, -⟩ := boundaryFrom_greatest text limit
    have whole := congrArg String.toList stop.splits.eq_append
    rw [String.toList_append, ← clip_of_large large found] at whole
    exact ⟨_, whole.symm⟩

theorem clip_greatest (text : String) (limit : Nat) :
    IsGreatest (cuts text limit) (clip text limit).utf8ByteSize := by
  rcases le_or_gt text.utf8ByteSize limit with fits | large
  · rw [clip_of_fits fits]
    refine ⟨mem_cuts List.prefix_rfl fits, ?_⟩
    rintro offset ⟨-, valid⟩
    exact valid.le_utf8ByteSize
  · obtain ⟨stop, found, greatest⟩ := boundaryFrom_greatest text limit
    rwa [clip_of_large large found, ← String.byteIdx_rawEndPos,
      ← stop.splits.offset_eq_rawEndPos]

theorem clip_bytes (text : String) (limit : Nat) : (clip text limit).utf8ByteSize ≤ limit :=
  (clip_greatest text limit).1.1

/-- Whether a text is what is left of a message that is cut to `limit` bytes. -/
structure Clipped (message : String) (limit : Nat) (clipped : String) : Prop where
  beginning : clipped.toList <+: message.toList
  fits : clipped.utf8ByteSize ≤ limit
  longest : ∀ part : String, part.toList <+: message.toList → part.utf8ByteSize ≤ limit →
    part.toList <+: clipped.toList
  search : limit < message.utf8ByteSize → ∃ stop, boundaryFrom message limit = .ok stop ∧
    clipped = (message.sliceTo stop).copy ∧ stop.offset.byteIdx ≤ limit ∧
      limit ≤ stop.offset.byteIdx + 3
  whole : clipped = message ↔ message.utf8ByteSize ≤ limit
  again : clip clipped limit = clipped

/-- A message is cut to its longest beginning that fits, at most three bytes below the limit if the
message does not fit, and is not cut a second time. -/
theorem clip_longest (message : String) (limit : Nat) :
    Clipped message limit (clip message limit) := by
  have fits := clip_bytes message limit
  constructor
  case beginning => exact clip_beginning message limit
  case fits => exact fits
  case longest =>
    intro part beginning within
    have shorter := (clip_greatest message limit).2 (mem_cuts beginning within)
    rw [utf8ByteSize_eq, utf8ByteSize_eq] at shorter
    exact prefix_of_bytes_le beginning (clip_beginning message limit) shorter
  case search =>
    intro large
    obtain ⟨stop, found, greatest⟩ := boundaryFrom_greatest message limit
    exact ⟨stop, found, clip_of_large large found, greatest.1.1, limit_le_greatest large greatest⟩
  case whole =>
    constructor
    · intro same
      rwa [same] at fits
    · exact clip_of_fits
  case again => exact clip_of_fits fits

example : clip "a😀é" 4 = "a" := by decide

end ExprLex.Text
