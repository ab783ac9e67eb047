import ExprLex.Grammar.Number
import ExprLex.Proofs.Grammar.Language

namespace ExprLex.Grammar
open Computability

variable {run rest text : List Char} {p : Char → Prop} {f : Char → Bool} {accepted : List Char}

theorem hexDigit_iff (c : Char) : HexDigit c ↔ isHexDigit c = true := by
  rw [HexDigit, digit_iff, isHexDigit]
  simp [Between]
  tauto

theorem digitCount_run (agree : ∀ c, p c ↔ f c = true) (all : ∀ c ∈ run, p c)
    (stop : Breaks p rest) : digitCount f (run ++ rest) = run.length :=
  congrArg List.length (takeWhile_run agree all stop)

theorem digitCount_digits (all : ∀ c ∈ run, Digit c) (stop : Breaks Digit rest) :
    digitCount Char.isDigit (run ++ rest) = run.length :=
  digitCount_run digit_iff all stop

theorem beginsWith_iff : beginsWith accepted text = true ↔ ¬ Breaks (· ∈ accepted) text := by
  cases text <;> simp [beginsWith]

theorem markLength_breaks (stop : Breaks (· ∈ accepted) rest) : markLength accepted rest = 0 := by
  simp [markLength, beginsWith_iff, stop]

theorem markLength_cons {c : Char} (member : c ∈ accepted) :
    markLength accepted (c :: rest) = 1 := by
  simp [markLength, beginsWith_iff, member]

def Marked (accepted mark rest : List Char) : Prop :=
  mark ∈ optional (oneOf (· ∈ accepted)) ∧ (mark = [] → Breaks (· ∈ accepted) rest)

theorem markLength_append {mark : List Char} (marked : Marked accepted mark rest) :
    markLength accepted (mark ++ rest) = mark.length := by
  obtain ⟨member, taken⟩ := marked
  rcases mem_optional.mp member with rfl | ⟨c, listed, rfl⟩
  · exact markLength_breaks (taken rfl)
  · exact markLength_cons listed

theorem exists_mark (accepted text : List Char) :
    ∃ mark rest, text = mark ++ rest ∧ Marked accepted mark rest := by
  cases text with
  | nil => exact ⟨[], [], rfl, mem_optional.mpr (.inl rfl), fun _ => breaks_nil⟩
  | cons c rest =>
      by_cases member : c ∈ accepted
      · exact ⟨[c], rest, rfl, mem_optional.mpr (.inr ⟨c, member, rfl⟩), by simp⟩
      · exact ⟨[], c :: rest, rfl, mem_optional.mpr (.inl rfl), by simpa using member⟩

def markedRuns (p : Char → Prop) (marks : List Char) : Language Char :=
  many (oneOf p) * optional (oneOf (· ∈ marks))

def markedLength (f : Char → Bool) (marks text : List Char) : Nat :=
  digitCount f text + markLength marks (text.drop (digitCount f text))

theorem markedLength_run {marks : List Char} (agree : ∀ c, p c ↔ f c = true)
    (all : ∀ c ∈ run, p c) (stop : Breaks p rest) :
    markedLength f marks (run ++ rest) = run.length + markLength marks rest := by
  rw [markedLength, digitCount_run agree all stop, List.drop_left]

theorem digitCount_eq_zero (agree : ∀ c, p c ↔ f c = true) :
    digitCount f text = 0 ↔ Breaks p text := by
  cases text with
  | nil => simp [digitCount]
  | cons c text => cases accepted : f c <;> simp [digitCount, accepted, agree]

theorem exists_markedRun (marks : List Char) (agree : ∀ c, p c ↔ f c = true)
    (begun : digitCount f text ≠ 0) : ∃ word rest, text = word ++ rest ∧
      word ∈ markedRuns p marks ∧ word.length = markedLength f marks text := by
  obtain ⟨run, rest, rfl, all, stop⟩ := exists_run p text
  obtain ⟨mark, more, rfl, marked⟩ := exists_mark marks rest
  have nonempty : run ≠ [] := by
    rintro rfl
    exact begun ((digitCount_eq_zero agree).mpr stop)
  refine ⟨run ++ mark, more, by simp, ?_, ?_⟩
  · exact Language.append_mem_mul (mem_many_oneOf.mpr ⟨nonempty, all⟩) marked.1
  · rw [markedLength_run agree all stop, markLength_append marked, List.length_append]

theorem le_markedLength {marks word : List Char} (rest : List Char) (agree : ∀ c, p c ↔ f c = true)
    (apart : ∀ c ∈ marks, ¬ p c) (member : word ∈ markedRuns p marks) :
    digitCount f (word ++ rest) ≠ 0 ∧ word.length ≤ markedLength f marks (word ++ rest) := by
  obtain ⟨run, whole, mark, marked, rfl⟩ := Language.mem_mul.mp member
  obtain ⟨nonempty, all⟩ := mem_many_oneOf.mp whole
  constructor
  · rw [Ne, digitCount_eq_zero agree]
    obtain ⟨c, run, rfl⟩ := List.exists_cons_of_ne_nil nonempty
    simpa using all c List.mem_cons_self
  · rcases mem_optional.mp marked with rfl | ⟨c, listed, rfl⟩
    · -- Without a mark, the run may go on in what follows.
      obtain ⟨more, rest, rfl, allMore, stop⟩ := exists_run p rest
      rw [List.append_nil, ← List.append_assoc,
        markedLength_run agree (List.forall_mem_append.mpr ⟨all, allMore⟩) stop]
      simp only [List.length_append]
      omega
    · rw [List.append_assoc, List.singleton_append,
        markedLength_run agree all (breaks_cons.mpr (apart c listed)), markLength_cons listed]
      simp

theorem integer_eq (text : List Char) : integer text =
    if digitCount Char.isDigit text = 0 then none
    else some (.accept (markedLength Char.isDigit longMarks text) .integer) := rfl

theorem digit_not_long : ∀ c ∈ longMarks, ¬ Digit c := forall_listed (by decide)

theorem integer_reads (text : List Char) : Reads .integer text (integer text) where
  sound := by
    intro length other accepted
    rw [integer_eq] at accepted
    split at accepted
    · cases accepted
    · rename_i begun
      cases accepted
      exact ⟨rfl, exists_markedRun longMarks digit_iff begun⟩
  covers := by
    rintro word rest rfl member
    obtain ⟨begun, bound⟩ := le_markedLength rest digit_iff digit_not_long member
    refine ⟨.accept (markedLength Char.isDigit longMarks (word ++ rest)) .integer, ?_, bound⟩
    rw [integer_eq, if_neg begun]

theorem hexInteger_marked {x : Char} (mark : x ∈ ['x', 'X']) (rest : List Char) :
    hexInteger ('0' :: x :: rest) =
      if digitCount isHexDigit rest = 0 then some (.reject 2 .malformedNumber)
      else some (.accept (2 + markedLength isHexDigit longMarks rest) .hexInteger) := by
  have either : x = 'x' ∨ x = 'X' := by simpa using mark
  simp [hexInteger, either, markedLength, Nat.add_assoc]

theorem hexInteger_marked_of_some {proposal : Proposal}
    (proposed : hexInteger text = some proposal) :
    ∃ x rest, x ∈ ['x', 'X'] ∧ text = '0' :: x :: rest := by
  unfold hexInteger at proposed
  split at proposed
  · rename_i x rest
    split at proposed
    · rename_i either
      exact ⟨x, rest, by simpa using either, rfl⟩
    · cases proposed
  · cases proposed

theorem hexDigit_not_long : ∀ c ∈ longMarks, ¬ HexDigit c := forall_listed (by decide)

theorem hexIntegers_eq : hexIntegers =
    just ['0'] * (oneOf (· ∈ ['x', 'X']) * markedRuns HexDigit longMarks) := by
  simp only [hexIntegers, markedRuns, longMarks, mul_assoc]

theorem hexInteger_reads (text : List Char) : Reads .hexInteger text (hexInteger text) where
  sound := by
    intro length other accepted
    obtain ⟨x, rest, mark, rfl⟩ := hexInteger_marked_of_some accepted
    rw [hexInteger_marked mark] at accepted
    split at accepted
    · cases accepted
    · rename_i begun
      cases accepted
      obtain ⟨word, rest, rfl, member, exact⟩ := exists_markedRun longMarks hexDigit_iff begun
      refine ⟨rfl, '0' :: x :: word, rest, rfl, ?_, ?_⟩
      · change _ ∈ hexIntegers
        rw [hexIntegers_eq]
        exact Language.append_mem_mul (mem_just.mpr rfl)
          (Language.append_mem_mul (a := [x]) ⟨x, mark, rfl⟩ member)
      · simp only [List.length_cons, exact]
        omega
  covers := by
    rintro word rest rfl member
    change word ∈ hexIntegers at member
    rw [hexIntegers_eq] at member
    obtain ⟨_, rfl, _, tail, rfl⟩ := Language.mem_mul.mp member
    obtain ⟨_, ⟨x, mark, rfl⟩, word, run, rfl⟩ := Language.mem_mul.mp tail
    obtain ⟨begun, bound⟩ := le_markedLength rest hexDigit_iff hexDigit_not_long run
    refine ⟨_, (hexInteger_marked mark (word ++ rest)).trans (if_neg begun), ?_⟩
    simp only [Proposal.length, List.length_append, List.length_singleton]
    omega

end ExprLex.Grammar
