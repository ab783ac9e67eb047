import ExprLex.Grammar.Name
import ExprLex.Proofs.Grammar.Language

namespace ExprLex.Grammar
open Computability

variable {text word rest : List Char} {read : Nat}

theorem letter_iff (c : Char) : Letter c ↔ c.isAlpha = true := by
  simp [Letter, Between, Char.isAlpha, Char.isUpper, Char.isLower, Char.le_def]

theorem nameStart_iff (c : Char) : Letter c ∨ c = '_' ↔ isNameStart c = true := by
  simp [letter_iff, isNameStart]

theorem namePart_iff (c : Char) : Letter c ∨ Digit c ∨ c = '_' ↔ isNamePart c = true := by
  simp [letter_iff, digit_iff, isNamePart, Char.isAlphanum, or_assoc]

theorem space_iff (c : Char) : c ∈ [' ', '\t', '\n', '\r'] ↔ isSpace c = true := by
  simp [isSpace, or_assoc]

theorem mem_nameParts : word ∈ namePart∗ ↔ word = [] ∨
    (∃ c rest, isNamePart c = true ∧ rest ∈ namePart∗ ∧ word = c :: rest) ∨
    ∃ rest ∈ namePart∗, word = '\\' :: '.' :: rest := by
  rw [mem_star]
  refine or_congr_right ⟨?_, ?_⟩
  · rintro ⟨_, part | rfl, rest, member, rfl⟩
    · obtain ⟨c, accepted, rfl⟩ := part
      exact .inl ⟨c, rest, (namePart_iff c).mp accepted, member, rfl⟩
    · exact .inr ⟨rest, member, rfl⟩
  · rintro (⟨c, rest, accepted, member, rfl⟩ | ⟨rest, member, rfl⟩)
    · exact ⟨[c], .inl ⟨c, (namePart_iff c).mpr accepted, rfl⟩, rest, member, rfl⟩
    · exact ⟨['\\', '.'], .inr rfl, rest, member, rfl⟩

theorem nameFrom_sound (text : List Char) (read : Nat) : ∃ word rest, text = word ++ rest ∧
    word ∈ namePart∗ ∧ nameFrom text read = read + word.length := by
  fun_induction nameFrom text read with
  | case1 rest read ih =>
      obtain ⟨word, rest, rfl, member, total⟩ := ih
      refine ⟨'\\' :: '.' :: word, rest, rfl,
        mem_nameParts.mpr (.inr (.inr ⟨word, member, rfl⟩)), ?_⟩
      simp only [total, List.length_cons]
      omega
  | case2 c rest read pairless accepted ih =>
      obtain ⟨word, rest, rfl, member, total⟩ := ih
      refine ⟨c :: word, rest, rfl,
        mem_nameParts.mpr (.inr (.inl ⟨c, word, accepted, member, rfl⟩)), ?_⟩
      simp only [total, List.length_cons]
      omega
  | case3 c rest read => exact ⟨[], c :: rest, rfl, Language.nil_mem_kstar _, rfl⟩
  | case4 read => exact ⟨[], [], rfl, Language.nil_mem_kstar _, rfl⟩

theorem le_nameFrom (text : List Char) (read : Nat) : read ≤ nameFrom text read := by
  obtain ⟨word, rest, -, -, total⟩ := nameFrom_sound text read
  omega

theorem nameFrom_append (member : word ∈ namePart∗) (rest : List Char) (read : Nat) :
    nameFrom (word ++ rest) read = nameFrom rest (read + word.length) := by
  induction length : word.length using Nat.strong_induction_on generalizing word read with
  | _ length ih =>
      subst length
      rcases mem_nameParts.mp member with rfl | ⟨c, tail, accepted, tailMember, rfl⟩ |
        ⟨tail, tailMember, rfl⟩
      · rfl
      · have step : nameFrom (c :: tail ++ rest) read = nameFrom (tail ++ rest) (read + 1) := by
          rw [List.cons_append, nameFrom, if_pos accepted]
          rintro more rfl
          exact absurd accepted (by decide)
        rw [step, ih tail.length (by simp) tailMember (read + 1) rfl, List.length_cons]
        congr 1
        omega
      · rw [List.cons_append, List.cons_append, nameFrom,
          ih tail.length (by simp only [List.length_cons]; omega) tailMember (read + 2) rfl]
        simp only [List.length_cons]
        congr 1
        omega

def Extends (c : Char) : Prop := (Letter c ∨ Digit c ∨ c = '_') ∨ c = '\\'

instance : DecidablePred Extends := fun _ => inferInstanceAs (Decidable (_ ∨ _))

theorem nameFrom_stop (stop : Breaks Extends rest) (read : Nat) : nameFrom rest read = read := by
  cases rest with
  | nil => rfl
  | cons c rest =>
      have apart := breaks_cons.mp stop
      have other : ¬ isNamePart c = true := by
        rw [← namePart_iff]
        exact fun part => apart (.inl part)
      rw [nameFrom, if_neg other]
      rintro more rfl
      exact absurd apart (by decide)

theorem identifier_append (member : word ∈ identifiers) (rest : List Char) :
    identifier (word ++ rest) = some (.accept (nameFrom rest word.length) .identifier) := by
  obtain ⟨_, ⟨c, start, rfl⟩, parts, partsMember, rfl⟩ := Language.mem_mul.mp member
  rw [List.append_assoc, List.singleton_append, identifier, if_pos ((nameStart_iff c).mp start),
    nameFrom_append partsMember, List.singleton_append, List.length_cons, Nat.add_comm]

theorem identifier_reads (text : List Char) : Reads .identifier text (identifier text) where
  sound := by
    intro length other accepted
    cases text with
    | nil => cases accepted
    | cons c text =>
        rw [identifier] at accepted
        split at accepted
        · rename_i start
          obtain ⟨word, rest, rfl, member, total⟩ := nameFrom_sound text 1
          cases accepted
          refine ⟨rfl, c :: word, rest, rfl, ?_, by simp [total, Nat.add_comm]⟩
          exact Language.append_mem_mul (a := [c]) ⟨c, (nameStart_iff c).mpr start, rfl⟩ member
        · cases accepted
  covers := by
    rintro word rest rfl member
    exact ⟨_, identifier_append member rest, le_nameFrom rest word.length⟩

theorem mem_identifiers :
    word ∈ identifiers ↔ identifier word = some (.accept word.length .identifier) := by
  constructor
  · intro member
    have proposed := identifier_append member []
    rwa [List.append_nil] at proposed
  · intro proposed
    obtain ⟨-, read, rest, split, member, length⟩ := (identifier_reads word).sound _ _ proposed
    have whole : word.length = read.length + rest.length := by rw [split, List.length_append]
    obtain rfl : rest = [] := List.length_eq_zero_iff.mp (by omega)
    rw [split, List.append_nil]
    exact member

instance : DecidablePred (· ∈ identifiers) := fun _ => decidable_of_iff _ mem_identifiers.symm

theorem whitespace_run {run : List Char} (all : ∀ c ∈ run, c ∈ [' ', '\t', '\n', '\r'])
    (stop : Breaks (· ∈ [' ', '\t', '\n', '\r']) rest) : whitespace (run ++ rest) =
      if run = [] then none else some (.accept run.length .whitespace) := by
  rw [whitespace, takeWhile_run space_iff all stop]
  cases run <;> rfl

theorem whitespace_reads (text : List Char) : Reads .whitespace text (whitespace text) where
  sound := by
    intro length other accepted
    obtain ⟨run, rest, rfl, all, stop⟩ := exists_run (· ∈ [' ', '\t', '\n', '\r']) text
    rw [whitespace_run all stop] at accepted
    split at accepted
    · cases accepted
    · rename_i nonempty
      cases accepted
      exact ⟨rfl, run, rest, rfl, mem_many_oneOf.mpr ⟨nonempty, all⟩, rfl⟩
  covers := by
    rintro run rest rfl member
    obtain ⟨nonempty, all⟩ := mem_many_oneOf.mp member
    obtain ⟨more, rest, rfl, allMore, stop⟩ := exists_run (· ∈ [' ', '\t', '\n', '\r']) rest
    have found := whitespace_run (List.forall_mem_append.mpr ⟨all, allMore⟩) stop
    rw [if_neg (by simp [nonempty]), List.append_assoc] at found
    exact ⟨_, found, by simp [Proposal.length]⟩

end ExprLex.Grammar
