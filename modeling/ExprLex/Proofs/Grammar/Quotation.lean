import ExprLex.Grammar.Quotation
import ExprLex.Proofs.Grammar.Language

namespace ExprLex.Grammar
open Computability

variable {quote : Char} {doubling : Bool} {kind : Kind} {body word rest text : List Char}
  {read : Nat}

theorem mem_stringPart : word ∈ stringPart quote doubling ↔
    (∃ c, c ≠ quote ∧ c ≠ unquotable ∧ word = [c]) ∨ doubling = true ∧ word = [quote, quote] := by
  rw [stringPart, Language.mem_add, mem_oneOf]
  refine or_congr ?_ ?_
  · simp only [and_assoc]
    rfl
  · cases doubling
    · simp [Language.notMem_zero]
    · simp

theorem mem_body : body ∈ (stringPart quote doubling)∗ ↔ body = [] ∨
    (∃ c rest, c ≠ quote ∧ c ≠ unquotable ∧ rest ∈ (stringPart quote doubling)∗ ∧
      body = c :: rest) ∨
    doubling = true ∧ ∃ rest ∈ (stringPart quote doubling)∗, body = quote :: quote :: rest := by
  rw [mem_star]
  refine or_congr_right ⟨?_, ?_⟩
  · rintro ⟨part, partMember, rest, member, rfl⟩
    rcases mem_stringPart.mp partMember with ⟨c, other, quotable, rfl⟩ | ⟨doubled, rfl⟩
    · exact .inl ⟨c, rest, other, quotable, member, rfl⟩
    · exact .inr ⟨doubled, rest, member, rfl⟩
  · rintro (⟨c, rest, other, quotable, member, rfl⟩ | ⟨doubled, rest, member, rfl⟩)
    · exact ⟨[c], mem_stringPart.mpr (.inl ⟨c, other, quotable, rfl⟩), rest, member, rfl⟩
    · exact ⟨[quote, quote], mem_stringPart.mpr (.inr ⟨doubled, rfl⟩), rest, member, rfl⟩

theorem quotedFrom_plain {c : Char} (other : c ≠ quote) (quotable : c ≠ unquotable) :
    quotedFrom quote doubling kind (c :: rest) read =
      quotedFrom quote doubling kind rest (read + 1) := by
  cases rest <;> simp [quotedFrom, other, quotable]

theorem quotedFrom_pair (proper : quote ≠ unquotable) (doubled : doubling = true) :
    quotedFrom quote doubling kind (quote :: quote :: rest) read =
      quotedFrom quote doubling kind rest (read + 2) := by
  simp [quotedFrom, proper, doubled]

theorem quotedFrom_close (proper : quote ≠ unquotable)
    (single : doubling = true → Breaks (· = quote) rest) :
    quotedFrom quote doubling kind (quote :: rest) read = .accept (read + 1) kind := by
  cases rest with
  | nil => simp [quotedFrom, proper]
  | cons d rest =>
      have undoubled : ¬ (doubling = true ∧ d = quote) := fun both => by
        simpa [both.2] using single both.1
      simp [quotedFrom, proper, undoubled]

theorem quotedFrom_barred : quotedFrom quote doubling kind (unquotable :: rest) read =
    .reject read .unterminatedString := by
  cases rest <;> simp [quotedFrom]

theorem quotedFrom_body (proper : quote ≠ unquotable) (member : body ∈ (stringPart quote doubling)∗)
    (rest : List Char) (read : Nat) : quotedFrom quote doubling kind (body ++ rest) read =
      quotedFrom quote doubling kind rest (read + body.length) := by
  induction length : body.length using Nat.strong_induction_on generalizing body read with
  | _ length ih =>
      subst length
      rcases mem_body.mp member with rfl | ⟨c, tail, other, quotable, tailMember, rfl⟩ |
        ⟨doubled, tail, tailMember, rfl⟩
      · rfl
      · rw [List.cons_append, quotedFrom_plain other quotable,
          ih tail.length (by simp) tailMember (read + 1) rfl, List.length_cons, Nat.add_assoc,
          Nat.add_comm 1]
      · rw [List.cons_append, List.cons_append, quotedFrom_pair proper doubled,
          ih tail.length (by simp only [List.length_cons]; omega) tailMember (read + 2) rfl,
          List.length_cons, List.length_cons, Nat.add_assoc, Nat.add_comm 2]

inductive Closing (quote : Char) (doubling : Bool) : List Char → Prop
  | ended : Closing quote doubling []
  | barred {rest : List Char} : Closing quote doubling (unquotable :: rest)
  | closed {rest : List Char} (single : doubling = true → Breaks (· = quote) rest) :
      Closing quote doubling (quote :: rest)

theorem exists_body (quote : Char) (doubling : Bool) (text : List Char) :
    ∃ body rest, text = body ++ rest ∧ body ∈ (stringPart quote doubling)∗ ∧
      Closing quote doubling rest := by
  induction length : text.length using Nat.strong_induction_on generalizing text with
  | _ length ih =>
      subst length
      cases text with
      | nil => exact ⟨[], [], rfl, Language.nil_mem_kstar _, .ended⟩
      | cons c text =>
          by_cases unquoted : c = unquotable
          · subst unquoted
            exact ⟨[], _, rfl, Language.nil_mem_kstar _, .barred⟩
          · by_cases other : c = quote
            · subst other
              by_cases single : doubling = true → Breaks (· = c) text
              · exact ⟨[], _, rfl, Language.nil_mem_kstar _, .closed single⟩
              · obtain ⟨doubled, twice⟩ := Classical.not_imp.mp single
                obtain ⟨_, text, rfl, rfl⟩ := not_breaks_iff.mp twice
                obtain ⟨body, rest, rfl, member, closing⟩ :=
                  ih text.length (by simp only [List.length_cons]; omega) text rfl
                exact ⟨_ :: _ :: body, rest, rfl,
                  mem_body.mpr (.inr (.inr ⟨doubled, body, member, rfl⟩)), closing⟩
            · obtain ⟨body, rest, rfl, member, closing⟩ := ih text.length (by simp) text rfl
              exact ⟨c :: body, rest, rfl,
                mem_body.mpr (.inr (.inl ⟨c, body, other, unquoted, member, rfl⟩)), closing⟩

theorem le_quotedFrom (doubling : Bool) (kind : Kind) (proper : quote ≠ unquotable)
    (text : List Char) (read : Nat) :
    read ≤ (quotedFrom quote doubling kind text read).length := by
  obtain ⟨body, rest, rfl, member, closing⟩ := exists_body quote doubling text
  rw [quotedFrom_body proper member]
  cases closing with
  | ended => exact Nat.le_add_right _ _
  | barred =>
      rw [quotedFrom_barred]
      exact Nat.le_add_right _ _
  | closed single =>
      rw [quotedFrom_close proper single]
      simp only [Proposal.length]
      omega

theorem quoted_reads (proper : quote ≠ unquotable)
    (spelled : kind.language = strings quote doubling) (text : List Char) :
    Reads kind text (quoted quote doubling kind text) where
  sound := by
    intro length other accepted
    cases text with
    | nil => cases accepted
    | cons c text =>
        rw [quoted] at accepted
        split at accepted
        · rename_i opened
          subst opened
          obtain ⟨body, rest, rfl, member, closing⟩ := exists_body c doubling text
          rw [quotedFrom_body proper member] at accepted
          cases closing with
          | ended => cases accepted
          | barred =>
              rw [quotedFrom_barred] at accepted
              cases accepted
          | @closed rest single =>
              rw [quotedFrom_close proper single] at accepted
              cases accepted
              refine ⟨rfl, [c] ++ body ++ [c], rest, by simp, ?_, by simp [Nat.add_comm]⟩
              rw [spelled]
              exact Language.append_mem_mul (Language.append_mem_mul (mem_just.mpr rfl) member)
                (mem_just.mpr rfl)
        · cases accepted
  covers := by
    rintro _ rest rfl member
    rw [spelled] at member
    obtain ⟨_, opened, _, rfl, rfl⟩ := Language.mem_mul.mp member
    obtain ⟨_, rfl, body, parts, rfl⟩ := Language.mem_mul.mp opened
    have shape : [quote] ++ body ++ [quote] ++ rest = quote :: (body ++ quote :: rest) := by simp
    rw [shape]
    refine ⟨_, if_pos rfl, ?_⟩
    rw [quotedFrom_body proper parts]
    by_cases single : doubling = true → Breaks (· = quote) rest
    · rw [quotedFrom_close proper single]
      simp only [Proposal.length_accept, List.length_append, List.length_singleton]
      omega
    · obtain ⟨doubled, twice⟩ := Classical.not_imp.mp single
      obtain ⟨_, rest, rfl, rfl⟩ := not_breaks_iff.mp twice
      rw [quotedFrom_pair proper doubled]
      have bound := le_quotedFrom doubling kind proper rest (1 + body.length + 2)
      simp only [List.length_append, List.length_singleton]
      omega

end ExprLex.Grammar
