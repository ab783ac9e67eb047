import ExprLex.Grammar.Proposal
import Mathlib

namespace ExprLex
open Computability
namespace Grammar

def oneOf (accepted : Char → Prop) : Language Char := {text | ∃ c, accepted c ∧ text = [c]}

def just (word : List Char) : Language Char := {text | text = word}

def many (parts : Language Char) : Language Char := parts * parts∗

def optional (part : Language Char) : Language Char := 1 + part

def Between (low high c : Char) : Prop := low ≤ c ∧ c ≤ high

instance (low high c : Char) : Decidable (Between low high c) := inferInstanceAs (Decidable (_ ∧ _))

def Digit (c : Char) : Prop := Between '0' '9' c

instance : DecidablePred Digit := fun c => inferInstanceAs (Decidable (Between '0' '9' c))

def HexDigit (c : Char) : Prop := Digit c ∨ Between 'A' 'F' c ∨ Between 'a' 'f' c

instance : DecidablePred HexDigit := fun _ => inferInstanceAs (Decidable (_ ∨ _))

def Letter (c : Char) : Prop := Between 'A' 'Z' c ∨ Between 'a' 'z' c

instance : DecidablePred Letter := fun _ => inferInstanceAs (Decidable (_ ∨ _))

def digits : Language Char := many (oneOf Digit)

def integers : Language Char := digits * optional (oneOf (· ∈ ['L', 'l']))

def hexIntegers : Language Char :=
  just ['0'] * oneOf (· ∈ ['x', 'X']) * many (oneOf HexDigit) * optional (oneOf (· ∈ ['L', 'l']))

def exponents : Language Char :=
  oneOf (· ∈ ['E', 'e']) * optional (oneOf (· ∈ ['+', '-'])) * digits

def typeMarks : Language Char := oneOf (· ∈ ['F', 'f', 'D', 'd'])

def reals : Language Char :=
  just ['.'] * digits * optional exponents * optional typeMarks
    + digits * just ['.'] * digits * optional exponents * optional typeMarks
    + digits * exponents * optional typeMarks
    + digits * typeMarks

/-- What strings are made of between their quotes. With doubling, two quotes stand for one. -/
def stringPart (quote : Char) (doubling : Bool) : Language Char :=
  oneOf (fun c => c ≠ quote ∧ c ≠ '\uffff') + if doubling then just [quote, quote] else 0

def strings (quote : Char) (doubling : Bool) : Language Char :=
  just [quote] * (stringPart quote doubling)∗ * just [quote]

def namePart : Language Char := oneOf (fun c => Letter c ∨ Digit c ∨ c = '_') + just ['\\', '.']

def identifiers : Language Char := oneOf (fun c => Letter c ∨ c = '_') * namePart∗

def blanks : Language Char := many (oneOf (· ∈ [' ', '\t', '\n', '\r']))

end Grammar

open Grammar in
/-- The lexemes of a kind. The end mark has none. -/
def Kind.language (kind : Kind) : Language Char :=
  match kind with
  | .integer => integers
  | .hexInteger => hexIntegers
  | .real => reals
  | .singleQuoted => strings '\x27' true
  | .doubleQuoted => strings '"' false
  | .identifier => identifiers
  | .whitespace => blanks
  | _ => match kind.fixedText with
    | some text => just text.toList
    | none => 0

namespace Grammar

variable {p : Char → Prop} {text word : List Char} {l : Language Char}

@[simp] theorem mem_oneOf : text ∈ oneOf p ↔ ∃ c, p c ∧ text = [c] := Iff.rfl

@[simp] theorem mem_just : text ∈ just word ↔ text = word := Iff.rfl

theorem mem_optional : text ∈ optional l ↔ text = [] ∨ text ∈ l := by
  rw [optional, Language.mem_add, Language.mem_one]

theorem mem_star : text ∈ l∗ ↔ text = [] ∨ ∃ part ∈ l, ∃ rest ∈ l∗, part ++ rest = text := by
  conv_lhs => rw [← Language.one_add_self_mul_kstar_eq_kstar]
  rw [Language.mem_add, Language.mem_one, Language.mem_mul]

theorem mem_oneOf_star : text ∈ (oneOf p)∗ ↔ ∀ c ∈ text, p c := by
  induction text with
  | nil => simp [Language.nil_mem_kstar]
  | cons c text ih =>
      rw [mem_star]
      constructor
      · rintro (empty | ⟨part, ⟨d, accepted, rfl⟩, rest, member, equal⟩)
        · cases empty
        · obtain ⟨rfl, rfl⟩ := List.cons.inj equal
          exact List.forall_mem_cons.mpr ⟨accepted, ih.mp member⟩
      · intro all
        obtain ⟨accepted, all⟩ := List.forall_mem_cons.mp all
        exact .inr ⟨[c], ⟨c, accepted, rfl⟩, text, ih.mpr all, rfl⟩

theorem mem_many_oneOf : text ∈ many (oneOf p) ↔ text ≠ [] ∧ ∀ c ∈ text, p c := by
  rw [many, Language.mem_mul]
  constructor
  · rintro ⟨part, ⟨c, accepted, rfl⟩, rest, member, rfl⟩
    exact ⟨by simp, List.forall_mem_cons.mpr ⟨accepted, mem_oneOf_star.mp member⟩⟩
  · rintro ⟨nonempty, all⟩
    cases text with
    | nil => contradiction
    | cons c text =>
        obtain ⟨accepted, all⟩ := List.forall_mem_cons.mp all
        exact ⟨[c], ⟨c, accepted, rfl⟩, text, mem_oneOf_star.mpr all, rfl⟩

theorem mem_digits : text ∈ digits ↔ text ≠ [] ∧ ∀ c ∈ text, Digit c := mem_many_oneOf

def Breaks (p : Char → Prop) (rest : List Char) : Prop := ∀ c ∈ rest.head?, ¬ p c

@[simp] theorem breaks_nil : Breaks p [] := by simp [Breaks]

@[simp] theorem breaks_cons {c : Char} : Breaks p (c :: text) ↔ ¬ p c := by simp [Breaks]

theorem not_breaks_iff : ¬ Breaks p text ↔ ∃ c rest, text = c :: rest ∧ p c := by
  cases text <;> simp

theorem exists_run (p : Char → Prop) (text : List Char) :
    ∃ run rest, text = run ++ rest ∧ (∀ c ∈ run, p c) ∧ Breaks p rest := by
  induction text with
  | nil => exact ⟨[], [], by simp⟩
  | cons c text ih =>
      obtain ⟨run, rest, rfl, all, stop⟩ := ih
      by_cases accepted : p c
      · exact ⟨c :: run, rest, rfl, List.forall_mem_cons.mpr ⟨accepted, all⟩, stop⟩
      · exact ⟨[], c :: (run ++ rest), rfl, by simp, by simpa using accepted⟩

theorem takeWhile_run {f : Char → Bool} {run rest : List Char} (agree : ∀ c, p c ↔ f c = true)
    (all : ∀ c ∈ run, p c) (stop : Breaks p rest) : (run ++ rest).takeWhile f = run := by
  have ends : rest.takeWhile f = [] := by
    cases rest with
    | nil => rfl
    | cons c rest => simp [← agree, breaks_cons.mp stop]
  rw [List.takeWhile_append_of_pos fun c member => (agree c).mp (all c member), ends,
    List.append_nil]

theorem forall_listed [DecidablePred p] (all : text.all (p ·) = true) : ∀ c ∈ text, p c := by
  simpa using all

theorem digit_iff (c : Char) : Digit c ↔ c.isDigit = true := by
  simp [Digit, Between, Char.isDigit, Char.le_def]

end Grammar

namespace Proposal

@[simp] theorem length_accept (length : Nat) (kind : Kind) : (accept length kind).length = length :=
  rfl

@[simp] theorem length_reject (length : Nat) (flaw : Flaw) : (reject length flaw).length = length :=
  rfl

end Proposal

namespace Grammar

/-- What a rule owes its kind: it accepts lexemes of this kind only, and where a text begins with
such a lexeme, it proposes at least as much. -/
structure Reads (kind : Kind) (text : List Char) (offer : Option Proposal) : Prop where
  sound : ∀ length other, offer = some (.accept length other) →
    other = kind ∧ ∃ word rest, text = word ++ rest ∧ word ∈ kind.language ∧ word.length = length
  covers : ∀ word rest, text = word ++ rest → word ∈ kind.language →
    ∃ proposal, offer = some proposal ∧ word.length ≤ proposal.length

end Grammar
end ExprLex
