import ExprLex.Json.Parsed
import ExprLex.Json.Value
import Mathlib

namespace ExprLex.Json

variable {text tail : List Char} {n : Nat}

def written (c : Char) : List Char := if needsEscape c then (escape c).toList else [c]

def enclosed (text : String) : List Char := '"' :: (text.toList.flatMap written ++ ['"'])

theorem quoteOnto_eq (out text : String) :
    quoteOnto out text = out ++ String.ofList (enclosed text) := by
  have body (chars : List Char) (out : String) :
      chars.foldl (fun out c => if needsEscape c then out ++ escape c else out.push c) out =
        out ++ String.ofList (chars.flatMap written) := by
    induction chars generalizing out with
    | nil => simp
    | cons c chars ih =>
        rw [List.foldl_cons, ih, List.flatMap_cons, written]
        apply String.toList_inj.mp
        split <;> simp
  rw [quoteOnto, body, enclosed]
  apply String.toList_inj.mp
  simp

theorem unit?_control : ∀ n < 0x20, unit? '0' '0' (Nat.digitChar (n / 16))
    (Nat.digitChar (n % 16)) = some n := by decide

theorem readString_written (c : Char) (chars rest : List Char) :
    readString { chars } (written c ++ rest) = readString { chars := c :: chars } rest := by
  by_cases escapes : needsEscape c = true
  · rw [written, if_pos escapes, escape]
    split_ifs with quote slash feed back tab bell form
    · subst quote; rfl
    · subst slash; rfl
    · subst feed; rfl
    · subst back; rfl
    · subst tab; rfl
    · obtain rfl : c = '\x08' := Char.toNat_inj.mp bell
      rfl
    · obtain rfl : c = '\x0c' := Char.toNat_inj.mp form
      rfl
    · have control : c.toNat < 0x20 := by simpa [needsEscape, quote, slash] using escapes
      simp only [String.toList_ofList, List.cons_append, List.nil_append]
      rw [readString, unit?_control c.toNat control]
      -- A control is no half of a pair, so it stands for itself.
      simp only [Draft.pushUnit]
      rw [if_neg (by omega), if_neg (by omega), Draft.push, Char.ofNat_toNat]
      rfl
  · obtain ⟨⟨quote, slash⟩, plain⟩ : (c ≠ '"' ∧ c ≠ '\\') ∧ 0x20 ≤ c.toNat := by
      simpa [needsEscape] using escapes
    rw [written, if_neg escapes, List.singleton_append, readString]
    · rw [if_neg (by omega)]
      rfl
    all_goals
      intros
      contradiction

theorem readString_enclosed (text chars rest : List Char) :
    readString { chars } (text.flatMap written ++ '"' :: rest) =
      some (some (String.ofList (chars.reverse ++ text)), rest) := by
  induction text generalizing chars with
  | nil => simp [readString, Draft.content]
  | cons c text ih =>
      rw [List.flatMap_cons, List.append_assoc, readString_written, ih, List.reverse_cons,
        List.append_assoc, List.singleton_append]

theorem readMark_enclosed (text : String) (rest : List Char) :
    readMark (enclosed text ++ rest) = some (.scalar (.string (some text)), rest) := by
  rw [enclosed, List.cons_append, List.append_assoc, List.singleton_append, readMark,
    readString_enclosed]
  simp

def Ends (rest : List Char) : Prop :=
  ∀ c ∈ rest.head?, c.isDigit = false ∧ c ≠ '.' ∧ c ≠ 'e' ∧ c ≠ 'E'

theorem Ends.append (ends : Ends text) (later : Ends tail) : Ends (text ++ tail) := by
  cases text with
  | nil => exact later
  | cons c text => exact ends

theorem readDigits_append (nonempty : text ≠ []) (digits : ∀ c ∈ text, c.isDigit = true)
    (ends : Ends tail) : readDigits (text ++ tail) = some (text, tail) := by
  have stop : tail.takeWhile Char.isDigit = [] ∧ tail.dropWhile Char.isDigit = tail := by
    cases tail with
    | nil => exact ⟨rfl, rfl⟩
    | cons c tail =>
        have other : c.isDigit = false := (ends c rfl).1
        simp [other]
  rw [readDigits, List.takeWhile_append_of_pos digits, List.dropWhile_append_of_pos digits,
    stop.1, stop.2, List.append_nil]
  simp [nonempty]

theorem toDigits_digits {c : Char} (member : c ∈ Nat.toDigits 10 n) : c.isDigit = true :=
  Nat.isDigit_of_mem_toDigits (by decide) (by decide) member

theorem exists_digit (n : Nat) :
    ∃ c more, Nat.toDigits 10 n = c :: more ∧ c.isDigit = true := by
  obtain ⟨c, more, shape⟩ := List.exists_cons_of_ne_nil (Nat.toDigits_ne_nil (n := n) (b := 10))
  exact ⟨c, more, shape, toDigits_digits (shape ▸ List.mem_cons_self)⟩

theorem toDigits_head (positive : 0 < n) : (Nat.toDigits 10 n).head? ≠ some '0' := by
  induction n using Nat.strongRecOn with
  | _ n ih =>
      rw [Nat.toDigits_eq_if (by decide)]
      split
      · have small : ∀ n < 10, 0 < n → Nat.digitChar n ≠ '0' := by decide
        simpa using small n ‹_› positive
      · have nonempty : Nat.toDigits 10 (n / 10) ≠ [] := Nat.toDigits_ne_nil
        rw [List.head?_append_of_ne_nil _ nonempty]
        exact ih (n / 10) (by omega) (by omega)

theorem readWhole_digits (n : Nat) (ends : Ends tail) :
    readWhole (Nat.toDigits 10 n ++ tail) = some (Nat.toDigits 10 n, tail) := by
  rcases Nat.eq_zero_or_pos n with rfl | positive
  · rfl
  · have nonempty : Nat.toDigits 10 n ≠ [] := Nat.toDigits_ne_nil
    have head := toDigits_head positive
    rw [readWhole, readDigits_append nonempty (fun c => toDigits_digits) ends]
    rintro rest zero
    rw [← List.head?_append_of_ne_nil _ nonempty, zero] at head
    exact head rfl

theorem readFraction_ends (ends : Ends tail) : readFraction tail = some ([], tail) := by
  unfold readFraction
  split
  · exact absurd rfl (ends '.' rfl).2.1
  · rfl

theorem readExponent_ends (ends : Ends tail) : readExponent tail = some ([], tail) := by
  cases tail with
  | nil => rfl
  | cons c tail =>
      obtain ⟨-, -, small, big⟩ := ends c rfl
      simp [readExponent, small, big]

theorem readNumber_digits (n : Nat) (ends : Ends tail) :
    readNumber (Nat.toDigits 10 n ++ tail) = some (.number (toString n), tail) := by
  rw [readNumber]
  · simp [readWhole_digits n ends, readFraction_ends ends, readExponent_ends ends,
      ← Nat.toString_eq_ofList_toDigits]
  · intro rest signed
    obtain ⟨c, more, shape, digit⟩ := exists_digit n
    obtain ⟨rfl, -⟩ := List.cons.inj (shape ▸ signed)
    cases digit

theorem readMark_digits (n : Nat) (ends : Ends tail) :
    readMark (Nat.toDigits 10 n ++ tail) = some (.scalar (.number (toString n)), tail) := by
  have number := readNumber_digits n ends
  obtain ⟨c, more, shape, digit⟩ := exists_digit n
  rw [shape, List.cons_append] at number ⊢
  rw [readMark]
  · rw [number]
    rfl
  all_goals
    intro rest other
    obtain ⟨rfl, -⟩ := List.cons.inj other
    cases digit

theorem nat?_number (n : Nat) : (Parsed.number (toString n)).nat? = some n := by
  have digits : (Nat.toDigits 10 n).all Char.isDigit = true :=
    List.all_eq_true.mpr fun c => toDigits_digits
  rw [Parsed.nat?, Nat.toString_eq_ofList_toDigits, String.toList_ofList, if_pos digits]
  exact congrArg some Nat.ofDigitChars_ten_toDigits

end ExprLex.Json
