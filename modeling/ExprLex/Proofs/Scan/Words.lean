import ExprLex.Proofs.Grammar.Precedence
import ExprLex.Proofs.Scan.Places

namespace ExprLex
open Computability Grammar Rule

variable {limits : Limits} {kind : Kind} {word rest : List Char} {source : String}
  {items : List Item} {proposal : Proposal}

theorem Word.text_extends (entry : Word) : ∀ c ∈ entry.text.toList, Extends c := by
  cases entry <;> exact forall_listed (by decide)

namespace Rule

section
variable (stop : Breaks Extends rest)
include stop

theorem propose_identifier (name : word ∈ identifiers) :
    (ofKind .identifier).propose (word ++ rest) = some (.accept word.length .identifier) := by
  have proposed := identifier_append name rest
  rwa [nameFrom_stop stop] at proposed

theorem propose_word {entry : Word} (long : word.length ≤ proposal.length)
    (proposed : (ofKind entry.kind).propose (word ++ rest) = some proposal) :
    proposal = .accept word.length entry.kind := by
  obtain ⟨accepted, read⟩ := propose_fixed entry.fixedText_kind proposed
  have length : proposal.length = entry.text.toList.length := by rw [accepted]; rfl
  have begins : entry.text.toList <+: word ++ rest := read ▸ List.take_prefix ..
  rw [length] at long
  rw [accepted, eq_of_run begins long entry.text_extends stop]

theorem choice_name (name : word ∈ identifiers) (closed : ¬ "T(".toList <+: word ++ rest) :
    ∃ kind, choice (word ++ rest) = some (.accept word.length kind) := by
  cases chosen : choice (word ++ rest) with
  | none =>
      have foreign := choice_eq_none_iff.mp chosen
      exact absurd name (foreign.1 .identifier word (List.prefix_append word rest))
  | some proposal =>
      obtain ⟨selection, kind, rfl, selected⟩ := choice_selected chosen
      have member : word ∈ Kind.identifier.language := name
      have long := selected.longest member
      obtain ⟨c, tail, split, opened⟩ := opens_of_propose selected.proposed
      obtain ⟨d, parts, rfl, start⟩ := opens_of_mem member
      obtain ⟨rfl, -⟩ := List.cons.inj split
      refine ⟨kind, congrArg some ?_⟩
      rcases opens_name start opened with rfl | reserved | rfl
      · exact Option.some.inj (selected.proposed.symm.trans (propose_identifier stop name))
      · obtain ⟨entry, rfl⟩ := Kind.exists_word reserved
        exact propose_word stop long selected.proposed
      · have fixed : Kind.typeOpen.fixedText = some "T(" := rfl
        have read := (propose_fixed fixed selected.proposed).2
        exact absurd (read ▸ List.take_prefix ..) closed

end

end Rule

theorem Kind.Owns.agrees (owned : kind.Owns word) :
    kind.isReserved = Word.isReserved (String.ofList word) ∧
      ∀ entry, Word.ofText? (String.ofList word) = some entry → kind = entry.kind := by
  refine ⟨owned.reserved, fun entry found => ?_⟩
  have reserved : kind.isReserved = true := by rw [owned.reserved, Word.isReserved, found]; rfl
  obtain ⟨own, foundToo, rfl⟩ := owned.exists_word reserved
  rw [Option.some.inj (found.symm.trans foundToo)]

theorem Kind.Owns.eq_of_name (owned : kind.Owns word) (name : word ∈ identifiers) :
    kind = match Word.ofText? (String.ofList word) with
      | some entry => entry.kind
      | none => .identifier := by
  cases found : Word.ofText? (String.ofList word) with
  | some entry => exact owned.agrees.2 entry found
  | none =>
      by_contra different
      have reserved := (owned.2 .identifier (Ne.symm different) name).1
      rw [owned.reserved, Word.isReserved, found] at reserved
      cases reserved

theorem takes_name (admissible : limits.Admissible) (name : word ∈ identifiers)
    (short : word.length ≤ limits.identifierChars)
    (chosen : choice (word ++ rest) = some (.accept word.length kind)) :
    Takes limits 0 kind word rest where
  room := Nat.pos_of_ne_zero admissible.tokens_pos
  chosen := chosen
  fits := by
    refine ⟨fun string => ?_, fun _ => short⟩
    have apart := (owns_of_choice chosen).2 .identifier (by rintro rfl; cases string) name
    cases kind <;> simp [Kind.isString, Kind.isReserved] at string apart

theorem Scanner.next_first (admissible : limits.Admissible) (preferences : Preferences)
    (small : source.utf8ByteSize ≤ limits.sourceBytes) (split : source.toList = word ++ rest)
    (takes : Takes limits 0 kind word rest) : ∃ after,
      (ofText limits preferences source).next = .ok (.ok (.behind kind [] word), after) := by
  have stands := started_stands limits preferences source
  have countable : Position.Countable (started limits preferences source).source.toList :=
    admissible.countable small
  rw [split] at stands
  obtain ⟨after, step, -⟩ := step_token countable stands takes
  exact ⟨after, by rw [next_small small, next_eq_step stands, step]⟩

theorem ScansText.agrees {token : Token} (scans : ScansText limits source items)
    (member : .ok token ∈ items) : token.kind.isReserved = Word.isReserved token.lexeme ∧
      ∀ entry, Word.ofText? token.lexeme = some entry → token.kind = entry.kind := by
  rcases scans.mem member with large | ⟨given, read, left, -, -, yields⟩
  · cases large
  · cases yields with
    | ended => exact ⟨rfl, nofun⟩
    | token takes => exact (owns_of_choice takes.chosen).agrees

/-- The tokens of a scan have the kinds of reserved words where they read like them, and nowhere
else. A name in front of something that cannot go on with it is the first token, as the reserved
word that it is or else as an identifier, unless it opens a type. -/
theorem scan_words (admissible : limits.Admissible) (preferences : Preferences) :
    (∀ source, ∃ items, (Feed.raw (.ofText limits preferences source)).Gives items ∧
      ∀ token, .ok token ∈ items → token.kind.isReserved = Word.isReserved token.lexeme ∧
        ∀ entry, Word.ofText? token.lexeme = some entry → token.kind = entry.kind) ∧
    ∀ word ∈ identifiers, word.length ≤ limits.identifierChars →
      ∀ rest, Breaks Extends rest →
        (String.ofList (word ++ rest)).utf8ByteSize ≤ limits.sourceBytes →
        ¬ "T(".toList <+: word ++ rest →
        ∃ token after, (Scanner.ofText limits preferences (String.ofList (word ++ rest))).next =
            .ok (.ok token, after) ∧ token.lexeme = String.ofList word ∧
          token.kind = match Word.ofText? (String.ofList word) with
            | some entry => entry.kind
            | none => .identifier := by
  constructor
  · intro source
    obtain ⟨items, scans⟩ := exists_scansText limits source
    exact ⟨items, (Feed.raw_gives_iff admissible).mpr scans, fun token => scans.agrees⟩
  · intro word name short rest stop small closed
    obtain ⟨kind, chosen⟩ := choice_name stop name closed
    have takes := takes_name admissible name short chosen
    obtain ⟨after, next⟩ := Scanner.next_first admissible preferences small
      String.toList_ofList takes
    exact ⟨_, after, next, rfl, (owns_of_choice chosen).eq_of_name name⟩

theorem scan_words_development : Limits.development.Admissible ∧
    "in\\.null".toList ∈ identifiers ∧ Breaks Extends "-1".toList ∧
    ∃ token after, (Scanner.ofText .development {}
        (String.ofList ("in\\.null".toList ++ "-1".toList))).next = .ok (.ok token, after) ∧
      token.lexeme = "in\\.null" ∧ token.kind = .identifier := by
  have name : "in\\.null".toList ∈ identifiers := by decide
  have stop : Breaks Extends "-1".toList := breaks_cons.mpr (by decide)
  obtain ⟨token, after, next, lexeme, kind⟩ :=
    (scan_words Limits.development_admissible {}).2 _ name (by decide) _ stop (by decide)
      (by decide)
  rw [String.ofList_toList] at lexeme kind
  exact ⟨Limits.development_admissible, name, stop, token, after, next, lexeme, kind⟩

end ExprLex
