import ExprLex.Exchange
import ExprLex.Proofs.Json.Reading
import ExprLex.Proofs.Scan.Safety

namespace ExprLex
open Json

namespace Json

variable {read : Value → Parsed}

/-- Whether what is read of values has all that was written, but the members of an object may stand
in another order. -/
structure Faithful (read : Value → Parsed) : Prop where
  num : ∀ n, read (.num n) = .number (toString n)
  str : ∀ s, read (.str s) = .string (some s)
  arr : ∀ items, read (.arr items) = .array (items.map read)
  obj : ∀ members, ∃ found, read (.obj members) = .object found ∧
    found.Perm (members.map fun (key, value) => (some key, read value))

theorem mapM_eq_map {α β : Type} {items : List α} {f : α → Option β} {g : α → β}
    (each : ∀ item ∈ items, f item = some (g item)) : items.mapM f = some (items.map g) := by
  induction items with
  | nil => rfl
  | cons item items ih =>
      obtain ⟨first, others⟩ := List.forall_mem_cons.mp each
      simp [List.mapM_cons, first, ih others]

theorem filter_key {name : String} {value : Parsed} {found : List (Option String × Parsed)}
    (distinct : (found.map Prod.fst).Nodup) (member : (some name, value) ∈ found) :
    found.filter (·.1 == some name) = [(some name, value)] := by
  obtain ⟨before, after, rfl⟩ := List.append_of_mem member
  simp only [List.map_append, List.map_cons] at distinct
  obtain ⟨-, later, apart⟩ := List.nodup_append.mp distinct
  have behind := (List.nodup_cons.mp later).1
  have absent (others : List (Option String × Parsed)) (none : some name ∉ others.map Prod.fst) :
      others.filter (·.1 == some name) = [] := by
    refine List.filter_eq_nil_iff.mpr fun other listed same => none ?_
    exact List.mem_map.mpr ⟨other, listed, by simpa using same⟩
  have ahead : some name ∉ before.map Prod.fst :=
    fun listed => apart _ listed _ List.mem_cons_self rfl
  rw [List.filter_append, List.filter_cons, absent before ahead, absent after behind]
  simp

theorem Faithful.fields? (faithful : Faithful read) (members : List (String × Value))
    (distinct : (members.map Prod.fst).Nodup) :
    (read (.obj members)).fields? (members.map Prod.fst) =
      some (members.map fun member => read member.2) := by
  obtain ⟨found, reads, perm⟩ := faithful.obj members
  have keys : (found.map Prod.fst).Nodup := by
    refine ((perm.map Prod.fst).nodup_iff).mpr ?_
    have named : (members.map fun (key, value) => (some key, read value)).map Prod.fst =
        (members.map Prod.fst).map some := by simp
    rw [named]
    exact distinct.map (Option.some_injective _)
  have proper : found.all (·.1.isSome) = true := by
    refine List.all_eq_true.mpr fun member listed => ?_
    obtain ⟨entry, -, rfl⟩ := List.mem_map.mp (perm.mem_iff.mp listed)
    rfl
  rw [reads, Parsed.fields?, if_pos proper, List.mapM_map]
  refine mapM_eq_map fun member listed => ?_
  have written : (some member.1, read member.2) ∈ found :=
    perm.mem_iff.mpr (List.mem_map.mpr ⟨member, listed, rfl⟩)
  simp only [Function.comp, filter_key keys written]

theorem natBelow?_number {n bound : Nat} (below : n < bound) :
    (Parsed.number (toString n)).natBelow? bound = some n := by
  rw [Parsed.natBelow?, nat?_number]
  exact if_pos below

end Json

variable {read : Value → Parsed} {limits : Limits} {source : String} {tokens : List Token}

theorem Position.ofJson?_toJson (faithful : Faithful read) {p : Position}
    (inRange : p.inRange = true) : ofJson? (read p.toJson) = some p := by
  have fields := faithful.fields? [("offset", .num p.offset), ("line", .num p.line),
    ("column", .num p.column)] (by simp)
  simp only [Position.inRange, Bool.and_eq_true, decide_eq_true_eq] at inRange
  obtain ⟨⟨offset, line⟩, column⟩ := inRange
  simp only [List.map_cons, List.map_nil, faithful.num] at fields
  rw [ofJson?, toJson, fields]
  simp only [Option.bind_eq_bind, Option.bind_some, natBelow?_number offset,
    natBelow?_number line, natBelow?_number column]
  rfl

theorem Span.ofJson?_toJson (faithful : Faithful read) {span : Span}
    (start : span.start.inRange = true) (stop : span.stop.inRange = true) :
    ofJson? (read span.toJson) = some span := by
  have fields := faithful.fields? [("start", span.start.toJson),
    ("end", span.stop.toJson)] (by simp)
  simp only [List.map_cons, List.map_nil] at fields
  simp [ofJson?, toJson, fields, Position.ofJson?_toJson faithful, start, stop]

theorem Kind.ofJson?_toJson (faithful : Faithful read) (kind : Kind) :
    ofJson? (read kind.toJson) = some kind := by
  rw [toJson, faithful.str]
  exact ofName?_name kind

theorem Channel.ofJson?_toJson (faithful : Faithful read) (channel : Channel) :
    ofJson? (read channel.toJson) = some channel := by
  rw [toJson, faithful.str]
  cases channel <;> rfl

theorem Token.ofJson?_toJson (faithful : Faithful read) {token : Token}
    (start : token.span.start.inRange = true) (stop : token.span.stop.inRange = true) :
    ofJson? (read token.toJson) = some token := by
  have fields := faithful.fields? [("kind", token.kind.toJson),
    ("lexeme", .str token.lexeme), ("span", token.span.toJson),
    ("channel", token.channel.toJson)] (by simp)
  simp only [List.map_cons, List.map_nil, faithful.str] at fields
  simp [ofJson?, toJson, fields, Kind.ofJson?_toJson faithful, Channel.ofJson?_toJson faithful,
    Span.ofJson?_toJson faithful, start, stop, Parsed.text?]

theorem ScansText.ofJson?_toJson {items : List Item} (admissible : limits.Admissible)
    (scans : ScansText limits source items) (faithful : Faithful read)
    (given : ∀ token ∈ tokens, .ok token ∈ items) :
    ((tokens.map Token.toJson).map read).mapM Token.ofJson? = some tokens := by
  rw [List.map_map, List.mapM_map]
  refine (mapM_eq_map (g := id) fun token listed => ?_).trans (by simp)
  obtain ⟨-, start, stop⟩ := scans.span_fits admissible (given token listed) rfl
  exact Token.ofJson?_toJson faithful start.inRange stop.inRange

namespace Metrics

def figures (metrics : Metrics) : List (String × Nat) := [
  ("total_tokens", metrics.total),
  ("literal_tokens", metrics.literals),
  ("keyword_tokens", metrics.reserved),
  ("identifier_tokens", metrics.identifiers),
  ("operator_tokens", metrics.operators),
  ("punctuation_tokens", metrics.punctuation),
  ("whitespace_tokens", metrics.whitespace),
  ("max_string_literal_length", metrics.longestString),
  ("max_identifier_length", metrics.longestIdentifier)]

/-- Whether what has been read holds some statistics. -/
def HeldIn (metrics : Metrics) (parsed : Parsed) : Prop :=
  ∃ uses, parsed.fields? (metrics.figures.map Prod.fst ++ ["operator_usage_patterns"]) =
      some (metrics.figures.map (fun figure => .number (toString figure.2)) ++ [.object uses]) ∧
    uses.Perm (metrics.usage.map fun (kind, count) => (some kind.name, .number (toString count)))

end Metrics
end ExprLex
