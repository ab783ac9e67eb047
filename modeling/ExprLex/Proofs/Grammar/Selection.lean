import ExprLex.Grammar.Catalogue
import Mathlib

namespace ExprLex

namespace Offer

theorem longest_append (offers : List Offer) (offer : Offer) :
    longest (offers ++ [offer]) = prefer (longest offers) offer := by
  simp [longest]

section
variable {offers : List Offer} {best offer : Offer}

theorem prefer_empty (empty : offer.2.length = 0) (best : Option Offer) :
    prefer best offer = best := if_pos empty

theorem prefer_none (positive : 0 < offer.2.length) : prefer none offer = some offer :=
  if_neg positive.ne'

theorem prefer_some (positive : 0 < offer.2.length) :
    prefer (some best) offer = if offer.beats best then some offer else some best :=
  if_neg positive.ne'

theorem beats_iff : offer.beats best = true ↔
    best.2.length < offer.2.length ∨ offer.2.length = best.2.length ∧ offer.1 < best.1 := by
  simp [beats]

theorem longest_eq_none : longest offers = none ↔ ∀ offer ∈ offers, offer.2.length = 0 := by
  induction offers using List.reverseRecOn with
  | nil => simp [longest]
  | append_singleton offers offer ih =>
      rw [longest_append, List.forall_mem_append, ← ih]
      cases found : longest offers with
      | none => simp [prefer]
      | some best =>
          simp only [prefer]
          split
          · simp
          · split <;> simp

theorem longest_append_cases (won : longest (offers ++ [offer]) = some best) :
    (longest offers = some best ∧ (offer.2.length = 0 ∨ ¬ offer.beats best = true)) ∨
      (best = offer ∧ 0 < offer.2.length ∧ ∀ other ∈ longest offers, offer.beats other = true) := by
  rw [longest_append] at won
  by_cases empty : offer.2.length = 0
  · rw [prefer_empty empty] at won
    exact .inl ⟨won, .inl empty⟩
  · have positive := Nat.pos_of_ne_zero empty
    cases found : longest offers with
    | none =>
        rw [found, prefer_none positive] at won
        exact .inr ⟨(Option.some.inj won).symm, positive, by simp⟩
    | some second =>
        rw [found, prefer_some positive] at won
        split at won
        · rename_i beaten
          exact .inr ⟨(Option.some.inj won).symm, positive, by simpa using beaten⟩
        · rename_i unbeaten
          exact .inl ⟨won, .inr (Option.some.inj won ▸ unbeaten)⟩

def Best (best : Offer) (offers : List Offer) : Prop :=
  ∀ offer ∈ offers, offer.2.length < best.2.length ∨
    offer.2.length = best.2.length ∧ best.1 ≤ offer.1

theorem longest_eq_some (won : longest offers = some best) :
    best ∈ offers ∧ 0 < best.2.length ∧ best.Best offers := by
  induction offers using List.reverseRecOn generalizing best with
  | nil => cases won
  | append_singleton offers offer ih =>
      rcases longest_append_cases won with ⟨found, kept⟩ | ⟨rfl, positive, beaten⟩
      · obtain ⟨member, positive, top⟩ := ih found
        refine ⟨List.mem_append_left _ member, positive, List.forall_mem_append.mpr ⟨top, ?_⟩⟩
        rw [List.forall_mem_singleton]
        rw [beats_iff] at kept
        omega
      · refine ⟨by simp, positive, List.forall_mem_append.mpr ⟨fun other member => ?_, by simp⟩⟩
        cases found : longest offers with
        | none =>
            left
            rw [longest_eq_none.mp found other member]
            exact positive
        | some second =>
            have bound := (ih found).2.2 other member
            have better := beats_iff.mp (beaten second found)
            omega

end

end Offer

namespace Rule

theorem mem_offersFrom {text : List Char} {rules : List Rule} {first rank : Nat}
    {proposal : Proposal} : (rank, proposal) ∈ offersFrom text first rules ↔
      ∃ place rule, rank = first + place ∧ rules[place]? = some rule ∧
        rule.propose text = some proposal := by
  induction rules generalizing first with
  | nil => simp [offersFrom]
  | cons rule rules ih =>
      have later : (rank, proposal) ∈ offersFrom text (first + 1) rules ↔
          ∃ place other, rank = first + (place + 1) ∧ (rule :: rules)[place + 1]? = some other ∧
            other.propose text = some proposal := by
        simp [ih, Nat.add_assoc, Nat.add_comm 1]
      rw [offersFrom]
      constructor
      · intro member
        split at member
        · rename_i own proposed
          rcases List.mem_cons.mp member with equal | member
          · obtain ⟨rfl, rfl⟩ := Prod.mk.inj equal
            exact ⟨0, rule, by simp, by simp, proposed⟩
          · obtain ⟨place, other, found⟩ := later.mp member
            exact ⟨place + 1, other, found⟩
        · obtain ⟨place, other, found⟩ := later.mp member
          exact ⟨place + 1, other, found⟩
      · rintro ⟨place, other, rfl, located, proposed⟩
        cases place with
        | zero =>
            obtain rfl : rule = other := by simpa using located
            simp [proposed]
        | succ place =>
            have member := later.mpr ⟨place, other, rfl, located, proposed⟩
            split
            · exact List.mem_cons_of_mem _ member
            · exact member

theorem mem_offers {text : List Char} {rules : List Rule} {rank : Nat} {proposal : Proposal} :
    (rank, proposal) ∈ offers rules text ↔
      ∃ rule, rules[rank]? = some rule ∧ rule.propose text = some proposal := by
  simp [offers, mem_offersFrom]

/-- What a selection is made of: the rule that it names proposed it, and the other rules of the list
propose less, or as much and stand behind it. -/
structure Wins (rules : List Rule) (text : List Char) (selection : Selection) (rule : Rule) :
    Prop where
  located : rules[selection.rank]? = some rule
  named : selection.rule = rule.name
  proposed : rule.propose text = some selection.proposal
  positive : 0 < selection.proposal.length
  top : ∀ rank other proposal, rules[rank]? = some other → other.propose text = some proposal →
    proposal.length < selection.proposal.length ∨
      proposal.length = selection.proposal.length ∧ selection.rank ≤ rank

theorem selectFrom_eq_some {rules : List Rule} {text : List Char} {selection : Selection}
    (chosen : selectFrom rules text = some selection) :
    ∃ rule, Wins rules text selection rule := by
  simp only [selectFrom, bind, Option.bind_eq_some_iff, pure, Option.some.injEq] at chosen
  obtain ⟨⟨rank, proposal⟩, won, rule, located, rfl⟩ := chosen
  obtain ⟨member, positive, top⟩ := Offer.longest_eq_some won
  obtain ⟨owner, found, proposed⟩ := mem_offers.mp member
  obtain rfl := Option.some.inj (located.symm.trans found)
  refine ⟨rule, located, rfl, proposed, positive, ?_⟩
  intro rankOther other proposalOther locatedOther proposedOther
  exact top _ (mem_offers.mpr ⟨other, locatedOther, proposedOther⟩)

theorem selectFrom_eq_none {rules : List Rule} {text : List Char} : selectFrom rules text = none ↔
    ∀ rule ∈ rules, ∀ proposal, rule.propose text = some proposal → proposal.length = 0 := by
  cases won : Offer.longest (offers rules text) with
  | none =>
      have empty := Offer.longest_eq_none.mp won
      refine iff_of_true (by simp [selectFrom, won]) ?_
      intro rule member proposal proposed
      obtain ⟨rank, located⟩ := List.mem_iff_getElem?.mp member
      exact empty _ (mem_offers.mpr ⟨rule, located, proposed⟩)
  | some best =>
      obtain ⟨member, positive, -⟩ := Offer.longest_eq_some won
      obtain ⟨rule, located, proposed⟩ := mem_offers.mp member
      refine iff_of_false (by simp [selectFrom, won, located]) ?_
      intro empty
      have none := empty rule (List.mem_of_getElem? located) _ proposed
      omega

def ofKind (kind : Kind) : Rule :=
  match kind with
  | .integer => pattern .integer Grammar.integer
  | .hexInteger => pattern .hexInteger Grammar.hexInteger
  | .real => pattern .real Grammar.real
  | .singleQuoted => pattern .singleQuoted Grammar.singleQuoted
  | .doubleQuoted => pattern .doubleQuoted Grammar.doubleQuoted
  | .identifier => pattern .identifier Grammar.identifier
  | .whitespace => pattern .whitespace Grammar.whitespace
  | .andOp => word .andOp
  | .orOp => word .orOp
  | .inOp => word .inOp
  | .isOp => word .isOp
  | .betweenOp => word .betweenOp
  | .matchesOp => word .matchesOp
  | .newOp => word .newOp
  | .trueLit => word .trueLit
  | .falseLit => word .falseLit
  | .nullLit => word .nullLit
  | kind => fixed kind

def order : List Kind := [
  .newOp, .semicolonParen, .integer, .hexInteger, .assign, .equal, .notEqual, .less, .lessOrEqual,
  .greater, .greaterOrEqual, .inOp, .isOp, .betweenOp, .matchesOp, .nullLit, .semicolon, .dot,
  .comma, .leftParen, .rightParen, .leftBrace, .rightBrace, .leftBracket, .rightBracket, .bar,
  .andOp, .orOp, .falseLit, .trueLit, .plus, .minus, .divide, .times, .modulo, .power, .bang, .hash,
  .question, .coalesce, .lambdaOpen, .projectOpen, .selectOpen, .selectFirstOpen, .selectLastOpen,
  .typeOpen, .singleQuoted, .doubleQuoted, .identifier, .escapedDot, .whitespace, .dollar, .atSign,
  .range, .colon, .real]

theorem catalogue_eq : catalogue = order.map ofKind := rfl

theorem order_nodup : order.Nodup := by decide

theorem mem_order (kind : Kind) : kind ∈ order ↔ kind ≠ .endOfInput := by
  cases kind <;> decide

theorem ofKind_propose {kind : Kind} {spelling : String} (fixed : kind.fixedText = some spelling) :
    (ofKind kind).propose = spelled spelling.toList kind := by
  cases kind <;> cases fixed <;> rfl

structure Selected (text : List Char) (selection : Selection) (kind : Kind) : Prop where
  located : order[selection.rank]? = some kind
  named : selection.rule = (ofKind kind).name
  proposed : (ofKind kind).propose text = some selection.proposal
  positive : 0 < selection.proposal.length
  top : ∀ rank other proposal, order[rank]? = some other →
    (ofKind other).propose text = some proposal →
      proposal.length < selection.proposal.length ∨
        proposal.length = selection.proposal.length ∧ selection.rank ≤ rank

theorem getElem?_catalogue {rank : Nat} {rule : Rule} : catalogue[rank]? = some rule ↔
    ∃ kind, order[rank]? = some kind ∧ ofKind kind = rule := by
  rw [catalogue_eq, List.getElem?_map, Option.map_eq_some_iff]

theorem mem_catalogue {rule : Rule} :
    rule ∈ catalogue ↔ ∃ kind, kind ≠ .endOfInput ∧ ofKind kind = rule := by
  simp only [catalogue_eq, List.mem_map, mem_order]

theorem select_eq_some {text : List Char} {selection : Selection}
    (chosen : select text = some selection) : ∃ kind, Selected text selection kind := by
  obtain ⟨rule, wins⟩ := selectFrom_eq_some chosen
  obtain ⟨kind, located, rfl⟩ := getElem?_catalogue.mp wins.located
  refine ⟨kind, located, wins.named, wins.proposed, wins.positive, ?_⟩
  intro rank other proposal locatedOther proposed
  exact wins.top rank _ proposal (getElem?_catalogue.mpr ⟨other, locatedOther, rfl⟩) proposed

theorem select_eq_none {text : List Char} : select text = none ↔
    ∀ kind proposal, kind ≠ .endOfInput → (ofKind kind).propose text = some proposal →
      proposal.length = 0 := by
  rw [select, selectFrom_eq_none]
  constructor
  · intro empty kind proposal proper proposed
    exact empty _ (mem_catalogue.mpr ⟨kind, proper, rfl⟩) proposal proposed
  · intro empty rule member proposal proposed
    obtain ⟨kind, proper, rfl⟩ := mem_catalogue.mp member
    exact empty kind proposal proper proposed

def choice (text : List Char) : Option Proposal := (select text).map (·.proposal)

theorem choice_eq_none {text : List Char} : choice text = none ↔ select text = none :=
  Option.map_eq_none_iff

theorem choice_eq_some {text : List Char} {proposal : Proposal} :
    choice text = some proposal ↔
      ∃ selection, select text = some selection ∧ selection.proposal = proposal :=
  Option.map_eq_some_iff

theorem choice_selected {text : List Char} {proposal : Proposal}
    (chosen : choice text = some proposal) :
    ∃ selection kind, selection.proposal = proposal ∧ Selected text selection kind := by
  obtain ⟨selection, found, same⟩ := choice_eq_some.mp chosen
  obtain ⟨kind, selected⟩ := select_eq_some found
  exact ⟨selection, kind, same, selected⟩

theorem choice_of_longer {text : List Char} {kind : Kind} {proposal : Proposal}
    (proper : kind ≠ .endOfInput) (proposed : (ofKind kind).propose text = some proposal)
    (positive : 0 < proposal.length)
    (others : ∀ other shorter, other ≠ kind → (ofKind other).propose text = some shorter →
      shorter.length < proposal.length) : choice text = some proposal := by
  cases chosen : choice text with
  | none =>
      have empty := select_eq_none.mp (choice_eq_none.mp chosen) kind proposal proper proposed
      omega
  | some winner =>
      obtain ⟨selection, owner, rfl, selected⟩ := choice_selected chosen
      by_cases same : owner = kind
      · subst same
        exact selected.proposed.symm.trans proposed
      · obtain ⟨rank, located⟩ := List.mem_iff_getElem?.mp ((mem_order kind).mpr proper)
        have top := selected.top rank kind proposal located proposed
        have shorter := others owner selection.proposal same selected.proposed
        omega

end Rule
end ExprLex
