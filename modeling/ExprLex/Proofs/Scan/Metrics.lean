import ExprLex.Proofs.Grammar.Reserved
import ExprLex.Proofs.Scan.Emission

namespace ExprLex

variable {kind other : Kind} {tokens : List Token} {token : Token}
  {metrics : Metrics} {tracking : Bool} {preferences : Preferences} {usage : Usage}

theorem Kind.ofName?_name (kind : Kind) : ofName? kind.name = some kind := by
  have listed : ∀ kind ∈ all, ofName? kind.name = some kind := by decide +kernel
  exact listed kind (Rule.mem_all kind)

theorem Kind.name_injective : Function.Injective Kind.name := by
  intro kind other same
  have found := ofName?_name kind
  rw [same, ofName?_name] at found
  exact (Option.some.inj found).symm

namespace Usage

def Ordered (usage : Usage) : Prop := usage.Pairwise fun entry later => entry.1.name < later.1.name

def sum (usage : Usage) : Nat := (usage.map (·.2)).sum

variable {uses : Nat}

theorem uses_cons : Usage.uses ((other, uses) :: usage) kind =
    if kind = other then uses else usage.uses kind := by
  rw [Usage.uses, List.lookup_cons]
  by_cases same : kind = other
  · simp [same]
  · rw [beq_false_of_ne same, if_neg same]
    rfl

theorem uses_absent (absent : ∀ entry ∈ usage, entry.1 ≠ kind) : usage.uses kind = 0 := by
  induction usage with
  | nil => rfl
  | cons entry usage ih =>
      obtain ⟨first, others⟩ := List.forall_mem_cons.mp absent
      rw [uses_cons, if_neg first.symm, ih others]

theorem count_same : count kind ((kind, uses) :: usage) = (kind, uses + 1) :: usage := if_pos rfl

theorem count_before (less : kind.name < other.name) :
    count kind ((other, uses) :: usage) = (kind, 1) :: (other, uses) :: usage := by
  have different : kind ≠ other := fun same => less.ne (congrArg Kind.name same)
  rw [count, if_neg different, if_pos less]

theorem count_behind (greater : other.name < kind.name) :
    count kind ((other, uses) :: usage) = (other, uses) :: usage.count kind := by
  have different : kind ≠ other := fun same => greater.ne' (congrArg Kind.name same)
  rw [count, if_neg different, if_neg greater.asymm]

theorem mem_count {entry : Kind × Nat} (member : entry ∈ usage.count kind) :
    entry.1 = kind ∨ ∃ old ∈ usage, old.1 = entry.1 := by
  induction usage with
  | nil => exact .inl (congrArg Prod.fst (List.mem_singleton.mp member))
  | cons first usage ih =>
      rcases lt_trichotomy kind.name first.1.name with less | same | greater
      · rw [count_before less] at member
        rcases List.mem_cons.mp member with rfl | member
        · exact .inl rfl
        · exact .inr ⟨entry, member, rfl⟩
      · obtain rfl := Kind.name_injective same
        rw [count_same] at member
        rcases List.mem_cons.mp member with rfl | member
        · exact .inl rfl
        · exact .inr ⟨entry, List.mem_cons_of_mem _ member, rfl⟩
      · rw [count_behind greater] at member
        rcases List.mem_cons.mp member with rfl | member
        · exact .inr ⟨first, by simp, rfl⟩
        · exact (ih member).imp_right fun ⟨old, listed, same⟩ =>
            ⟨old, List.mem_cons_of_mem _ listed, same⟩

theorem Ordered.count (ordered : usage.Ordered) (kind : Kind) : (usage.count kind).Ordered := by
  induction usage with
  | nil => exact List.pairwise_singleton _ _
  | cons entry usage ih =>
      obtain ⟨first, others⟩ := List.pairwise_cons.mp ordered
      rcases lt_trichotomy kind.name entry.1.name with less | same | greater
      · rw [count_before less]
        refine List.pairwise_cons.mpr ⟨List.forall_mem_cons.mpr ⟨less, ?_⟩, ordered⟩
        exact fun later member => less.trans (first later member)
      · obtain rfl := Kind.name_injective same
        rw [count_same]
        exact List.pairwise_cons.mpr ⟨first, others⟩
      · rw [count_behind greater]
        refine List.pairwise_cons.mpr ⟨fun later member => ?_, ih others⟩
        rcases mem_count member with same | ⟨old, listed, same⟩
        · exact same ▸ greater
        · exact same ▸ first old listed

theorem Ordered.uses_count (ordered : usage.Ordered) (kind other : Kind) :
    (usage.count kind).uses other = usage.uses other + if kind = other then 1 else 0 := by
  induction usage with
  | nil =>
      rw [Usage.count, uses_cons]
      simp only [eq_comm (a := other)]
      exact (Nat.zero_add _).symm
  | cons entry usage ih =>
      obtain ⟨first, others⟩ := List.pairwise_cons.mp ordered
      rcases lt_trichotomy kind.name entry.1.name with less | same | greater
      · rw [count_before less, uses_cons]
        by_cases equal : kind = other
        · -- The operator is not in the list yet: all names there are greater.
          have above : ∀ later ∈ entry :: usage, kind.name < later.1.name :=
            List.forall_mem_cons.mpr ⟨less, fun later member => less.trans (first later member)⟩
          have absent : ∀ later ∈ entry :: usage, later.1 ≠ kind := fun later member same =>
            (above later member).ne' (congrArg Kind.name same)
          rw [if_pos equal.symm, if_pos equal, ← equal, uses_absent absent]
        · rw [if_neg (Ne.symm equal), if_neg equal, Nat.add_zero]
      · obtain rfl := Kind.name_injective same
        rw [count_same, uses_cons, uses_cons]
        by_cases equal : entry.1 = other
        · rw [if_pos equal.symm, if_pos equal.symm, if_pos equal]
        · rw [if_neg (Ne.symm equal), if_neg (Ne.symm equal), if_neg equal, Nat.add_zero]
      · rw [count_behind greater, uses_cons, uses_cons, ih others]
        split
        · rename_i equal
          have different : kind ≠ other := fun same =>
            greater.ne' (congrArg Kind.name (same.trans equal))
          rw [if_neg different, Nat.add_zero]
        · rfl

theorem sum_cons : sum ((kind, uses) :: usage) = uses + usage.sum := by
  rw [sum, List.map_cons, List.sum_cons, sum]

theorem sum_count (usage : Usage) (kind : Kind) : (usage.count kind).sum = usage.sum + 1 := by
  induction usage with
  | nil => rfl
  | cons entry usage ih =>
      rcases lt_trichotomy kind.name entry.1.name with less | same | greater
      · rw [count_before less, sum_cons, Nat.add_comm]
      · obtain rfl := Kind.name_injective same
        rw [count_same, sum_cons, sum_cons]
        omega
      · rw [count_behind greater, sum_cons, sum_cons, ih, Nat.add_assoc]

end Usage

namespace Metrics

def counted (metrics : Metrics) : Group → Nat
  | .literal => metrics.literals
  | .identifier => metrics.identifiers
  | .operator => metrics.operators
  | .punctuation => metrics.punctuation
  | .whitespace => metrics.whitespace
  | .endOfInput => 0

def greatest (size : Token → Nat) (among : Kind → Bool) (tokens : List Token) : Nat :=
  ((tokens.filter fun token => among token.kind).map size).max?.getD 0

structure Details (tracking : Bool) (tokens : List Token) (metrics : Metrics) : Prop where
  counted : ∀ group, metrics.counted group = tokens.countP (·.kind.group == group)
  sum : metrics.literals + metrics.identifiers + metrics.operators + metrics.punctuation +
    metrics.whitespace = tokens.length
  reserved : metrics.reserved = tokens.countP fun token => Word.isReserved token.lexeme
  longestString : metrics.longestString = greatest (·.lexeme.utf8ByteSize) Kind.isString tokens
  longestIdentifier : metrics.longestIdentifier =
    greatest (·.lexeme.length) (· == .identifier) tokens
  uses : tracking = true → ∀ kind, metrics.usage.uses kind =
    if kind.isOperator then tokens.countP (·.kind == kind) else 0
  usesSum : tracking = true → metrics.usage.sum = metrics.operators
  ordered : metrics.usage.Ordered
  untracked : tracking = false → metrics.usage = []

/-- The statistics of some tokens, as far as they are asked for. -/
structure Exact (preferences : Preferences) (tokens : List Token) (metrics : Metrics) : Prop where
  total : metrics.total = tokens.length
  details : preferences.detailedMetrics = true →
    metrics.Details preferences.trackOperators tokens
  plain : preferences.detailedMetrics = false → metrics = { total := metrics.total }

theorem greatest_concat (size : Token → Nat) (among : Kind → Bool) :
    greatest size among (tokens ++ [token]) =
      if among token.kind then max (greatest size among tokens) (size token)
      else greatest size among tokens := by
  simp only [greatest, List.filter_append, List.filter_singleton, List.map_append,
    List.getD_max?_eq_unbotD_maximum]
  cases among token.kind with
  | true =>
      rw [cond_true, List.map_singleton, List.maximum_concat, if_pos rfl]
      cases ((tokens.filter fun token => among token.kind).map size).maximum with
      | bot => simp
      | coe best =>
          rw [← WithBot.coe_max]
          rfl
  | false => simp

theorem isString_group (string : kind.isString = true) : kind.group = .literal := by
  cases kind <;> first | rfl | cases string

theorem isOperator_iff : kind.isOperator = true ↔ kind.group = .operator := by
  rw [Kind.isOperator, beq_iff_eq]

theorem identifier_iff : kind.group = .identifier ↔ kind = .identifier := by
  cases kind <;> decide

theorem endOfInput_iff : kind.group = .endOfInput ↔ kind = .endOfInput := by
  cases kind <;> decide

theorem proper_group (proper : token.isEnd = false) : token.kind.group ≠ .endOfInput := by
  rw [ne_eq, endOfInput_iff]
  simpa [Token.isEnd] using proper

@[simp] theorem recordGroup_total :
    (metrics.recordGroup token tracking).total = metrics.total := by
  rw [recordGroup]
  split <;> rfl

@[simp] theorem recordGroup_reserved :
    (metrics.recordGroup token tracking).reserved = metrics.reserved := by
  rw [recordGroup]
  split <;> rfl

theorem recordGroup_counted (proper : token.isEnd = false) (group : Group) :
    (metrics.recordGroup token tracking).counted group =
      metrics.counted group + if token.kind.group = group then 1 else 0 := by
  have inside := proper_group proper
  rw [recordGroup]
  split <;> rename_i found <;> rw [found] at inside ⊢ <;> cases group <;>
    simp [counted] at inside ⊢

theorem recordGroup_longestString : (metrics.recordGroup token tracking).longestString =
    if token.kind.isString then max metrics.longestString token.lexeme.utf8ByteSize
    else metrics.longestString := by
  by_cases string : token.kind.isString = true
  · rw [recordGroup, isString_group string]
  · rw [recordGroup, if_neg string]
    split <;> rfl

theorem recordGroup_longestIdentifier : (metrics.recordGroup token tracking).longestIdentifier =
    if token.kind == .identifier then max metrics.longestIdentifier token.lexeme.length
    else metrics.longestIdentifier := by
  by_cases identifier : token.kind = .identifier
  · rw [recordGroup, identifier_iff.mpr identifier, identifier]
    rfl
  · rw [recordGroup, beq_false_of_ne identifier]
    split <;> rename_i found
    case h_2 => exact absurd (identifier_iff.mp found) identifier
    all_goals rfl

theorem recordGroup_usage : (metrics.recordGroup token tracking).usage =
    if token.kind.isOperator && tracking then metrics.usage.count token.kind
    else metrics.usage := by
  rw [recordGroup, Kind.isOperator]
  split <;> rename_i found <;> simp [found]

theorem recordGroup_sum (proper : token.isEnd = false) :
    let recorded := metrics.recordGroup token tracking
    recorded.literals + recorded.identifiers + recorded.operators + recorded.punctuation +
        recorded.whitespace =
      metrics.literals + metrics.identifiers + metrics.operators + metrics.punctuation +
        metrics.whitespace + 1 := by
  have inside := proper_group proper
  rw [recordGroup]
  split <;> dsimp only <;> first | omega | contradiction

theorem Details.record (details : metrics.Details tracking tokens) (proper : token.isEnd = false)
    (agrees : token.kind.isReserved = Word.isReserved token.lexeme) (total : Nat) :
    (recordGroup { metrics with
      total, reserved := metrics.reserved + (if token.kind.isReserved then 1 else 0) }
      token tracking).Details tracking (tokens ++ [token]) where
  counted group := by
    rw [recordGroup_counted proper, List.countP_append, List.countP_singleton,
      ← details.counted group]
    simp only [beq_iff_eq]
    rfl
  sum := by
    rw [recordGroup_sum proper, List.length_append, ← details.sum]
    rfl
  reserved := by
    rw [recordGroup_reserved, List.countP_append, List.countP_singleton, ← details.reserved,
      agrees]
  longestString := by
    rw [greatest_concat, ← details.longestString]
    exact recordGroup_longestString
  longestIdentifier := by
    rw [greatest_concat, ← details.longestIdentifier]
    exact recordGroup_longestIdentifier
  uses tracks kind := by
    rw [recordGroup_usage, tracks, Bool.and_true, List.countP_append, List.countP_singleton]
    have before := details.uses tracks kind
    by_cases operator : token.kind.isOperator = true
    · rw [if_pos operator]
      refine (details.ordered.uses_count token.kind kind).trans ?_
      rw [before]
      by_cases same : token.kind = kind
      · simp [← same, operator]
      · simp [same]
    · rw [if_neg operator]
      refine before.trans ?_
      by_cases same : token.kind = kind
      · simp [← same, operator]
      · simp [same]
  usesSum tracks := by
    refine Eq.trans ?_ (recordGroup_counted proper .operator).symm
    rw [recordGroup_usage, tracks, Bool.and_true]
    by_cases operator : token.kind.isOperator = true
    · rw [if_pos operator, if_pos (isOperator_iff.mp operator), Usage.sum_count]
      exact congrArg (· + 1) (details.usesSum tracks)
    · rw [if_neg operator, if_neg (isOperator_iff.not.mp operator)]
      exact details.usesSum tracks
  ordered := by
    rw [recordGroup_usage]
    split
    · exact details.ordered.count token.kind
    · exact details.ordered
  untracked off := by
    rw [recordGroup_usage, off, Bool.and_false]
    exact details.untracked off

theorem Exact.nothing (preferences : Preferences) : Exact preferences [] {} where
  total := rfl
  details _ := {
    counted group := by cases group <;> rfl
    sum := rfl
    reserved := rfl
    longestString := rfl
    longestIdentifier := rfl
    uses _ kind := (ite_self 0).symm
    usesSum _ := rfl
    ordered := .nil
    untracked _ := rfl }
  plain _ := rfl

theorem Exact.record (exact : metrics.Exact preferences tokens) (proper : token.isEnd = false)
    (agrees : token.kind.isReserved = Word.isReserved token.lexeme) :
    (metrics.record preferences token).Exact preferences (tokens ++ [token]) := by
  have total : metrics.total + 1 = (tokens ++ [token]).length := by
    rw [List.length_append, exact.total]
    rfl
  rw [Metrics.record, if_neg (by simp [proper])]
  cases asked : preferences.detailedMetrics with
  | true =>
      have details := (exact.details asked).record proper agrees (metrics.total + 1)
      exact ⟨recordGroup_total.trans total, fun _ => details, fun off => by simp [asked] at off⟩
  | false =>
      refine ⟨total, fun on => by simp [asked] at on, fun _ => ?_⟩
      rw [exact.plain asked]
      rfl

end Metrics

theorem Scanner.Calls.exact {limits : Limits} {source : String} {scanner : Scanner}
    {items : List Item} (admissible : limits.Admissible)
    (calls : (ofText limits preferences source).Calls items scanner) :
    scanner.metrics.Exact preferences (items.filterMap Item.token?) := by
  refine (calls.preserved admissible (fun tokens scanner => scanner.preferences = preferences ∧
    scanner.metrics.Exact preferences tokens) ⟨rfl, .nothing preferences⟩ ?_).2
  rintro tokens scanner item after ⟨same, exact⟩ moves
  cases moves with
  | rests isLast cursor kept metrics emitted =>
      rw [kept, metrics, Item.token?_last isLast, Option.toList_none, List.append_nil]
      exact ⟨same, exact⟩
  | @reads kind before word rest _ small takes split stood cursor kept metrics emitted =>
      rw [kept, metrics, same, takes.given before, Option.toList_some]
      exact ⟨rfl, exact.record (takes.goesOn before) (Rule.owns_of_choice takes.chosen).reserved⟩

theorem Scanner.Session.exact {limits : Limits} {source : String} {tokens : List Token}
    {last : Item} (admissible : limits.Admissible)
    (session : (ofText limits preferences source).Session tokens last) :
    ((ofText limits preferences source).called (tokens.length + 1)).metrics.Exact preferences
      tokens := by
  have exact := session.calls.exact admissible
  have given : (tokens.map Except.ok : List Item).filterMap Item.token? = tokens := by
    rw [List.filterMap_map]
    refine (List.filterMap_congr fun token member => ?_).trans List.filterMap_some
    exact if_neg (by simp [session.proper token member])
  have nothing : [last].filterMap Item.token? = [] := by
    rw [List.filterMap_cons_none (Item.token?_last session.isLast), List.filterMap_nil]
  rwa [List.filterMap_append, given, nothing, List.append_nil] at exact

/-- However a scan has been driven, by single calls and then through a feed, its statistics are
those of all tokens that it has given so far. -/
theorem Feed.metrics_exact {limits : Limits} (admissible : limits.Admissible)
    (preferences : Preferences) (source : String) (calls : Nat) (showHidden : Bool) (pulls : Nat) :
    let first := Scanner.ofText limits preferences source
    let feed : Feed := ⟨first.called calls, showHidden, false⟩
    ∃ items more,
      first.Calls items (first.called calls) ∧ items.length = calls ∧
      (first.called calls).Calls more (feed.called pulls).scanner ∧
      more.filter feed.shows = feed.delivered pulls ∧
      (feed.called pulls).scanner.metrics.Exact preferences
        ((items ++ more).filterMap Item.token?) := by
  intro first feed
  have begun : Scanner.Reached limits preferences source first := .start
  obtain ⟨items, led, count⟩ := Scanner.calls_called admissible begun calls
  have reached : Scanner.Reached limits preferences source feed.scanner := led.reached begun
  obtain ⟨more, later, shown, -⟩ := called_calls admissible reached pulls
  exact ⟨items, more, led, count, later, shown, (led.trans later).exact admissible⟩

theorem Feed.metrics_exact_development :
    let first := Scanner.ofText .development { trackOperators := true } "a == 'é' + 3."
    let feed : Feed := ⟨first.called 2, false, false⟩
    Limits.development.Admissible ∧ ∃ items more,
      first.Calls items (first.called 2) ∧ items.length = 2 ∧
      (first.called 2).Calls more (feed.called 3).scanner ∧
      more.filter feed.shows = feed.delivered 3 ∧
      (feed.called 3).scanner.metrics.Exact { trackOperators := true }
        ((items ++ more).filterMap Item.token?) :=
  ⟨Limits.development_admissible, metrics_exact Limits.development_admissible _ _ 2 false 3⟩

end ExprLex
