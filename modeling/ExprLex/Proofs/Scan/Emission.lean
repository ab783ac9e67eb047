import ExprLex.Proofs.Scan.Consumers
import ExprLex.Proofs.Scan.Reach

namespace ExprLex
open Position

variable {limits : Limits} {preferences : Preferences} {source : String}
  {first scanner after : Scanner} {before ahead : List Char} {item : Item}
  {items more : List Item}

def Item.token? : Item → Option Token
  | .ok token => if token.isEnd then none else some token
  | .error _ => none

theorem Item.token?_last (isLast : item.isLast = true) : item.token? = none := by
  cases item with
  | ok token => exact if_pos isLast
  | error problem => rfl

theorem Takes.given {given : Nat} {kind : Kind} {word rest : List Char}
    (takes : Takes limits given kind word rest) (before : List Char) :
    Item.token? (.ok (.behind kind before word)) = some (.behind kind before word) :=
  if_neg (by simp [takes.goesOn before])

namespace Scanner

/-- What a call that gives an item makes of a scan: it reads a token and counts it, or it gives the
last item and reads and counts nothing. -/
inductive Moves (limits : Limits) (scanner : Scanner) : Item → Scanner → Prop
  | rests {item : Item} {after : Scanner} (isLast : item.isLast = true)
      (cursor : after.cursor = scanner.cursor)
      (preferences : after.preferences = scanner.preferences)
      (metrics : after.metrics = scanner.metrics) (emitted : after.emitted = scanner.emitted) :
      Moves limits scanner item after
  | reads {kind : Kind} {before word rest : List Char} {after : Scanner}
      (small : scanner.source.utf8ByteSize ≤ limits.sourceBytes)
      (takes : Takes limits scanner.emitted kind word rest)
      (split : scanner.source.toList = before ++ (word ++ rest))
      (stood : scanner.cursor = ⟨scanner.source, word ++ rest, behind before⟩)
      (cursor : after.cursor = ⟨scanner.source, rest, behind (before ++ word)⟩)
      (preferences : after.preferences = scanner.preferences)
      (metrics : after.metrics =
        scanner.metrics.record scanner.preferences (.behind kind before word))
      (emitted : after.emitted = scanner.emitted + 1) :
      Moves limits scanner (.ok (.behind kind before word)) after

theorem Stands.cursor {given : Nat} (stands : scanner.Stands given before ahead) :
    scanner.cursor = ⟨scanner.source, ahead, behind before⟩ := by
  rw [← stands.rest, ← stands.position]
  rfl

theorem step_moves (admissible : scanner.limits.Admissible)
    (stands : scanner.Stands scanner.emitted before ahead)
    (small : scanner.source.utf8ByteSize ≤ scanner.limits.sourceBytes) :
    ∃ item after, scanner.step = .ok (item, after) ∧ scanner.Moves scanner.limits item after := by
  have countable := admissible.countable small
  by_cases empty : ahead = []
  · subst empty
    exact ⟨_, _, step_finished stands, .rests rfl rfl rfl rfl rfl⟩
  · rcases stops_or_takes scanner.limits scanner.emitted before empty with ⟨problem, stops⟩ |
      ⟨kind, word, rest, rfl, takes⟩
    · exact ⟨_, _, step_stopped countable stands stops, .rests rfl rfl rfl rfl rfl⟩
    · obtain ⟨rule, step⟩ := step_past countable stands takes
      exact ⟨_, _, step, .reads small takes stands.split stands.cursor past_cursor past_preferences
        past_metrics past_emitted⟩

theorem Reached.moves (admissible : limits.Admissible)
    (reached : Reached limits preferences source scanner) :
    ∃ item after, scanner.next = .ok (item, after) ∧ scanner.Moves limits item after := by
  cases done : scanner.isDone with
  | true =>
      obtain ⟨item, next, isLast⟩ := next_again done
      exact ⟨item, scanner, next, .rests isLast rfl rfl rfl rfl⟩
  | false =>
      rcases reached.underway admissible done with rfl | ⟨small, underway⟩
      · by_cases small : source.utf8ByteSize ≤ limits.sourceBytes
        · -- A scan that has only begun has read and counted nothing.
          have stands := started_stands limits preferences source
          obtain ⟨item, after, step, moves⟩ := step_moves admissible stands small
          refine ⟨item, after, ?_, ?_⟩
          · rw [next_small small, next_eq_step stands, step]
          · cases moves with
            | rests isLast cursor preferences metrics emitted =>
                exact .rests isLast cursor preferences metrics emitted
            | reads small takes split stood cursor preferences metrics emitted =>
                exact .reads small takes split stood cursor preferences metrics emitted
        · exact ⟨_, _, next_large (Nat.lt_of_not_le small), .rests rfl rfl rfl rfl rfl⟩
      · obtain ⟨rfl, rfl, before, ahead, stands⟩ := underway
        obtain ⟨item, after, step, moves⟩ := step_moves admissible stands small
        exact ⟨item, after, (next_eq_step stands).trans step, moves⟩

theorem Reached.moves_of_next (admissible : limits.Admissible)
    (reached : Reached limits preferences source scanner)
    (next : scanner.next = .ok (item, after)) : scanner.Moves limits item after := by
  obtain ⟨other, afterToo, found, moves⟩ := reached.moves admissible
  cases next.symm.trans found
  exact moves

inductive Calls (first : Scanner) : List Item → Scanner → Prop
  | none : Calls first [] first
  | next {items : List Item} {item : Item} {scanner after : Scanner}
      (calls : Calls first items scanner) (next : scanner.next = .ok (item, after)) :
      Calls first (items ++ [item]) after

theorem Calls.trans (calls : first.Calls items scanner) (others : scanner.Calls more after) :
    first.Calls (items ++ more) after := by
  induction others with
  | none => rwa [List.append_nil]
  | next others next ih =>
      rw [← List.append_assoc]
      exact .next ih next

theorem Calls.one (next : scanner.next = .ok (item, after)) : scanner.Calls [item] after :=
  .next .none next

theorem Calls.reached (calls : first.Calls items scanner)
    (reached : Reached limits preferences source first) :
    Reached limits preferences source scanner := by
  induction calls with
  | none => exact reached
  | next calls next ih => exact .next ih next

theorem Calls.preserved (admissible : limits.Admissible)
    (calls : (ofText limits preferences source).Calls items scanner)
    (holds : List Token → Scanner → Prop)
    (start : holds [] (ofText limits preferences source))
    (step : ∀ tokens scanner item after, holds tokens scanner → scanner.Moves limits item after →
      holds (tokens ++ item.token?.toList) after) :
    holds (items.filterMap Item.token?) scanner := by
  induction calls with
  | none => exact start
  | @next items item scanner after calls next ih =>
      have reached : Reached limits preferences source scanner := calls.reached .start
      have given : [item].filterMap Item.token? = item.token?.toList := by
        cases found : item.token? <;> simp [found]
      rw [List.filterMap_append, given]
      exact step _ _ _ _ ih (reached.moves_of_next admissible next)

theorem calls_called (admissible : limits.Admissible)
    (reached : Reached limits preferences source first) (calls : Nat) :
    ∃ items, first.Calls items (first.called calls) ∧ items.length = calls := by
  induction calls with
  | zero => exact ⟨[], .none, rfl⟩
  | succ calls ih =>
      obtain ⟨items, led, count⟩ := ih
      obtain ⟨item, after, next, -⟩ := (led.reached reached).moves admissible
      rw [called_succ next]
      exact ⟨items ++ [item], .next led next, by rw [List.length_append, count]; rfl⟩

theorem Session.calls {tokens : List Token} {last : Item} (session : first.Session tokens last) :
    first.Calls (tokens.map .ok ++ [last]) (first.called (tokens.length + 1)) := by
  have led (n : Nat) (early : n ≤ tokens.length) :
      first.Calls ((tokens.take n).map .ok) (first.called n) := by
    induction n with
    | zero => exact .none
    | succ n ih =>
        have next := session.answers n
        rw [List.getElem?_map, List.getElem?_eq_getElem early] at next
        rw [List.take_succ_eq_append_getElem early, List.map_append]
        exact .next (ih (Nat.le_of_succ_le early)) next
  have next := session.answers tokens.length
  rw [List.getElem?_eq_none (by simp)] at next
  have all := led tokens.length le_rfl
  rw [List.take_length] at all
  exact .next all next

end Scanner

namespace Feed

variable {feed : Feed}

def delivered (feed : Feed) : (pulls : Nat) → List Item
  | 0 => []
  | pulls + 1 =>
      match (feed.called pulls).next with
      | .ok (found, _) => feed.delivered pulls ++ found.toList
      | .error _ => feed.delivered pulls

section
variable (admissible : limits.Admissible)
include admissible

theorem pull_calls (reached : Scanner.Reached limits preferences source feed.scanner) :
    ∃ (found : Option Item) (after : Feed), feed.pull = .ok (found, after) ∧
      feed.scanner.Calls found.toList after.scanner ∧ after.showHidden = feed.showHidden := by
  rw [pull]
  split
  · exact ⟨none, feed, rfl, .none, rfl⟩
  · obtain ⟨item, after, next, -⟩ := reached.moves admissible
    rw [next]
    exact ⟨some item, _, rfl, .one next, rfl⟩

theorem pullVisible_calls (reached : Scanner.Reached limits preferences source feed.scanner)
    (fuel : Nat) :
    ∃ (found : Option Item) (after : Feed) (more : List Item),
      feed.pullVisible fuel = .ok (found, after) ∧ feed.scanner.Calls more after.scanner ∧
      more.filter (!·.isHidden) = found.toList ∧ after.showHidden = feed.showHidden := by
  induction fuel generalizing feed with
  | zero => exact ⟨none, feed, [], rfl, .none, rfl, rfl⟩
  | succ fuel ih =>
      obtain ⟨found, after, pull, calls, same⟩ := pull_calls admissible reached
      rw [pullVisible, pull]
      cases found with
      | none => exact ⟨none, after, [], rfl, calls, rfl, same⟩
      | some item =>
          cases hidden : item.isHidden with
          | false =>
              exact ⟨some item, after, [item], by simp [hidden], calls, by simp [hidden], same⟩
          | true =>
              -- The feed passes over the item, but the scan behind it has given it.
              obtain ⟨found, last, more, pull, later, shown, sameToo⟩ := ih (calls.reached reached)
              refine ⟨found, last, item :: more, by simp [hidden, pull], ?_, ?_, sameToo.trans same⟩
              · exact calls.trans later
              · rw [List.filter_cons_of_neg (by simp [hidden]), shown]

theorem next_calls (reached : Scanner.Reached limits preferences source feed.scanner) :
    ∃ (found : Option Item) (after : Feed) (more : List Item),
      feed.next = .ok (found, after) ∧ feed.scanner.Calls more after.scanner ∧
      more.filter feed.shows = found.toList ∧ after.showHidden = feed.showHidden := by
  cases all : feed.showHidden with
  | true =>
      obtain ⟨found, after, pull, calls, same⟩ := pull_calls admissible reached
      refine ⟨found, after, found.toList, by rw [next, all, if_pos rfl, pull], calls, ?_,
        same.trans all⟩
      exact List.filter_eq_self.mpr fun item _ => by simp [shows, all]
  | false =>
      obtain ⟨found, after, more, pull, calls, shown, same⟩ := pullVisible_calls admissible reached
        (feed.scanner.source.utf8ByteSize + 1)
      refine ⟨found, after, more, by rw [next, all]; exact pull, calls, ?_, same.trans all⟩
      have picky : feed.shows = (!·.isHidden) := by
        funext item
        simp [shows, all]
      rw [picky, shown]

theorem called_calls (reached : Scanner.Reached limits preferences source feed.scanner)
    (pulls : Nat) :
    ∃ more, feed.scanner.Calls more (feed.called pulls).scanner ∧
      more.filter feed.shows = feed.delivered pulls ∧
      (feed.called pulls).showHidden = feed.showHidden := by
  induction pulls with
  | zero => exact ⟨[], .none, rfl, rfl⟩
  | succ pulls ih =>
      obtain ⟨items, calls, shown, same⟩ := ih
      obtain ⟨found, after, more, next, later, shownToo, sameToo⟩ :=
        next_calls admissible (calls.reached reached)
      have alike : (feed.called pulls).shows = feed.shows := by
        funext item
        rw [shows, shows, same]
      rw [called, delivered, next]
      refine ⟨items ++ more, calls.trans later, ?_, sameToo.trans same⟩
      rw [List.filter_append, shown, ← alike, shownToo]

end

end Feed
end ExprLex
