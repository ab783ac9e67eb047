import ExprLex.Proofs.Scan.Run
import ExprLex.Scan.Feed

namespace ExprLex
open Position

variable {limits : Limits} {given : Nat} {before ahead : List Char} {item : Item}
  {items others : List Item} {feed after : Feed} {source : String}

namespace Feed

/-- The items that a feed gives one after the other before it has no more. -/
inductive Gives : Feed → List Item → Prop
  | closed {feed after : Feed} (next : feed.next = .ok (none, after)) : Gives feed []
  | item {feed after : Feed} {item : Item} {items : List Item}
      (next : feed.next = .ok (some item, after)) (later : Gives after items) :
      Gives feed (item :: items)

theorem Gives.unique (first : feed.Gives items) (second : feed.Gives others) : items = others := by
  induction first generalizing others with
  | closed next =>
      cases second with
      | closed => rfl
      | item nextOther =>
          rw [next] at nextOther
          cases nextOther
  | item next later ih =>
      cases second with
      | closed nextOther =>
          rw [next] at nextOther
          cases nextOther
      | item nextOther laterOther =>
          rw [next] at nextOther
          cases nextOther
          rw [ih laterOther]

def collect : (calls : Nat) → (feed : Feed) → Option (List Item)
  | 0, _ => none
  | calls + 1, feed =>
      match feed.next with
      | .ok (some item, after) => (collect calls after).map (item :: ·)
      | .ok (none, _) => some []
      | .error _ => none

theorem gives_of_collect (calls : Nat) (collected : feed.collect calls = some items) :
    feed.Gives items := by
  induction calls generalizing feed items with
  | zero => cases collected
  | succ calls ih =>
      rw [collect] at collected
      split at collected
      · rename_i item after next
        obtain ⟨others, later, rfl⟩ := Option.map_eq_some_iff.mp collected
        exact .item next (ih later)
      · rename_i next
        cases collected
        exact .closed next
      · cases collected

theorem Gives.collected {α : Type} {f : List Item → α} {found : α} (gives : feed.Gives items)
    (calls : Nat) (computed : (feed.collect calls).map f = some found) : f items = found := by
  obtain ⟨others, collected, rfl⟩ := Option.map_eq_some_iff.mp computed
  rw [gives.unique (gives_of_collect calls collected)]

theorem Gives.congr (gives : feed.Gives items) (same : after.next = feed.next) :
    after.Gives items := by
  cases gives with
  | closed next => exact .closed (same.trans next)
  | item next later => exact .item (same.trans next) later

def shows (feed : Feed) (item : Item) : Bool := feed.showHidden || !item.isHidden

theorem next_closed (closed : feed.closed = true) : feed.next = .ok (none, feed) := by
  have pull : feed.pull = .ok (none, feed) := by rw [Feed.pull, if_pos closed]
  rw [next]
  split
  · exact pull
  · rw [pullVisible, pull]

theorem next_shown (pull : feed.pull = .ok (some item, after)) (shown : feed.shows item = true) :
    feed.next = .ok (some item, after) := by
  rw [next]
  split
  · exact pull
  · rename_i picky
    have visible : item.isHidden = false := by simpa [shows, picky] using shown
    simp only [pullVisible, pull, visible, Bool.false_eq_true, if_false]

theorem gives_last (pull : feed.pull = .ok (some item, after)) (shown : feed.shows item = true)
    (closed : after.closed = true) : feed.Gives [item] :=
  .item (next_shown pull shown) (.closed (next_closed closed))

structure Follows (feed : Feed) (limits : Limits) (source : String) (given : Nat)
    (before ahead : List Char) : Prop where
  unclosed : feed.closed = false
  limits : feed.scanner.limits = limits
  source : feed.scanner.source = source
  stands : feed.scanner.Stands given before ahead

variable (countable : Countable source.toList)

theorem pull_eq {scanner : Scanner} (unclosed : feed.closed = false)
    (next : feed.scanner.next = .ok (item, scanner)) :
    feed.pull = .ok (some item, { feed with scanner, closed := item.isLast }) := by
  simp only [pull, unclosed, Bool.false_eq_true, if_false, next]

theorem pull_finished (follows : feed.Follows limits source given before []) :
    ∃ after, feed.pull = .ok (some (.ok (.endAt (behind before))), after) ∧
      after.closed = true := by
  have next := Scanner.next_eq_step follows.stands
  rw [Scanner.step_finished follows.stands, Scanner.finish,
    Scanner.endMark_eq follows.stands] at next
  exact ⟨_, pull_eq follows.unclosed next, rfl⟩

include countable

theorem pull_stopped {problem : Problem} (follows : feed.Follows limits source given before ahead)
    (stops : Stops limits given before ahead problem) :
    ∃ after, feed.pull = .ok (some (.error problem), after) ∧ after.closed = true := by
  obtain ⟨unclosed, rfl, rfl, stands⟩ := follows
  have next := Scanner.next_eq_step stands
  rw [Scanner.step_stopped countable stands stops] at next
  exact ⟨_, pull_eq unclosed next, rfl⟩

theorem pull_token {kind : Kind} {word rest : List Char}
    (follows : feed.Follows limits source given before (word ++ rest))
    (takes : Takes limits given kind word rest) :
    ∃ after, feed.pull = .ok (some (.ok (.behind kind before word)), after) ∧
      after.Follows limits source (given + 1) (before ++ word) rest ∧
      after.showHidden = feed.showHidden := by
  obtain ⟨unclosed, rfl, rfl, stands⟩ := follows
  obtain ⟨scanner, step, later, limits, source⟩ := Scanner.step_token countable stands takes
  have next := Scanner.next_eq_step stands
  rw [step] at next
  exact ⟨_, pull_eq unclosed next, ⟨takes.goesOn before, limits, source, later⟩, rfl⟩

theorem pullVisible_eq (scans : Scans limits given before ahead items)
    (follows : feed.Follows limits source given before ahead) {fuel more : Nat}
    (enough : ahead.length ≤ fuel) (enoughToo : ahead.length ≤ more) :
    feed.pullVisible (fuel + 1) = feed.pullVisible (more + 1) := by
  induction scans generalizing feed fuel more with
  | finished =>
      obtain ⟨after, pull, -⟩ := pull_finished follows
      simp only [pullVisible, pull]
      rfl
  | stopped stops =>
      obtain ⟨after, pull, -⟩ := pull_stopped countable follows stops
      simp only [pullVisible, pull]
      rfl
  | token takes later ih =>
      obtain ⟨after, pull, following, -⟩ := pull_token countable follows takes
      have positive := List.length_pos_iff.mpr takes.lexeme.2
      rw [List.length_append] at enough enoughToo
      obtain ⟨fuel, rfl⟩ := Nat.exists_eq_add_one_of_ne_zero (show fuel ≠ 0 by omega)
      obtain ⟨more, rfl⟩ := Nat.exists_eq_add_one_of_ne_zero (show more ≠ 0 by omega)
      have same : after.pullVisible (fuel + 1) = after.pullVisible (more + 1) :=
        ih following (by omega) (by omega)
      rw [pullVisible, pullVisible, pull]
      dsimp only
      rw [same]

theorem next_hidden {kind : Kind} {word rest : List Char}
    (follows : feed.Follows limits source given before (word ++ rest))
    (takes : Takes limits given kind word rest)
    (later : Scans limits (given + 1) (before ++ word) rest items)
    (hidden : feed.shows (.ok (.behind kind before word)) = false) :
    ∃ after : Feed, feed.next = after.next ∧
      after.Follows limits source (given + 1) (before ++ word) rest ∧
      after.showHidden = feed.showHidden := by
  obtain ⟨after, pull, following, same⟩ := pull_token countable follows takes
  refine ⟨after, ?_, following, same⟩
  obtain ⟨picky, unseen⟩ : feed.showHidden = false ∧
      Item.isHidden (.ok (.behind kind before word)) = true := by
    simpa [shows] using hidden
  -- A feed may pass over as many items as the text has bytes, which is never too few.
  have size := Text.length_le_bytes source.toList
  have positive := List.length_pos_iff.mpr takes.lexeme.2
  rw [← Text.utf8ByteSize_eq, ← follows.source, follows.stands.split] at size
  simp only [List.length_append] at size
  obtain ⟨fuel, total⟩ := Nat.exists_eq_add_one_of_ne_zero
    (show feed.scanner.source.utf8ByteSize ≠ 0 by omega)
  have enough : after.pullVisible (fuel + 1) = after.pullVisible (fuel + 1 + 1) :=
    pullVisible_eq countable later following (by omega) (by omega)
  have text : after.scanner.source = feed.scanner.source :=
    following.source.trans follows.source.symm
  rw [next, next, same, picky, text, total, ← enough]
  simp only [Bool.false_eq_true, if_false]
  rw [pullVisible, pull]
  exact if_pos unseen

theorem Follows.gives (follows : feed.Follows limits source given before ahead)
    (scans : Scans limits given before ahead items) : feed.Gives (items.filter feed.shows) := by
  induction scans generalizing feed with
  | @finished given before =>
      obtain ⟨after, pull, closed⟩ := pull_finished follows
      have shown : feed.shows (.ok (.endAt (behind before))) = true := Bool.or_true _
      rw [List.filter_cons_of_pos shown]
      exact gives_last pull shown closed
  | @stopped given before ahead problem stops =>
      obtain ⟨after, pull, closed⟩ := pull_stopped countable follows stops
      have shown : feed.shows (.error problem) = true := Bool.or_true _
      rw [List.filter_cons_of_pos shown]
      exact gives_last pull shown closed
  | @token given kind before word rest items takes later ih =>
      cases shown : feed.shows (.ok (.behind kind before word)) with
      | true =>
          obtain ⟨after, pull, following, same⟩ := pull_token countable follows takes
          have alike : after.shows = feed.shows := by
            funext item
            rw [shows, shows, same]
          rw [List.filter_cons_of_pos shown, ← alike]
          exact .item (next_shown pull shown) (ih following)
      | false =>
          obtain ⟨after, next, following, same⟩ := next_hidden countable follows takes later shown
          have alike : after.shows = feed.shows := by
            funext item
            rw [shows, shows, same]
          rw [List.filter_cons_of_neg (by simp [shown]), ← alike]
          exact (ih following).congr next

omit countable

theorem pull_congr {scanner other : Scanner} (same : other.next = scanner.next)
    (showHidden : Bool) :
    pull ⟨other, showHidden, false⟩ = pull ⟨scanner, showHidden, false⟩ := by
  simp only [pull, same, Bool.false_eq_true, if_false]

theorem next_congr {scanner other : Scanner} (same : other.next = scanner.next)
    (text : other.source = scanner.source) (showHidden : Bool) :
    next ⟨other, showHidden, false⟩ = next ⟨scanner, showHidden, false⟩ := by
  simp only [next, pullVisible, pull_congr same, text]

theorem gives_of_scansText (admissible : limits.Admissible) (preferences : Preferences)
    (showHidden : Bool) (scans : ScansText limits source items) :
    (Feed.mk (.ofText limits preferences source) showHidden false).Gives
      (items.filter fun item => showHidden || !item.isHidden) := by
  cases scans with
  | large exceeds =>
      have pull : pull ⟨.ofText limits preferences source, showHidden, false⟩ = _ :=
        pull_eq rfl (Scanner.next_large exceeds)
      simpa [Item.isHidden] using gives_last pull (Bool.or_true showHidden) rfl
  | scanned small scans =>
      have stands := Scanner.started_stands limits preferences source
      have follows : (Feed.mk (.started limits preferences source) showHidden false).Follows
          limits source 0 [] source.toList := ⟨rfl, rfl, rfl, stands⟩
      have gives := follows.gives (admissible.countable small) scans
      exact gives.congr (next_congr (Scanner.next_small small) rfl showHidden)

variable {preferences : Preferences}

theorem raw_gives_iff (admissible : limits.Admissible) :
    (raw (.ofText limits preferences source)).Gives items ↔ ScansText limits source items := by
  have all (items : List Item) : items.filter (fun item => true || !item.isHidden) = items :=
    List.filter_eq_self.mpr fun _ _ => rfl
  constructor
  · intro gives
    obtain ⟨others, scans⟩ := exists_scansText limits source
    have given := gives_of_scansText admissible preferences true scans
    rw [all] at given
    exact gives.unique given ▸ scans
  · intro scans
    have given := gives_of_scansText admissible preferences true scans
    rwa [all] at given

theorem visible_gives (admissible : limits.Admissible) (scans : ScansText limits source items) :
    (visible (.ofText limits preferences source)).Gives (items.filter (!·.isHidden)) :=
  gives_of_scansText admissible preferences false scans

end Feed
end ExprLex
