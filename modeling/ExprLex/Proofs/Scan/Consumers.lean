import ExprLex.Proofs.Scan.Session
import ExprLex.Proofs.Stream.Walk
import ExprLex.Stream.Tokenize

namespace ExprLex
open Position

variable {limits : Limits} {preferences : Preferences} {source : String} {tokens : List Token}
  {token : Token} {last item : Item} {items : List Item} {problem : Problem} {feed after : Feed}

namespace Feed

def called (feed : Feed) : (calls : Nat) → Feed
  | 0 => feed
  | calls + 1 =>
      match (feed.called calls).next with
      | .ok (_, after) => after
      | .error _ => feed.called calls

/-- Whether a feed gives some items, one for each call, and nothing for ever after. -/
def Answers (feed : Feed) (items : List Item) : Prop :=
  ∀ n, (feed.called n).next = .ok (items[n]?, feed.called (n + 1))

theorem called_succ {found : Option Item} (next : feed.next = .ok (found, after)) (n : Nat) :
    feed.called (n + 1) = after.called n := by
  induction n with
  | zero => simp only [called, next]
  | succ n ih => rw [called, ih, ← called]

theorem answers_nil (closed : feed.closed = true) : feed.Answers [] := by
  have same (n : Nat) : feed.called n = feed := by
    induction n with
    | zero => rfl
    | succ n ih => rw [called, ih, next_closed closed]
  intro n
  rw [same, same, next_closed closed]
  rfl

theorem answers_cons (next : feed.next = .ok (some item, after)) (later : after.Answers items) :
    feed.Answers (item :: items) := by
  intro n
  rw [called_succ next]
  cases n with
  | zero => exact next
  | succ n =>
      rw [called_succ next]
      exact later n

theorem closed_of_pull (pull : feed.pull = .ok (some item, after)) :
    after.closed = item.isLast := by
  rw [Feed.pull] at pull
  split at pull
  · cases pull
  · split at pull
    · cases pull
    · cases pull
      rfl

theorem closed_of_pullVisible {fuel : Nat}
    (pull : feed.pullVisible fuel = .ok (some item, after)) : after.closed = item.isLast := by
  induction fuel generalizing feed with
  | zero => cases pull
  | succ fuel ih =>
      rw [pullVisible] at pull
      split at pull
      · cases pull
      · cases pull
      · rename_i found other first
        split at pull
        · exact ih pull
        · cases pull
          exact closed_of_pull first

theorem closed_of_next (next : feed.next = .ok (some item, after)) :
    after.closed = item.isLast := by
  rw [Feed.next] at next
  split at next
  · exact closed_of_pull next
  · exact closed_of_pullVisible next

theorem Gives.answers (gives : feed.Gives items)
    (ends : ∃ last, items.getLast? = some last ∧ last.isLast = true) : feed.Answers items := by
  induction gives with
  | closed next =>
      obtain ⟨last, found, -⟩ := ends
      cases found
  | @item feed after item items next later ih =>
      refine answers_cons next ?_
      cases later with
      | closed =>
          obtain ⟨last, found, isLast⟩ := ends
          obtain rfl := Option.some.inj found
          exact answers_nil ((closed_of_next next).trans isLast)
      | item nextToo laterToo => exact ih (by simpa using ends)

end Feed

theorem Scans.shown {given : Nat} {before ahead : List Char}
    (scans : Scans limits given before ahead items) :
    ∀ item ∈ items, item.isLast = true → item.isHidden = false := by
  induction scans with
  | finished => simp [Item.isHidden, Token.isHidden, Token.endAt, Token.ofKind, Kind.channel]
  | stopped stops => simp [Item.isHidden]
  | @token given kind before word rest items takes later ih =>
      refine List.forall_mem_cons.mpr ⟨fun isLast => ?_, ih⟩
      rw [Item.isLast, takes.goesOn before] at isLast
      cases isLast

theorem ScansText.shown (scans : ScansText limits source items) :
    ∀ item ∈ items, item.isLast = true → item.isHidden = false := by
  cases scans with
  | large exceeds => simp [Item.isHidden]
  | scanned small scans => exact scans.shown

section
variable (admissible : limits.Admissible)
  (scans : ScansText limits source (tokens.map .ok ++ [last]))
  (proper : ∀ token ∈ tokens, token.isEnd = false) (isLast : last.isLast = true)
include admissible scans proper isLast

end

namespace Scanner

variable {first : Scanner}

theorem Session.drain (session : first.Session tokens last) {fuel n : Nat}
    (enough : tokens.length < fuel + n) (early : n ≤ tokens.length) (found : List Item) :
    (first.called n).drain fuel found = .ok (found.reverse ++ ((tokens.drop n).map .ok ++ [last]),
      first.called (tokens.length + 1)) := by
  induction fuel generalizing n found with
  | zero => omega
  | succ fuel ih =>
      rw [Scanner.drain, session.answers n]
      rcases Nat.lt_or_eq_of_le early with more | rfl
      · have goesOn : Item.isLast (.ok tokens[n]) = false :=
          session.proper _ (List.getElem_mem more)
        have item : (tokens.map .ok)[n]?.getD last = .ok tokens[n] := by simp [more]
        simp only [item, goesOn, Bool.false_eq_true, if_false]
        rw [ih (by omega) more, List.drop_eq_getElem_cons more, List.reverse_cons,
          List.append_assoc]
        rfl
      · have item : (tokens.map .ok)[tokens.length]?.getD last = last := by simp
        simp only [item, session.isLast, if_true]
        simp

end Scanner

section
variable (session : (Scanner.ofText limits preferences source).Session tokens last)
include session

end

end ExprLex
