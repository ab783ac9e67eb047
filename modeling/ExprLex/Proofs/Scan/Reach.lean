import ExprLex.Proofs.Scan.Run

namespace ExprLex.Scanner
open Position

variable {limits : Limits} {preferences : Preferences} {source : String} {scanner after : Scanner}
  {given : Nat} {before ahead : List Char} {item : Item}

inductive Reached (limits : Limits) (preferences : Preferences) (source : String) : Scanner → Prop
  | start : Reached limits preferences source (.ofText limits preferences source)
  | next {scanner after : Scanner} {item : Item}
      (reached : Reached limits preferences source scanner)
      (next : scanner.next = .ok (item, after)) : Reached limits preferences source after

structure Underway (limits : Limits) (source : String) (scanner : Scanner) : Prop where
  limits : scanner.limits = limits
  source : scanner.source = source
  stands : ∃ before ahead, scanner.Stands scanner.emitted before ahead

theorem step_underway (countable : Countable source.toList)
    (underway : scanner.Underway limits source) (step : scanner.step = .ok (item, after))
    (undone : after.isDone = false) : after.Underway limits source := by
  obtain ⟨rfl, rfl, before, ahead, stands⟩ := underway
  rcases step_outcome countable stands with ⟨-, found⟩ | ⟨problem, -, found⟩ |
    ⟨kind, word, rest, next, -, -, found, standing, limits, source⟩
  · cases step.symm.trans found
    cases undone
  · cases step.symm.trans found
    cases undone
  · cases step.symm.trans found
    exact ⟨limits, source, _, _, standing.emitted ▸ standing⟩

theorem started_underway (limits : Limits) (preferences : Preferences) (source : String) :
    (started limits preferences source).Underway limits source :=
  ⟨rfl, rfl, _, _, started_stands limits preferences source⟩

theorem next_again (done : scanner.isDone = true) :
    ∃ item, scanner.next = .ok (item, scanner) ∧ item.isLast = true := by
  rw [isDone] at done
  cases phase : scanner.phase with
  | fresh | scanning => simp [phase] at done
  | ended => exact ⟨.ok scanner.endMark, by rw [Scanner.next, phase]; rfl, rfl⟩
  | failed problem => exact ⟨.error problem, by rw [Scanner.next, phase]; rfl, rfl⟩

theorem next_done (done : scanner.isDone = true) (next : scanner.next = .ok (item, after)) :
    after = scanner := by
  obtain ⟨other, again, -⟩ := next_again done
  cases next.symm.trans again
  rfl

theorem Reached.underway (admissible : limits.Admissible)
    (reached : Reached limits preferences source scanner) (undone : scanner.isDone = false) :
    scanner = .ofText limits preferences source ∨
      source.utf8ByteSize ≤ limits.sourceBytes ∧ scanner.Underway limits source := by
  induction reached with
  | start => exact .inl rfl
  | @next scanner after item reached next ih =>
      right
      cases done : scanner.isDone with
      | true =>
          rw [next_done done next, done] at undone
          cases undone
      | false =>
          -- The first step also starts the scan.
          rcases ih done with rfl | ⟨small, underway⟩
          · by_cases small : source.utf8ByteSize ≤ limits.sourceBytes
            · have begun := started_stands limits preferences source
              rw [next_small small, next_eq_step begun] at next
              exact ⟨small, step_underway (admissible.countable small)
                (started_underway limits preferences source) next undone⟩
            · rw [next_large (Nat.lt_of_not_le small)] at next
              cases next
              cases undone
          · obtain ⟨_, _, stands⟩ := underway.stands
            rw [next_eq_step stands] at next
            exact ⟨small, step_underway (admissible.countable small) underway next undone⟩

theorem Reached.next_eq (admissible : limits.Admissible)
    (reached : Reached limits preferences source scanner) (undone : scanner.isDone = false)
    (small : source.utf8ByteSize ≤ limits.sourceBytes) :
    ∃ standing : Scanner, standing.Underway limits source ∧ scanner.next = standing.step ∧
      standing.cursor = scanner.cursor ∧ standing.emitted = scanner.emitted := by
  rcases reached.underway admissible undone with rfl | ⟨-, underway⟩
  · have begun := started_stands limits preferences source
    refine ⟨_, started_underway limits preferences source, ?_, rfl, rfl⟩
    rw [next_small small, next_eq_step begun]
  · obtain ⟨_, _, stands⟩ := underway.stands
    exact ⟨scanner, underway, next_eq_step stands, rfl, rfl⟩

end ExprLex.Scanner
