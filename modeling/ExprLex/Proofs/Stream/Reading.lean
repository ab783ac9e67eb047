import ExprLex.Proofs.Stream.Walk

/-!
A stream is read like a list with a place in it. Whatever is asked of a stream, and in whatever
order, it replies as that list does.
-/
namespace ExprLex
namespace TokenStream

inductive Request where
  | current
  | peek
  | peekAhead (n : Nat)
  | advance
  | check (kind : Kind)
  | advanceIf (kind : Kind)
  | expect (kind : Kind)
  | save
  | restore (place : Nat)
  | remaining
  | isAtEnd
  | hasEnd

inductive Reply where
  | token (found : Option Token)
  | truth (value : Bool)
  | number (value : Nat)
  | taken (result : Except StreamProblem Token)
  | nothing

def answer (stream : TokenStream) : Request → Except Fault Reply × TokenStream
  | .current => (.ok (.token stream.current), stream)
  | .peek => (.ok (.token stream.peek), stream)
  | .peekAhead n => (.token <$> stream.peekAhead n, stream)
  | .advance => (.ok (.token stream.advance.current), stream.advance)
  | .check kind => (.ok (.truth (stream.check kind)), stream)
  | .advanceIf kind => (.ok (.truth (stream.advanceIf kind).1), (stream.advanceIf kind).2)
  | .expect kind => (.ok (.taken (stream.expect kind).1), (stream.expect kind).2)
  | .save => (.ok (.number stream.position), stream)
  | .restore place => (.ok .nothing, stream.restore place)
  | .remaining => (.ok (.number stream.remaining), stream)
  | .isAtEnd => (.ok (.truth stream.isAtEnd), stream)
  | .hasEnd => (.ok (.truth stream.hasEnd), stream)

def replies (stream : TokenStream) : List Request → List (Except Fault Reply)
  | [] => []
  | request :: requests => (stream.answer request).1 :: (stream.answer request).2.replies requests

def asked (stream : TokenStream) (requests : List Request) : TokenStream :=
  requests.foldl (fun stream request => (stream.answer request).2) stream

end TokenStream

open TokenStream

/-! ## A list with a place -/

structure Reader where
  visible : List Token
  place : Nat
  inside : place ≤ visible.length

namespace Reader

def ofTokens (tokens : List Token) : Reader := ⟨tokens.filter (!·.isHidden), 0, Nat.zero_le _⟩

def current (reader : Reader) : Option Token := reader.visible[reader.place]?

def goTo (reader : Reader) (place : Nat) : Reader :=
  ⟨reader.visible, min place reader.visible.length, Nat.min_le_right _ _⟩

def isNext (reader : Reader) (kind : Kind) : Bool := reader.current.any (·.kind = kind)

def problem (reader : Reader) (kind : Kind) : StreamProblem :=
  match reader.current.filter (!·.isEnd) with
  | some token => .unexpectedToken kind token
  | none => .unexpectedEnd kind

def expect (reader : Reader) (kind : Kind) : Except StreamProblem Token :=
  match reader.current.filter (·.kind = kind) with
  | some token => .ok token
  | none => .error (reader.problem kind)

def passIf (reader : Reader) (kind : Kind) : Reader :=
  if reader.isNext kind then reader.goTo (reader.place + 1) else reader

def answer (reader : Reader) : Request → Except Fault Reply × Reader
  | .current => (.ok (.token reader.current), reader)
  | .peek => (.ok (.token reader.visible[reader.place + 1]?), reader)
  | .peekAhead n =>
      if reader.place + n < Position.offsetBound then
        (.ok (.token reader.visible[reader.place + n]?), reader)
      else (.error .overflow, reader)
  | .advance =>
      (.ok (.token (reader.goTo (reader.place + 1)).current), reader.goTo (reader.place + 1))
  | .check kind => (.ok (.truth (reader.isNext kind)), reader)
  | .advanceIf kind => (.ok (.truth (reader.isNext kind)), reader.passIf kind)
  | .expect kind => (.ok (.taken (reader.expect kind)), reader.passIf kind)
  | .save => (.ok (.number reader.place), reader)
  | .restore place => (.ok .nothing, reader.goTo place)
  | .remaining => (.ok (.number (reader.visible.length - reader.place)), reader)
  | .isAtEnd =>
      (.ok (.truth (reader.place == reader.visible.length || reader.isNext .endOfInput)), reader)
  | .hasEnd => (.ok (.truth (reader.visible.getLast?.any (·.isEnd))), reader)

def replies (reader : Reader) : List Request → List (Except Fault Reply)
  | [] => []
  | request :: requests => (reader.answer request).1 :: (reader.answer request).2.replies requests

theorem current_eq_none {reader : Reader} :
    reader.current = none ↔ reader.place = reader.visible.length := by
  rw [current, List.getElem?_eq_none_iff]
  exact ⟨reader.inside.antisymm, fun same => same.ge⟩

end Reader

/-! ## Reading in step -/

namespace TokenStream

variable {stream : TokenStream} {reader : Reader} {tokens : List Token}

/-- Whether a stream shows the tokens of a list and stands at its place. -/
structure Tracks (stream : TokenStream) (reader : Reader) : Prop where
  shows : stream.Shows reader.visible
  position : stream.position = reader.place

theorem ofTokens_tracks (tokens : List Token) : (ofTokens tokens).Tracks (.ofTokens tokens) :=
  ⟨ofTokens_shows tokens, rfl⟩

namespace Tracks

variable (tracks : stream.Tracks reader)
include tracks

theorem at_eq (n : Nat) : stream.at? (stream.position + n) = reader.visible[reader.place + n]? := by
  rw [tracks.shows.at_eq, tracks.position]

theorem current : stream.current = reader.current := tracks.at_eq 0

theorem peek : stream.peek = reader.visible[reader.place + 1]? := tracks.at_eq 1

theorem peekAhead (n : Nat) : stream.peekAhead n =
    if reader.place + n < Position.offsetBound then .ok reader.visible[reader.place + n]?
    else .error .overflow := by
  rw [TokenStream.peekAhead, tracks.at_eq, tracks.position]

theorem advance : stream.advance.Tracks (reader.goTo (reader.place + 1)) where
  shows := tracks.shows.advance
  position := by
    have inside := reader.inside
    rw [← tracks.position] at inside
    rw [tracks.shows.position_advance inside, tracks.position]
    rfl

theorem restore (place : Nat) : (stream.restore place).Tracks (reader.goTo place) where
  shows := ⟨tracks.shows.size, tracks.shows.at_eq⟩
  position := by
    rw [TokenStream.restore, tracks.shows.size]
    rfl

theorem check (kind : Kind) : stream.check kind = reader.isNext kind := by
  rw [TokenStream.check, Reader.isNext, tracks.current]
  rfl

theorem advanceIf (kind : Kind) : (stream.advanceIf kind).1 = reader.isNext kind ∧
    (stream.advanceIf kind).2.Tracks (reader.passIf kind) := by
  rw [TokenStream.advanceIf, tracks.check, Reader.passIf]
  cases next : reader.isNext kind with
  | true => exact ⟨rfl, tracks.advance⟩
  | false => exact ⟨rfl, tracks⟩

theorem expect (kind : Kind) : (stream.expect kind).1 = reader.expect kind ∧
    (stream.expect kind).2.Tracks (reader.passIf kind) := by
  rw [TokenStream.expect, Reader.expect, Reader.passIf, Reader.isNext, tracks.current]
  cases found : reader.current with
  | none => simp [Reader.problem, found, tracks]
  | some token =>
      by_cases same : token.kind = kind
      · simp [Option.filter, same, tracks.advance]
      · cases ended : token.isEnd with
        | true => simp [Option.filter, same, ended, Reader.problem, found, tracks]
        | false => simp [Option.filter, same, ended, Reader.problem, found, tracks]

theorem remaining : stream.remaining = reader.visible.length - reader.place := by
  rw [TokenStream.remaining, tracks.shows.size, tracks.position]

theorem isAtEnd : stream.isAtEnd =
    (reader.place == reader.visible.length || reader.isNext .endOfInput) := by
  rw [TokenStream.isAtEnd, Reader.isNext, tracks.current]
  cases found : reader.current with
  | none => simp [Reader.current_eq_none.mp found]
  | some token =>
      have before : reader.place ≠ reader.visible.length := by
        rw [Ne, ← Reader.current_eq_none, found]
        exact Option.some_ne_none token
      simp [before, Token.isEnd, beq_eq_decide]

theorem hasEnd : stream.hasEnd = reader.visible.getLast?.any (·.isEnd) := by
  have last := tracks.shows.at_eq (reader.visible.length - 1)
  rw [at?, ← tracks.shows.size, ← Array.back?_eq_getElem?, tracks.shows.size,
    ← List.getLast?_eq_getElem?] at last
  rw [TokenStream.hasEnd, last]

theorem answer (request : Request) : (stream.answer request).1 = (reader.answer request).1 ∧
    (stream.answer request).2.Tracks (reader.answer request).2 := by
  cases request with
  | current => simp [TokenStream.answer, Reader.answer, tracks.current, tracks]
  | peek => simp [TokenStream.answer, Reader.answer, tracks.peek, tracks]
  | peekAhead n =>
      simp only [TokenStream.answer, Reader.answer, tracks.peekAhead]
      split <;> exact ⟨rfl, tracks⟩
  | advance =>
      simp [TokenStream.answer, Reader.answer, tracks.advance.current, tracks.advance]
  | check kind => simp [TokenStream.answer, Reader.answer, tracks.check, tracks]
  | advanceIf kind => simp [TokenStream.answer, Reader.answer, tracks.advanceIf]
  | expect kind => simp [TokenStream.answer, Reader.answer, tracks.expect]
  | save => simp [TokenStream.answer, Reader.answer, tracks.position, tracks]
  | restore place => exact ⟨rfl, tracks.restore place⟩
  | remaining => simp [TokenStream.answer, Reader.answer, tracks.remaining, tracks]
  | isAtEnd => simp [TokenStream.answer, Reader.answer, tracks.isAtEnd, tracks]
  | hasEnd => simp [TokenStream.answer, Reader.answer, tracks.hasEnd, tracks]

theorem replies (requests : List Request) : stream.replies requests = reader.replies requests := by
  induction requests generalizing stream reader with
  | nil => rfl
  | cons request requests ih =>
      obtain ⟨reply, later⟩ := tracks.answer request
      rw [TokenStream.replies, Reader.replies, reply, ih later]

end Tracks

/-! ## Asking for a kind -/

/-- What a stream does that is asked for a token of a kind. It moves only if that token is next. -/
structure Expects (stream : TokenStream) (kind : Kind) : Prop where
  taken : ∀ token, (stream.expect kind).1 = .ok token ↔
    stream.current = some token ∧ token.kind = kind
  moved : ∀ token, (stream.expect kind).1 = .ok token →
    (stream.expect kind).2 = { stream with position := stream.position + 1 }
  ended : (stream.expect kind).1 = .error (.unexpectedEnd kind) ↔
    stream.current = none ∨
      ∃ token, stream.current = some token ∧ token.isEnd = true ∧ kind ≠ .endOfInput
  refused : ∀ token, (stream.expect kind).1 = .error (.unexpectedToken kind token) ↔
    stream.current = some token ∧ token.kind ≠ kind ∧ token.isEnd = false
  failed : ∀ problem, (stream.expect kind).1 = .error problem → (stream.expect kind).2 = stream ∧
    (problem = .unexpectedEnd kind ∨ ∃ token, problem = .unexpectedToken kind token)
  unpassed : (stream.advanceIf kind).1 = false → (stream.advanceIf kind).2 = stream

theorem advance_of_current {token : Token} (found : stream.current = some token) :
    stream.advance = { stream with position := stream.position + 1 } := by
  rw [current, at?] at found
  obtain ⟨index, located, -⟩ := Option.bind_eq_some_iff.mp found
  obtain ⟨inside, -⟩ := Array.getElem?_eq_some_iff.mp located
  rw [advance, if_pos inside]

theorem expects (stream : TokenStream) (kind : Kind) : stream.Expects kind := by
  cases found : stream.current with
  | none =>
      have result : stream.expect kind = (.error (.unexpectedEnd kind), stream) := by
        rw [expect, found]
      constructor <;> simp [result, found, advanceIf, check]
  | some token =>
      by_cases same : token.kind = kind
      · have result : stream.expect kind = (.ok token, stream.advance) := by
          rw [expect, found]
          exact if_pos same
        have next : stream.check kind = true := by simp [check, found, same]
        subst same
        constructor <;> simp [result, found, advance_of_current found, advanceIf, next, Token.isEnd]
      · have next : stream.check kind = false := by simp [check, found, same]
        cases ended : token.isEnd with
        | true =>
            have result : stream.expect kind = (.error (.unexpectedEnd kind), stream) := by
              simp [expect, found, same, ended]
            have other : kind ≠ .endOfInput := by
              rintro rfl
              exact same (beq_iff_eq.mp ended)
            constructor <;> simp [result, found, ended, other, advanceIf, next, same]
        | false =>
            have result : stream.expect kind = (.error (.unexpectedToken kind token), stream) := by
              simp [expect, found, same, ended]
            constructor <;> simp [result, found, ended, advanceIf, next, same]

/-! ## Whole conversations -/

theorem ofTokens_reads (tokens : List Token) (requests : List Request) :
    (ofTokens tokens).replies requests = (Reader.ofTokens tokens).replies requests ∧
      ∀ kind, ((ofTokens tokens).asked requests).Expects kind :=
  ⟨(ofTokens_tracks tokens).replies requests, expects _⟩

end TokenStream
end ExprLex
