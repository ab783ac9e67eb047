import ExprLex.Stream.Basic
import Mathlib

namespace ExprLex.TokenStream

variable {stream : TokenStream} {tokens visible : List Token} {n : Nat}

structure Shows (stream : TokenStream) (visible : List Token) : Prop where
  size : stream.shown.size = visible.length
  at_eq : ∀ n, stream.at? n = visible[n]?

theorem map_places (before tokens : List Token) :
    ((tokens.zipIdx before.length).filterMap fun (token, place) =>
        if token.isHidden then none else some place).map (fun place => (before ++ tokens)[place]?) =
      (tokens.filter (!·.isHidden)).map some := by
  induction tokens generalizing before with
  | nil => rfl
  | cons token tokens ih =>
      have later := ih (before ++ [token])
      rw [List.length_append, List.length_singleton, List.append_assoc, List.singleton_append]
        at later
      rw [List.zipIdx_cons]
      cases hidden : token.isHidden with
      | true =>
          simp only [List.filterMap_cons, hidden, if_true]
          rw [later]
          simp [hidden]
      | false =>
          simp only [List.filterMap_cons, hidden, Bool.false_eq_true, if_false, List.map_cons]
          rw [later]
          simp [hidden]

theorem ofTokens_shows (tokens : List Token) :
    (ofTokens tokens).Shows (tokens.filter (!·.isHidden)) := by
  have places := map_places [] tokens
  constructor
  · have length := congrArg List.length places
    simpa [ofTokens] using length
  · intro n
    have found := congrArg (·[n]?.bind id) places
    simp only [List.getElem?_map, Option.bind_map] at found
    rw [at?, ofTokens, List.getElem?_toArray]
    simp only [List.getElem?_toArray]
    exact found.trans (Option.bind_fun_some _)

theorem Shows.advance (shows : stream.Shows visible) : stream.advance.Shows visible := by
  rw [TokenStream.advance]
  split
  · exact ⟨shows.size, shows.at_eq⟩
  · exact shows

theorem Shows.position_advance (shows : stream.Shows visible)
    (inside : stream.position ≤ visible.length) :
    stream.advance.position = min (stream.position + 1) visible.length := by
  rw [TokenStream.advance, shows.size]
  split
  · rename_i more
    exact (Nat.min_eq_left (Nat.succ_le_of_lt more)).symm
  · omega

end ExprLex.TokenStream
