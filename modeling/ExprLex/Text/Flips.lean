namespace ExprLex.Text

/-- How many of the sorted `flips` with index in `[low, low + count)` are at most `code`, plus
`low`; all flips before `low` are at most `code`. -/
def flipsUpTo (flips : Array Nat) (code : Nat) : (fuel low count : Nat) → Nat
  | 0, low, _ => low
  | fuel + 1, low, count =>
      if count = 0 then low
      else
        let half := count / 2
        if flips.getD (low + half) 0 ≤ code then
          flipsUpTo flips code fuel (low + half + 1) (count - half - 1)
        else flipsUpTo flips code fuel low half

/-- Whether an odd number of flips lies at or below a code point. Each step halves the part left to
search, so twenty steps cover every table of fewer than 2^20 flips. -/
def flipped (flips : Array Nat) (code : Nat) : Bool :=
  flipsUpTo flips code 20 0 flips.size % 2 == 1

end ExprLex.Text
