namespace ExprLex.Literal

def digitValue (c : Char) : Nat :=
  if '0' ≤ c ∧ c ≤ '9' then c.toNat - 48
  else if 'a' ≤ c ∧ c ≤ 'f' then c.toNat - 87
  else if 'A' ≤ c ∧ c ≤ 'F' then c.toNat - 55
  else 0

/-- Joins digits in pairs, the lowest first; `done` are the pairs so far, the highest first. -/
def pairUp (base : Nat) (done : List Nat) : List Nat → List Nat
  | low :: high :: digits => pairUp base ((low + base * high) :: done) digits
  | [digit] => (digit :: done).reverse
  | [] => done.reverse

def valueOf : (fuel base : Nat) → List Nat → Nat
  | 0, base, digits => digits.foldr (fun digit total => digit + base * total) 0
  | _ + 1, _, [] => 0
  | _ + 1, _, [digit] => digit
  | fuel + 1, base, digits => valueOf fuel (base * base) (pairUp base [] digits)

def digitsValue (base : Nat) (digits : List Char) : Nat :=
  valueOf 64 base (digits.reverse.map digitValue)

end ExprLex.Literal
