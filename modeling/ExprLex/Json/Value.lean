namespace ExprLex.Json

inductive Value where
  | null
  | bool (b : Bool)
  | num (n : Nat)
  | str (s : String)
  | arr (items : List Value)
  | obj (members : List (String × Value))

def needsEscape (c : Char) : Bool := c == '"' || c == '\\' || c.toNat < 0x20

def escape (c : Char) : String :=
  if c = '"' then "\\\""
  else if c = '\\' then "\\\\"
  else if c = '\n' then "\\n"
  else if c = '\r' then "\\r"
  else if c = '\t' then "\\t"
  else if c.toNat = 0x8 then "\\b"
  else if c.toNat = 0xc then "\\f"
  else String.ofList ['\\', 'u', '0', '0', Nat.digitChar (c.toNat / 16), Nat.digitChar (c.toNat % 16)]

def quoteOnto (out text : String) : String :=
  let body := text.toList.foldl (fun out c => if needsEscape c then out ++ escape c else out.push c)
    (out.push '"')
  body.push '"'

namespace Value

mutual

def compactOnto (out : String) : Value → String
  | .null => out ++ "null"
  | .bool b => out ++ (if b then "true" else "false")
  | .num n => out ++ toString n
  | .str s => quoteOnto out s
  | .arr items => (compactItems (out.push '[') "" items).push ']'
  | .obj members => (compactMembers (out ++ "\x7b") "" members) ++ "\x7d"

def compactItems (out separator : String) : List Value → String
  | [] => out
  | item :: items => compactItems (item.compactOnto (out ++ separator)) "," items

def compactMembers (out separator : String) : List (String × Value) → String
  | [] => out
  | (key, value) :: members =>
      compactMembers (value.compactOnto ((quoteOnto (out ++ separator) key).push ':')) "," members

end

def compact (value : Value) : String := value.compactOnto ""

mutual

/-- Writes a value behind `out`; `margin` begins each line of its parts but the last. -/
def prettyOnto (margin out : String) : Value → String
  | .arr (item :: items) =>
      prettyItems (margin ++ "  ") (out.push '[') "\n" (item :: items) ++ "\n" ++ margin ++ "]"
  | .obj (member :: members) =>
      prettyMembers (margin ++ "  ") (out ++ "\x7b") "\n" (member :: members) ++ "\n" ++ margin
        ++ "\x7d"
  | .null => out ++ "null"
  | .bool b => out ++ (if b then "true" else "false")
  | .num n => out ++ toString n
  | .str s => quoteOnto out s
  | .arr [] => out ++ "[]"
  | .obj [] => out ++ "\x7b\x7d"

def prettyItems (margin out separator : String) : List Value → String
  | [] => out
  | item :: items =>
      prettyItems margin (item.prettyOnto margin (out ++ separator ++ margin)) ",\n" items

def prettyMembers (margin out separator : String) : List (String × Value) → String
  | [] => out
  | (key, value) :: members =>
      prettyMembers margin
        (value.prettyOnto margin (quoteOnto (out ++ separator ++ margin) key ++ ": ")) ",\n" members

end

def pretty (value : Value) : String := value.prettyOnto "" ""

mutual

def sorted : Value → Value
  | .arr items => .arr (sortedItems [] items)
  | .obj members => .obj ((sortedMembers [] members).mergeSort fun a b => a.1 ≤ b.1)
  | .null => .null
  | .bool b => .bool b
  | .num n => .num n
  | .str s => .str s

def sortedItems (done : List Value) : List Value → List Value
  | [] => done.reverse
  | item :: items => sortedItems (item.sorted :: done) items

def sortedMembers (done : List (String × Value)) : List (String × Value) → List (String × Value)
  | [] => done.reverse
  | (key, value) :: members => sortedMembers ((key, value.sorted) :: done) members

end

end Value
end ExprLex.Json
