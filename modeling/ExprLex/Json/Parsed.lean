namespace ExprLex.Json

/-- JSON as it is read. A number keeps its text, because only the reader of a field knows which
numbers are allowed there. A string whose escapes leave half of a surrogate pair alone has no content. -/
inductive Parsed where
  | null
  | bool (b : Bool)
  | number (text : String)
  | string (content : Option String)
  | array (items : List Parsed)
  | object (members : List (Option String × Parsed))

inductive Mark where
  | openArray
  | closeArray
  | openObject
  | closeObject
  | comma
  | colon
  | scalar (value : Parsed)

def isGap (c : Char) : Bool := c == ' ' || c == '\t' || c == '\n' || c == '\r'

def hexValue? (c : Char) : Option Nat :=
  if '0' ≤ c ∧ c ≤ '9' then some (c.toNat - 48)
  else if 'a' ≤ c ∧ c ≤ 'f' then some (c.toNat - 87)
  else if 'A' ≤ c ∧ c ≤ 'F' then some (c.toNat - 55)
  else none

def unit? (a b c d : Char) : Option Nat := do
  return 4096 * (← hexValue? a) + 256 * (← hexValue? b) + 16 * (← hexValue? c) + (← hexValue? d)

def simpleEscape? : Char → Option Char
  | '"' => some '"'
  | '\\' => some '\\'
  | '/' => some '/'
  | 'b' => some '\x08'
  | 'f' => some '\x0c'
  | 'n' => some '\n'
  | 'r' => some '\r'
  | 't' => some '\t'
  | _ => none

structure Draft where
  chars : List Char := []
  /-- The first half of a surrogate pair whose second half has to follow. -/
  pending : Option Nat := none
  broken : Bool := false

namespace Draft

def push (draft : Draft) (c : Char) : Draft where
  chars := c :: draft.chars
  broken := draft.broken || draft.pending.isSome

def pushUnit (draft : Draft) (unit : Nat) : Draft :=
  if 0xdc00 ≤ unit ∧ unit ≤ 0xdfff then
    match draft.pending with
    | some high =>
        { draft with
          chars := Char.ofNat (0x10000 + (high - 0xd800) * 0x400 + (unit - 0xdc00)) :: draft.chars
          pending := none }
    | none => { draft with broken := true }
  else if 0xd800 ≤ unit ∧ unit ≤ 0xdbff then
    { draft with pending := some unit, broken := draft.broken || draft.pending.isSome }
  else draft.push (Char.ofNat unit)

def content (draft : Draft) : Option String :=
  if draft.broken || draft.pending.isSome then none else some (String.ofList draft.chars.reverse)

end Draft

def readString (draft : Draft) : List Char → Option (Option String × List Char)
  | '"' :: rest => some (draft.content, rest)
  | '\\' :: 'u' :: a :: b :: c :: d :: rest =>
      match unit? a b c d with
      | some unit => readString (draft.pushUnit unit) rest
      | none => none
  | '\\' :: c :: rest =>
      match simpleEscape? c with
      | some plain => readString (draft.push plain) rest
      | none => none
  | c :: rest => if c.toNat < 0x20 then none else readString (draft.push c) rest
  | [] => none

def readDigits (text : List Char) : Option (List Char × List Char) :=
  let digits := text.takeWhile Char.isDigit
  if digits.isEmpty then none else some (digits, text.dropWhile Char.isDigit)

def readWhole : List Char → Option (List Char × List Char)
  | '0' :: rest => some (['0'], rest)
  | text => readDigits text

def readFraction : List Char → Option (List Char × List Char)
  | '.' :: rest => do
      let (digits, rest) ← readDigits rest
      return ('.' :: digits, rest)
  | text => some ([], text)

def readExponent : List Char → Option (List Char × List Char)
  | e :: rest =>
      if e = 'e' || e = 'E' then
        match rest with
        | sign :: more =>
            if sign = '+' || sign = '-' then do
              let (digits, rest) ← readDigits more
              return (e :: sign :: digits, rest)
            else do
              let (digits, rest) ← readDigits rest
              return (e :: digits, rest)
        | [] => none
      else some ([], e :: rest)
  | [] => some ([], [])

def readNumber (text : List Char) : Option (Parsed × List Char) := do
  let (sign, rest) := match text with
    | '-' :: rest => (['-'], rest)
    | rest => ([], rest)
  let (whole, rest) ← readWhole rest
  let (fraction, rest) ← readFraction rest
  let (exponent, rest) ← readExponent rest
  return (.number (String.ofList (sign ++ whole ++ fraction ++ exponent)), rest)

def readMark : List Char → Option (Mark × List Char)
  | '[' :: rest => some (.openArray, rest)
  | ']' :: rest => some (.closeArray, rest)
  | '\x7b' :: rest => some (.openObject, rest)
  | '\x7d' :: rest => some (.closeObject, rest)
  | ',' :: rest => some (.comma, rest)
  | ':' :: rest => some (.colon, rest)
  | '"' :: rest => do
      let (content, rest) ← readString {} rest
      return (.scalar (.string content), rest)
  | 'n' :: 'u' :: 'l' :: 'l' :: rest => some (.scalar .null, rest)
  | 't' :: 'r' :: 'u' :: 'e' :: rest => some (.scalar (.bool true), rest)
  | 'f' :: 'a' :: 'l' :: 's' :: 'e' :: rest => some (.scalar (.bool false), rest)
  | text => do
      let (number, rest) ← readNumber text
      return (.scalar number, rest)

def readMarks : (fuel : Nat) → (marks : List Mark) → List Char → Option (List Mark)
  | fuel, marks, text =>
      match fuel, text.dropWhile isGap with
      | _, [] => some marks.reverse
      | 0, _ => none
      | fuel + 1, rest => do
          let (mark, rest) ← readMark rest
          readMarks fuel (mark :: marks) rest

inductive Frame where
  | array (items : List Parsed)
  | object (members : List (Option String × Parsed)) (key : Option String)

inductive Turn where
  | value
  | itemOrClose
  | keyOrClose
  | key
  | colon
  | commaOrClose
  | finished (value : Parsed)

structure Machine where
  turn : Turn := .value
  frames : List Frame := []

namespace Machine

def deliver (frames : List Frame) (value : Parsed) : Machine :=
  match frames with
  | [] => ⟨.finished value, []⟩
  | .array items :: outer => ⟨.commaOrClose, .array (value :: items) :: outer⟩
  | .object members key :: outer => ⟨.commaOrClose, .object ((key, value) :: members) key :: outer⟩

def beginValue (frames : List Frame) : Mark → Option Machine
  | .scalar value => some (deliver frames value)
  | .openArray => some ⟨.itemOrClose, .array [] :: frames⟩
  | .openObject => some ⟨.keyOrClose, .object [] none :: frames⟩
  | _ => none

def beginKey (frames : List Frame) : Mark → Option Machine
  | .scalar (.string content) =>
      match frames with
      | .object members _ :: outer => some ⟨.colon, .object members content :: outer⟩
      | _ => none
  | _ => none

def close (frames : List Frame) : Mark → Option Machine
  | .closeArray =>
      match frames with
      | .array items :: outer => some (deliver outer (.array items.reverse))
      | _ => none
  | .closeObject =>
      match frames with
      | .object members _ :: outer => some (deliver outer (.object members.reverse))
      | _ => none
  | _ => none

def step (machine : Machine) (mark : Mark) : Option Machine :=
  match machine.turn, mark with
  | .value, _ => beginValue machine.frames mark
  | .itemOrClose, .closeArray => close machine.frames mark
  | .itemOrClose, _ => beginValue machine.frames mark
  | .keyOrClose, .closeObject => close machine.frames mark
  | .keyOrClose, _ => beginKey machine.frames mark
  | .key, _ => beginKey machine.frames mark
  | .colon, .colon => some { machine with turn := .value }
  | .colon, _ => none
  | .commaOrClose, .comma =>
      match machine.frames with
      | .array _ :: _ => some { machine with turn := .value }
      | .object _ _ :: _ => some { machine with turn := .key }
      | [] => none
  | .commaOrClose, _ => close machine.frames mark
  | .finished _, _ => none

end Machine

namespace Parsed

def ofText? (text : String) : Option Parsed := do
  let chars := text.toList
  let marks ← readMarks chars.length [] chars
  let machine ← marks.foldlM Machine.step {}
  match machine.turn with
  | .finished value => some value
  | _ => none

def text? : Parsed → Option String
  | .string content => content
  | _ => none

def bool? : Parsed → Option Bool
  | .bool b => some b
  | _ => none

def nat? : Parsed → Option Nat
  | .number text =>
      if text.toList.all Char.isDigit then
        some (text.toList.foldl (fun total c => 10 * total + (c.toNat - 48)) 0)
      else none
  | _ => none

def natBelow? (bound : Nat) (parsed : Parsed) : Option Nat := do
  let n ← parsed.nat?
  if n < bound then some n else none

/-- The fields of a record. An object has each of them once, in any order and among others; an
array has exactly them, in this order. -/
def fields? (names : List String) : Parsed → Option (List Parsed)
  | .array items => if items.length = names.length then some items else none
  | .object members =>
      if members.all (·.1.isSome) then
        names.mapM fun name =>
          match members.filter (·.1 == some name) with
          | [(_, value)] => some value
          | _ => none
      else none
  | _ => none

/-- The name of an alternative: a string, or an object that gives it the value null. -/
def choice? : Parsed → Option String
  | .string content => content
  | .object [(name, .null)] => name
  | _ => none

end Parsed
end ExprLex.Json
