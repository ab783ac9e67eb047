namespace ExprLex.Text

def run (count : Nat) (c : Char) : String := String.ofList (List.replicate count c)

def padRight (width : Nat) (text : String) : String := text ++ run (width - text.length) ' '

def padLeft (width : Nat) (text : String) : String := run (width - text.length) ' ' ++ text

/-- How many lines a text has: a line feed ends a line, and what follows the last one is a line
only if it is not empty. -/
def lineCount (text : String) : Nat :=
  let chars := text.toList
  let ended := chars.countP (· == '\n')
  match chars.getLast? with
  | none | some '\n' => ended
  | some _ => ended + 1

end ExprLex.Text
