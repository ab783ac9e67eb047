import ExprLex.Text.Printable
import ExprLex.Text.Extending

namespace ExprLex.Text

def codeEscape (c : Char) : String :=
  "\\u\x7b" ++ String.ofList (Nat.toDigits 16 c.toNat) ++ "\x7d"

def escaped (quote c : Char) : String :=
  if c = '\x00' then "\\0"
  else if c = '\t' then "\\t"
  else if c = '\r' then "\\r"
  else if c = '\n' then "\\n"
  else if c = '\\' || c = quote then String.ofList ['\\', c]
  else if isExtending c || !isPrintable c then codeEscape c
  else String.singleton c

def quotedString (text : String) : String :=
  text.toList.foldl (fun out c => out ++ escaped '"' c) "\"" ++ "\""

def quotedChar (c : Char) : String :=
  "'" ++ escaped '\x27' c ++ "'"

end ExprLex.Text
