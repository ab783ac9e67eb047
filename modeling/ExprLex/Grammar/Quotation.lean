import ExprLex.Grammar.Proposal

namespace ExprLex.Grammar

def unquotable : Char := '\uffff'

def quotedFrom (quote : Char) (doubling : Bool) (kind : Kind) : List Char → Nat → Proposal
  | [], read => .reject read .unterminatedString
  | c :: rest, read =>
      if c = unquotable then .reject read .unterminatedString
      else if c = quote then
        match rest with
        | [] => .accept (read + 1) kind
        | d :: more =>
            if doubling && d == quote then quotedFrom quote doubling kind more (read + 2)
            else .accept (read + 1) kind
      else quotedFrom quote doubling kind rest (read + 1)

def quoted (quote : Char) (doubling : Bool) (kind : Kind) : List Char → Option Proposal
  | [] => none
  | c :: rest => if c = quote then some (quotedFrom quote doubling kind rest 1) else none

def singleQuote : Char := '\x27'

def doubleQuote : Char := '"'

def singleQuoted : List Char → Option Proposal := quoted singleQuote true .singleQuoted

def doubleQuoted : List Char → Option Proposal := quoted doubleQuote false .doubleQuoted

end ExprLex.Grammar
