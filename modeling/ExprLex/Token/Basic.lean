import ExprLex.Span
import ExprLex.Text.Quoted
import ExprLex.Token.Kind

namespace ExprLex

structure Token where
  kind : Kind
  lexeme : String
  span : Span
  channel : Channel
deriving DecidableEq

namespace Token

def ofKind (kind : Kind) (lexeme : String) (span : Span) : Token :=
  ⟨kind, lexeme, span, kind.channel⟩

def endAt (p : Position) : Token := ofKind .endOfInput "" (.emptyAt p)

def isHidden (token : Token) : Bool := token.channel == .hidden

def isEnd (token : Token) : Bool := token.kind == .endOfInput

def text (token : Token) : String :=
  if token.isEnd then "<EOF>" else token.kind.name ++ " " ++ Text.quotedString token.lexeme

end Token
end ExprLex
