import ExprLex.Cursor
import ExprLex.Grammar.Catalogue
import ExprLex.Log.Event
import ExprLex.Scan.Metrics
import ExprLex.Scan.Problem

namespace ExprLex

inductive Phase where
  | fresh
  | scanning
  | ended
  | failed (problem : Problem)
deriving DecidableEq

abbrev Item := Except Problem Token

structure Scanner where
  limits : Limits
  preferences : Preferences
  cursor : Cursor
  phase : Phase := .fresh
  metrics : Metrics := {}
  /-- Tokens given so far, hidden ones included and the end mark not. -/
  emitted : Nat := 0
  raised : List Log.Event := []

namespace Item

def isLast : Item → Bool
  | .ok token => token.isEnd
  | .error _ => true

def isHidden : Item → Bool
  | .ok token => token.isHidden
  | .error _ => false

end Item

namespace Scanner

def ofText (limits : Limits) (preferences : Preferences) (source : String) : Scanner where
  limits
  preferences
  cursor := .ofText source

def source (scanner : Scanner) : String := scanner.cursor.source

def offset (scanner : Scanner) : Nat := scanner.cursor.position.offset

def isDone (scanner : Scanner) : Bool :=
  match scanner.phase with
  | .fresh | .scanning => false
  | .ended | .failed _ => true

def events (scanner : Scanner) : List Log.Event := scanner.raised.reverse

def raise (scanner : Scanner) (event : Log.Event) : Scanner :=
  { scanner with raised := event :: scanner.raised }

def endMark (scanner : Scanner) : Token := .endAt scanner.cursor.position

def spanAhead (scanner : Scanner) (length : Nat) : Except Fault Span := do
  Span.between scanner.cursor.position (← scanner.cursor.positionAfter length)

def startEvent (scanner : Scanner) : Log.Event :=
  (Log.Event.debug "Starting lexical analysis").withContext [
    ("source_bytes", toString scanner.source.utf8ByteSize),
    ("max_source_length", toString scanner.limits.sourceBytes),
    ("max_tokens_allowed", toString scanner.limits.tokens)]

def tokenEvent (token : Token) (rule : String) : Log.Event :=
  (Log.Event.debug "Token produced").withContext [
    ("kind", token.kind.name),
    ("lexeme", Text.quotedString token.lexeme),
    ("span", token.span.text),
    ("rule", rule)]

def completionEvent (scanner : Scanner) : Log.Event :=
  (Log.Event.success Log.Code.scanComplete "Lexical analysis completed successfully").withContext [
    ("source_bytes", toString scanner.source.utf8ByteSize),
    ("token_count", toString scanner.metrics.total),
    ("identifiers", toString scanner.metrics.identifiers),
    ("literals", toString scanner.metrics.literals),
    ("operators", toString scanner.metrics.operators),
    ("whitespace", toString scanner.metrics.whitespace),
    ("max_string_literal_length", toString scanner.metrics.longestString)]

def problemEvent (scanner : Scanner) (problem : Problem) : Log.Event :=
  let event := Log.Event.error problem.code problem.message
  let processed := ("tokens_processed", toString scanner.emitted)
  match problem.span? with
  | some span =>
      if scanner.preferences.positionsInErrors then
        (event.withSpan span).withContext [
          ("offset", toString problem.offset),
          ("line", toString span.start.line),
          ("column", toString span.start.column),
          processed]
      else event.withContext [processed]
  | none => event.withContext [processed]

def fail (scanner : Scanner) (problem : Problem) : Item × Scanner :=
  (.error problem,
    { scanner.raise (scanner.problemEvent problem) with phase := .failed problem })

def finish (scanner : Scanner) : Item × Scanner :=
  (.ok scanner.endMark, { scanner.raise scanner.completionEvent with phase := .ended })

def flawProblem (scanner : Scanner) (first : Char) (length : Nat) (flaw : Flaw) :
    Except Fault Problem := do
  let span ← scanner.spanAhead length
  match flaw with
  | .unterminatedString => return .unterminatedString first span
  | .malformedNumber =>
      let text := scanner.cursor.rest.take length
      return .malformedNumber (String.ofList text) (.ofText text) span

def limitProblem? (limits : Limits) (kind : Kind) (lexeme : String) (span : Span) :
    Option Problem :=
  if kind.isString && limits.stringBytes < lexeme.utf8ByteSize then
    some (.stringTooLarge lexeme.utf8ByteSize limits.stringBytes span)
  else if kind == .identifier && limits.identifierChars < lexeme.length then
    some (.identifierTooLong lexeme.length limits.identifierChars span)
  else none

def emit (scanner : Scanner) (length : Nat) (kind : Kind) (rule : String) :
    Except Fault (Item × Scanner) := do
  let span ← scanner.spanAhead length
  match limitProblem? scanner.limits kind (scanner.cursor.ahead length) span with
  | some problem => return scanner.fail problem
  | none =>
      let (lexeme, cursor) ← scanner.cursor.advance length
      let token := Token.ofKind kind lexeme span
      let after := { scanner with
        cursor
        emitted := scanner.emitted + 1
        metrics := scanner.metrics.record scanner.preferences token }
      return (.ok token,
        if scanner.preferences.logTokens then after.raise (tokenEvent token rule) else after)

def step (scanner : Scanner) : Except Fault (Item × Scanner) := do
  match scanner.cursor.rest with
  | [] => return scanner.finish
  | first :: _ =>
      if scanner.limits.tokens ≤ scanner.emitted then
        return scanner.fail
          (.tooManyTokens scanner.limits.tokens (.emptyAt scanner.cursor.position))
      match Rule.select scanner.cursor.rest with
      | none =>
          return scanner.fail (.unrecognizedCharacter first (← scanner.spanAhead 1))
      | some selection =>
          match selection.proposal with
          | .reject length flaw => return scanner.fail (← scanner.flawProblem first length flaw)
          | .accept length kind => scanner.emit length kind selection.rule

def begin (scanner : Scanner) : Except Fault (Item × Scanner) :=
  let started := { scanner.raise scanner.startEvent with phase := .scanning }
  if scanner.limits.sourceBytes < scanner.source.utf8ByteSize then
    return started.fail (.sourceTooLarge scanner.source.utf8ByteSize scanner.limits.sourceBytes)
  else started.step

def next (scanner : Scanner) : Except Fault (Item × Scanner) :=
  match scanner.phase with
  | .fresh => scanner.begin
  | .scanning => scanner.step
  | .ended => return (.ok scanner.endMark, scanner)
  | .failed problem => return (.error problem, scanner)

def drain : (fuel : Nat) → Scanner → (items : List Item) → Except Fault (List Item × Scanner)
  | 0, scanner, items => .ok (items.reverse, scanner)
  | fuel + 1, scanner, items =>
      match scanner.next with
      | .error fault => .error fault
      | .ok (item, after) =>
          if Item.isLast item then .ok ((item :: items).reverse, after)
          else drain fuel after (item :: items)

/-- All items that are left, the last one included. Every token takes at least one byte of the
text, so the scan is over after one step more than there are bytes. -/
def items (scanner : Scanner) : Except Fault (List Item × Scanner) :=
  scanner.drain (scanner.source.utf8ByteSize + 1) []

end Scanner

def splitItems (items : List Item) : List Token × Option Problem :=
  items.foldr (fun item (tokens, problem) =>
    match item with
    | .ok token => (token :: tokens, problem)
    | .error found => ([], some found)) ([], none)

def tokenizeAll (limits : Limits) (preferences : Preferences) (source : String) :
    Except Fault (Except Problem (List Token) × Scanner) := do
  let (items, scanner) ← (Scanner.ofText limits preferences source).items
  let (tokens, problem) := splitItems items
  match problem with
  | some problem => return (.error problem, scanner)
  | none => return (.ok tokens, scanner)

end ExprLex
