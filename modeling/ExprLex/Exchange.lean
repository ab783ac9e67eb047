import ExprLex.Json.Parsed
import ExprLex.Json.Value
import ExprLex.Scan.Metrics
import ExprLex.Settings
import ExprLex.Token.Basic
import ExprLex.Token.Word

namespace ExprLex

def chosen? {α : Type} (all : List α) (name : α → String) (parsed : Json.Parsed) : Option α := do
  let wanted ← parsed.choice?
  all.find? fun alternative => name alternative == wanted

namespace Position

def toJson (p : Position) : Json.Value :=
  .obj [("offset", .num p.offset), ("line", .num p.line), ("column", .num p.column)]

def ofJson? (parsed : Json.Parsed) : Option Position := do
  let [offset, line, column] ← parsed.fields? ["offset", "line", "column"] | none
  return ⟨← offset.natBelow? offsetBound, ← line.natBelow? counterBound,
    ← column.natBelow? counterBound⟩

end Position

namespace Span

def toJson (s : Span) : Json.Value := .obj [("start", s.start.toJson), ("end", s.stop.toJson)]

def ofJson? (parsed : Json.Parsed) : Option Span := do
  let [start, stop] ← parsed.fields? ["start", "end"] | none
  return ⟨← Position.ofJson? start, ← Position.ofJson? stop⟩

end Span

namespace Kind

def toJson (kind : Kind) : Json.Value := .str kind.name

def ofJson? : Json.Parsed → Option Kind := chosen? all name

end Kind

namespace Channel

def toJson (channel : Channel) : Json.Value := .str channel.name

def ofJson? : Json.Parsed → Option Channel := chosen? all name

end Channel

namespace Group

def title : Group → String
  | .literal => "Literal"
  | .identifier => "Identifier"
  | .operator => "Operator"
  | .punctuation => "Punctuation"
  | .whitespace => "Whitespace"
  | .endOfInput => "Eof"

def toJson (group : Group) : Json.Value := .str group.title

def ofJson? : Json.Parsed → Option Group := chosen? all title

end Group

namespace Word

def title : Word → String
  | .andOp => "And"
  | .orOp => "Or"
  | .inOp => "In"
  | .isOp => "Is"
  | .betweenOp => "Between"
  | .matchesOp => "Matches"
  | .newOp => "New"
  | .trueLit => "True"
  | .falseLit => "False"
  | .nullLit => "Null"

def toJson (word : Word) : Json.Value := .str word.title

def ofJson? : Json.Parsed → Option Word := chosen? all title

end Word

namespace Token

def toJson (token : Token) : Json.Value :=
  .obj [("kind", token.kind.toJson), ("lexeme", .str token.lexeme), ("span", token.span.toJson),
    ("channel", token.channel.toJson)]

def ofJson? (parsed : Json.Parsed) : Option Token := do
  let [kind, lexeme, span, channel] ← parsed.fields? ["kind", "lexeme", "span", "channel"] | none
  return ⟨← Kind.ofJson? kind, ← lexeme.text?, ← Span.ofJson? span, ← Channel.ofJson? channel⟩

end Token

namespace Log.Level

def toJson (level : Level) : Json.Value := .str level.name

def ofJson? : Json.Parsed → Option Level := chosen? all name

end Log.Level

namespace Preferences

def toJson (preferences : Preferences) : Json.Value :=
  .obj [("collect_detailed_metrics", .bool preferences.detailedMetrics),
    ("track_operator_patterns", .bool preferences.trackOperators),
    ("include_position_in_errors", .bool preferences.positionsInErrors),
    ("log_token_events", .bool preferences.logTokens)]

def ofJson? (parsed : Json.Parsed) : Option Preferences := do
  let [detailed, operators, positions, tokens] ← parsed.fields? ["collect_detailed_metrics",
    "track_operator_patterns", "include_position_in_errors", "log_token_events"] | none
  return ⟨← detailed.bool?, ← operators.bool?, ← positions.bool?, ← tokens.bool?⟩

end Preferences

namespace LogSettings

def toJson (settings : LogSettings) : Json.Value :=
  .obj [("use_structured_logging", .bool settings.structured),
    ("enable_console_logging", .bool settings.console),
    ("min_log_level", settings.minLevel.toJson)]

def ofJson? (parsed : Json.Parsed) : Option LogSettings := do
  let [structured, console, minLevel] ← parsed.fields?
    ["use_structured_logging", "enable_console_logging", "min_log_level"] | none
  return ⟨← structured.bool?, ← console.bool?, ← Log.Level.ofJson? minLevel⟩

end LogSettings

namespace Settings

def toJson (settings : Settings) : Json.Value :=
  .obj [("lexical", settings.lexical.toJson), ("logging", settings.logging.toJson)]

def ofJson? (parsed : Json.Parsed) : Option Settings := do
  let [lexical, logging] ← parsed.fields? ["lexical", "logging"] | none
  return ⟨← Preferences.ofJson? lexical, ← LogSettings.ofJson? logging⟩

end Settings

namespace Metrics

def toJson (metrics : Metrics) : Json.Value :=
  .obj [("total_tokens", .num metrics.total),
    ("literal_tokens", .num metrics.literals),
    ("keyword_tokens", .num metrics.reserved),
    ("identifier_tokens", .num metrics.identifiers),
    ("operator_tokens", .num metrics.operators),
    ("punctuation_tokens", .num metrics.punctuation),
    ("whitespace_tokens", .num metrics.whitespace),
    ("max_string_literal_length", .num metrics.longestString),
    ("max_identifier_length", .num metrics.longestIdentifier),
    ("operator_usage_patterns", .obj (metrics.usage.map fun (kind, uses) => (kind.name, .num uses)))]

end Metrics

inductive Exchangeable where
  | position
  | span
  | token
  | kind
  | channel
  | group
  | word
  | level
  | settings
deriving DecidableEq

namespace Exchangeable

def roundTrip (type : Exchangeable) (text : String) : Option String := do
  let parsed ← Json.Parsed.ofText? text
  let value : Json.Value ← match type with
    | .position => (Position.ofJson? parsed).map (·.toJson)
    | .span => (Span.ofJson? parsed).map (·.toJson)
    | .token => (Token.ofJson? parsed).map (·.toJson)
    | .kind => (Kind.ofJson? parsed).map (·.toJson)
    | .channel => (Channel.ofJson? parsed).map (·.toJson)
    | .group => (Group.ofJson? parsed).map (·.toJson)
    | .word => (Word.ofJson? parsed).map (·.toJson)
    | .level => (Log.Level.ofJson? parsed).map (·.toJson)
    | .settings => (Settings.ofJson? parsed).map (·.toJson)
  return value.compact

end Exchangeable
end ExprLex
