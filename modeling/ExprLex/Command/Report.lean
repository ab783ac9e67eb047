import ExprLex.Exchange
import ExprLex.LineIndex
import ExprLex.Scan.Problem
import ExprLex.Text.Layout

namespace ExprLex.Command

def version : String := "0.1.0"

def usage (program : String) : String :=
  "Usage: " ++ program ++ " [--raw] [--json] [--metrics] <expression>\n" ++
  "       " ++ program ++ " [--raw] [--json] [--metrics] --file <path>\n" ++
  "       " ++ program ++ " --help\n"

def help (program : String) : String := String.join [
  "SpEL Lexer v", version, "\n",
  "Longest-match tokenizer for Spring-style expression text\n",
  "\n",
  "USAGE:\n",
  "    ", program, " [options] <expression>\n",
  "    ", program, " [options] --file <path>\n",
  "\n",
  "OPTIONS:\n",
  "    --help          Show this help message\n",
  "    --raw           Include whitespace tokens\n",
  "    --json          Print tokens as JSON\n",
  "    --metrics       Print token statistics\n",
  "    --file <path>   Read the expression from a UTF-8 file\n",
  "    --              Treat the next argument as the expression\n",
  "\n",
  "ENVIRONMENT:\n",
  "    SPEL_LOGGING_ENABLE_CONSOLE=true   Log events to stderr\n",
  "    SPEL_LOGGING_MIN_LEVEL=debug       Minimum log level\n",
  "    SPEL_LEXICAL_TRACK_OPERATORS=true  Count operator usage\n",
  "\n",
  "EXAMPLES:\n",
  "    ", program, " \"name == 'x' and age >= 18\"\n",
  "    ", program, " --raw --json \"T(java.lang.Math).PI\"\n",
  "    ", program, " --file expression.spel --metrics\n"]

def tokenRow (token : Token) : String :=
  Text.padRight 24 token.kind.name ++ " " ++
  Text.padLeft 6 (toString token.span.start.offset) ++ ".." ++
  Text.padRight 6 (toString token.span.stop.offset) ++ " " ++
  Text.quotedString token.lexeme ++ "\n"

def table (tokens : List Token) : String :=
  tokens.foldl (fun out token => out ++ tokenRow token) ""

def metricsBlock (metrics : Metrics) : String :=
  let row (label : String) (count : Nat) : String := Text.padRight 13 label ++ toString count ++ "\n"
  let usageRow (entry : Kind × Nat) : String :=
    "  " ++ Text.padRight 22 entry.1.name ++ " " ++ toString entry.2 ++ "\n"
  "\n" ++ row "tokens:" metrics.total ++ row "literals:" metrics.literals ++
  row "keywords:" metrics.reserved ++ row "identifiers:" metrics.identifiers ++
  row "operators:" metrics.operators ++ row "punctuation:" metrics.punctuation ++
  row "whitespace:" metrics.whitespace ++ String.join (metrics.usage.map usageRow)

def jsonText (tokens : List Token) (metrics : Option Metrics) : String :=
  let list : Json.Value := .arr (tokens.map (·.toJson))
  match metrics with
  | none => list.pretty ++ "\n"
  | some metrics =>
      (Json.Value.obj [("metrics", metrics.toJson), ("tokens", list)]).sorted.pretty ++ "\n"

def problemText (source : String) (problem : Problem) : Except Fault String := do
  let message := "[" ++ problem.code ++ "] " ++ problem.message
  match problem.span? with
  | some span => return (← (LineIndex.ofText source).report span message) ++ "\n"
  | none => return "error: " ++ message ++ "\n"

end ExprLex.Command
