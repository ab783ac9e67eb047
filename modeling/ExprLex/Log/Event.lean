import ExprLex.Json.Value
import ExprLex.Log.Code
import ExprLex.Log.Level
import ExprLex.Span

namespace ExprLex.Log

abbrev Context := List (String × String)

structure Event where
  level : Level
  code : Code
  message : String
  span : Option Span := none
  context : Context := []
  time : Int := 0
deriving DecidableEq

namespace Context

def insert (key value : String) : Context → Context
  | [] => [(key, value)]
  | (other, old) :: context =>
      if key < other then (key, value) :: (other, old) :: context
      else if key = other then (key, value) :: context
      else (other, old) :: insert key value context

def ofList (details : List (String × String)) : Context :=
  details.foldl (fun context (key, value) => insert key value context) []

end Context

namespace Event

def error (code : Code) (message : String) : Event := { level := .error, code, message }

def success (code : Code) (message : String) : Event := { level := .info, code, message }

def warning (message : String) : Event := { level := .warning, code := Code.warning, message }

def info (message : String) : Event := { level := .info, code := Code.info, message }

def debug (message : String) : Event := { level := .debug, code := Code.debug, message }

def withSpan (event : Event) (span : Span) : Event := { event with span := some span }

def withContext (event : Event) (details : List (String × String)) : Event :=
  { event with
    context := details.foldl (fun context (key, value) => context.insert key value) event.context }

def isError (event : Event) : Bool := event.level == .error

def isWarning (event : Event) : Bool := event.level == .warning

def line (event : Event) : String :=
  let place := event.span.elim "" fun span => " at " ++ span.start.text
  let head := "[" ++ event.level.text ++ "] " ++ event.code ++ " - " ++ event.message ++ place
  event.context.foldl (fun out (key, value) => out ++ " " ++ key ++ "=" ++ value) head

/-- The JSON object. A time before the epoch is written as the epoch. -/
def toJson (event : Event) : Json.Value :=
  let base := [
    ("timestamp", .num event.time.toNat),
    ("level", .str event.level.text),
    ("code", .str event.code),
    ("message", .str event.message),
    ("category", .str event.code.category),
    ("severity", .str event.code.severity.name)]
  let metadata := if event.isError then
      [("error_metadata", .obj [
        ("recoverable", .bool event.code.isRecoverable),
        ("requires_halt", .bool event.code.halts),
        ("description", .str event.code.description),
        ("recommended_action", .str event.code.advice)])]
    else []
  let place := event.span.elim [] fun span =>
      [("span", .obj [
        ("start_offset", .num span.start.offset),
        ("end_offset", .num span.stop.offset),
        ("start_line", .num span.start.line),
        ("start_column", .num span.start.column)])]
  let details := if event.context.isEmpty then []
    else [("context", .obj (event.context.map fun (key, value) => (key, .str value)))]
  (Json.Value.obj (base ++ metadata ++ place ++ details)).sorted

def jsonLine (event : Event) : String := event.toJson.compact

end Event
end ExprLex.Log
