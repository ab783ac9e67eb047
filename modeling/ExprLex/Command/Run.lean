import ExprLex.Command.Options
import ExprLex.Command.Report
import ExprLex.Log.Service
import ExprLex.Scan.Scanner
import ExprLex.Settings
import ExprLex.SourceFile.Load

namespace ExprLex.Command

structure Surroundings where
  program : String
  limits : Limits
  environment : Environment
  read : String → Except Obstacle ByteArray
  now : Int := 0

structure Outcome where
  exit : Nat
  stdout : String := ""
  stderr : String := ""
deriving DecidableEq

namespace Surroundings

def logText (surroundings : Surroundings) (settings : LogSettings) (events : List Log.Event) :
    String :=
  let gate : Log.Gate := ⟨settings.minLevel, surroundings.limits.messageBytes⟩
  events.foldl (fun out event =>
    match gate.pass { event with time := surroundings.now } with
    | some accepted =>
        out ++ (if settings.structured then accepted.jsonLine else accepted.line) ++ "\n"
    | none => out) ""

end Surroundings

def readyEvent : Log.Event :=
  Log.Event.success Log.Code.logReady "Global logging system initialized"

def tokenizedEvent (metrics : Metrics) (source : String) : Log.Event :=
  (Log.Event.info "Expression tokenized").withContext [
    ("tokens", toString metrics.total),
    ("source_bytes", toString source.utf8ByteSize)]

def sourceText (surroundings : Surroundings) :
    Input → Except LoadProblem String × List Log.Event
  | .expression text => (.ok text, [])
  | .file path => SourceFile.load surroundings.limits surroundings.read path

def output (options : Options) (tokens : List Token) (metrics : Metrics) : String :=
  let listed := if options.raw then tokens else tokens.filter fun token => !token.isHidden
  if options.json then jsonText listed (if options.metrics then some metrics else none)
  else table listed ++ (if options.metrics then metricsBlock metrics else "")

def execute (surroundings : Surroundings) (options : Options) : Except Fault Outcome := do
  let settings := Settings.ofEnvironment surroundings.environment
  let logged (events : List Log.Event) : String :=
    if settings.logging.console then surroundings.logText settings.logging (readyEvent :: events)
    else ""
  match sourceText surroundings options.input with
  | (.error problem, loading) =>
      return { exit := 1, stderr := logged loading ++ "Error: " ++ problem.detail ++ "\n" }
  | (.ok source, loading) =>
      let (result, scanner) ← tokenizeAll surroundings.limits settings.lexical source
      match result with
      | .error problem =>
          return { exit := 1
                   stderr := logged (loading ++ scanner.events) ++ (← problemText source problem) }
      | .ok tokens =>
          let done := tokenizedEvent scanner.metrics source
          return { exit := 0
                   stdout := output options tokens scanner.metrics
                   stderr := logged (loading ++ scanner.events ++ [done]) }

def run (surroundings : Surroundings) (arguments : List String) : Except Fault Outcome :=
  match arguments with
  | [] => return { exit := 1, stderr := usage surroundings.program }
  | first :: _ =>
      if first = "--help" then return { exit := 0, stdout := help surroundings.program }
      else match Options.ofArguments arguments with
        | .error problem =>
            return { exit := 2
                     stderr := "Error: " ++ problem.message ++ "\nRun '" ++ surroundings.program
                       ++ " --help' for usage\n" }
        | .ok options => execute surroundings options

end ExprLex.Command
