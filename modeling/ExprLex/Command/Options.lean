namespace ExprLex.Command

inductive Input where
  | expression (text : String)
  | file (path : String)
deriving DecidableEq

structure Options where
  raw : Bool
  json : Bool
  metrics : Bool
  input : Input
deriving DecidableEq

inductive UsageProblem where
  | missingPath
  | unknownOption (option : String)
  | noInput
deriving DecidableEq

structure Draft where
  raw : Bool := false
  json : Bool := false
  metrics : Bool := false
  input : Option Input := none
deriving DecidableEq

namespace UsageProblem

def message : UsageProblem → String
  | .missingPath => "--file requires a path"
  | .unknownOption option => "unknown option: " ++ option
  | .noInput => "no expression or --file given"

end UsageProblem

def isOption (argument : String) : Bool := ['-', '-'].isPrefixOf argument.toList

namespace Draft

/-- Reads the arguments that are left. `--file` takes the next argument as a path and `--` takes it
as an expression, whatever it looks like. -/
def read (draft : Draft) : List String → Except UsageProblem Draft
  | [] => .ok draft
  | argument :: arguments =>
      if argument = "--raw" then { draft with raw := true }.read arguments
      else if argument = "--json" then { draft with json := true }.read arguments
      else if argument = "--metrics" then { draft with metrics := true }.read arguments
      else if argument = "--file" then
        match arguments with
        | [] => .error .missingPath
        | path :: rest => { draft with input := some (.file path) }.read rest
      else if argument = "--" then
        match arguments with
        | [] => .ok draft
        | text :: rest => { draft with input := some (.expression text) }.read rest
      else if isOption argument then .error (.unknownOption argument)
      else { draft with input := some (.expression argument) }.read arguments

end Draft

namespace Options

def ofArguments (arguments : List String) : Except UsageProblem Options := do
  let draft ← ({} : Draft).read arguments
  match draft.input with
  | some input => return ⟨draft.raw, draft.json, draft.metrics, input⟩
  | none => throw .noInput

end Options
end ExprLex.Command
