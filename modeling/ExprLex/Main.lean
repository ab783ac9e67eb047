import ExprLex.Command.Run
import Std.Time.DateTime.Timestamp

namespace ExprLex.Command

/-- The number of an error of this machine, which some calls give with a minus sign. -/
def errorNumber (code : UInt32) : Nat := min code.toNat (0 - code).toNat

def obstacleOf : IO.Error → Obstacle
  | .noFileOrDirectory .. => .missing
  | .permissionDenied .. => .forbidden
  | .inappropriateType _ code details | .invalidArgument _ code details
  | .resourceExhausted _ code details =>
      match errorNumber code with
      | 20 => .notAFolder
      | 21 => .isAFolder
      | 36 => .nameTooLong
      | number => .other (details ++ " (os error " ++ toString number ++ ")")
  | error => .other (toString error)

def readFromDisk (path : String) : IO (Except Obstacle ByteArray) := do
  try
    return .ok (← IO.FS.readBinFile path)
  catch error =>
    return .error (obstacleOf error)

def readEnvironment : IO Environment := do
  let entries ← Environment.names.filterMapM fun name => do
    return (← IO.getEnv name).map fun value => (name, value)
  return .ofList entries

def runOnDisk (arguments : List String) : IO UInt32 := do
  let contents ← match Options.ofArguments arguments with
    | .ok { input := .file path, .. } => readFromDisk path
    | _ => pure (.error .missing)
  let surroundings : Surroundings := {
    program := "spel-lex"
    limits := .development
    environment := ← readEnvironment
    read := fun _ => contents
    now := (← Std.Time.Timestamp.now).toSecondsSinceUnixEpoch.val }
  match run surroundings arguments with
  | .ok outcome =>
      IO.print outcome.stdout
      IO.eprint outcome.stderr
      return outcome.exit.toUInt32
  | .error _ => return 101

end ExprLex.Command

def main (arguments : List String) : IO UInt32 := ExprLex.Command.runOnDisk arguments
