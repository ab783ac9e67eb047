namespace ExprLex.Log

inductive Level where
  | error
  | warning
  | info
  | debug
deriving DecidableEq

namespace Level

def all : List Level := [.error, .warning, .info, .debug]

def rank : Level → Nat
  | .error => 0
  | .warning => 1
  | .info => 2
  | .debug => 3

def text : Level → String
  | .error => "ERROR"
  | .warning => "WARN"
  | .info => "INFO"
  | .debug => "DEBUG"

def name : Level → String
  | .error => "Error"
  | .warning => "Warning"
  | .info => "Info"
  | .debug => "Debug"

/-- Reads a level from a setting, in any case, or from its rank. No letter of another script has
one of the letters of these words as its lower case, so lower case of ASCII is enough. -/
def ofSetting? (setting : String) : Option Level :=
  match setting.toLower with
  | "error" | "0" => some .error
  | "warning" | "warn" | "1" => some .warning
  | "info" | "2" => some .info
  | "debug" | "3" => some .debug
  | _ => none

end Level
end ExprLex.Log
