import ExprLex.Limits
import ExprLex.Log.Level

namespace ExprLex

abbrev Environment := String → Option String

/-- How one scan behaves. None of these changes the tokens. -/
structure Preferences where
  detailedMetrics : Bool := true
  trackOperators : Bool := false
  positionsInErrors : Bool := true
  logTokens : Bool := false
deriving DecidableEq

structure LogSettings where
  structured : Bool := false
  console : Bool := false
  minLevel : Log.Level := .info
deriving DecidableEq

structure Settings where
  lexical : Preferences := {}
  logging : LogSettings := {}
deriving DecidableEq

namespace Environment

def names : List String := [
  "SPEL_LEXICAL_DETAILED_METRICS", "SPEL_LEXICAL_TRACK_OPERATORS",
  "SPEL_LEXICAL_INCLUDE_POSITIONS", "SPEL_LEXICAL_LOG_TOKENS", "SPEL_LOGGING_USE_STRUCTURED",
  "SPEL_LOGGING_ENABLE_CONSOLE", "SPEL_LOGGING_MIN_LEVEL"]

def ofList (entries : List (String × String)) : Environment := fun name => entries.lookup name

def switch (environment : Environment) (name : String) (default : Bool) : Bool :=
  match environment name with
  | some "true" => true
  | some "false" => false
  | _ => default

end Environment

namespace Preferences

def ofEnvironment (environment : Environment) : Preferences where
  detailedMetrics := environment.switch "SPEL_LEXICAL_DETAILED_METRICS" true
  trackOperators := environment.switch "SPEL_LEXICAL_TRACK_OPERATORS" false
  positionsInErrors := environment.switch "SPEL_LEXICAL_INCLUDE_POSITIONS" true
  logTokens := environment.switch "SPEL_LEXICAL_LOG_TOKENS" false

end Preferences

namespace LogSettings

def ofEnvironment (environment : Environment) : LogSettings where
  structured := environment.switch "SPEL_LOGGING_USE_STRUCTURED" false
  console := environment.switch "SPEL_LOGGING_ENABLE_CONSOLE" false
  minLevel := ((environment "SPEL_LOGGING_MIN_LEVEL").bind Log.Level.ofSetting?).getD .info

def summary (settings : LogSettings) (limits : Limits) : String :=
  let switch (b : Bool) : String := if b then "true" else "false"
  "Logging configuration (" ++ limits.profile ++ "):\n" ++
  "  min level: " ++ settings.minLevel.text ++ "\n" ++
  "  structured: " ++ switch settings.structured ++ "\n" ++
  "  console: " ++ switch settings.console ++ "\n" ++
  "  buffer size: " ++ toString limits.logEvents ++ "\n" ++
  "  max message length: " ++ toString limits.messageBytes ++ "\n"

end LogSettings

namespace Settings

def ofEnvironment (environment : Environment) : Settings :=
  ⟨.ofEnvironment environment, .ofEnvironment environment⟩

end Settings
end ExprLex
