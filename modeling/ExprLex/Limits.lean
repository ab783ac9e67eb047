namespace ExprLex

/-- The bounds one build of the program works under. Sizes of text are in bytes, identifiers in
characters. -/
structure Limits where
  profile : String
  sourceBytes : Nat
  tokens : Nat
  stringBytes : Nat
  identifierChars : Nat
  logEvents : Nat
  messageBytes : Nat
deriving DecidableEq

namespace Limits

def development : Limits where
  profile := "development"
  sourceBytes := 1048576
  tokens := 1000000
  stringBytes := 262144
  identifierChars := 1024
  logEvents := 10000
  messageBytes := 4096

def production : Limits where
  profile := "production"
  sourceBytes := 262144
  tokens := 100000
  stringBytes := 65536
  identifierChars := 255
  logEvents := 1000
  messageBytes := 1024

def folder : String := "config"

def provenance (limits : Limits) : String :=
  "Generated from " ++ folder ++ "/" ++ limits.profile ++ ".toml"

def logIsUsable (limits : Limits) : Bool :=
  limits.logEvents != 0 && 16 ≤ limits.messageBytes

end Limits
end ExprLex
