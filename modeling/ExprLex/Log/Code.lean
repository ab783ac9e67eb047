namespace ExprLex.Log

inductive Severity where
  | critical
  | high
  | medium
  | low
deriving DecidableEq

abbrev Code := String

structure Entry where
  code : Code
  category : String
  severity : Severity
  recoverable : Bool
  halts : Bool
  description : String
  advice : String

namespace Severity

def name : Severity → String
  | .critical => "Critical"
  | .high => "High"
  | .medium => "Medium"
  | .low => "Low"

end Severity

namespace Code

def warning : Code := "W000"

def info : Code := "I000"

def debug : Code := "D000"

def logReady : Code := "I004"

def fileLoaded : Code := "I006"

def scanComplete : Code := "I020"

def fileNotFound : Code := "E005"

def fileTooLarge : Code := "E007"

def permissionDenied : Code := "E009"

def invalidEncoding : Code := "E010"

def unreadable : Code := "E011"

def unrecognizedCharacter : Code := "E020"

def unterminatedString : Code := "E021"

def malformedNumber : Code := "E022"

def identifierTooLong : Code := "E023"

def stringTooLarge : Code := "E024"

def sourceTooLarge : Code := "E026"

def tooManyTokens : Code := "E027"

def unexpectedToken : Code := "E050"

def unexpectedEnd : Code := "E051"

def entries : List Entry := [
  ⟨"ERR001", "System", .critical, false, true, "Internal lexer error",
    "File a bug report with the offending expression"⟩,
  ⟨"ERR002", "System", .critical, false, true, "Logging or configuration initialization failure",
    "Check SPEL_* environment variables"⟩,
  ⟨"E005", "Source", .medium, false, true, "Expression file not found",
    "Check the path passed with --file"⟩,
  ⟨"E007", "Source", .medium, false, true, "Expression file exceeds the source length limit",
    "Split the expression or raise max_source_length"⟩,
  ⟨"E009", "Source", .medium, false, true, "Permission denied reading expression file",
    "Check file permissions"⟩,
  ⟨"E010", "Source", .medium, false, true, "Expression file is not valid UTF-8",
    "Re-encode the file as UTF-8"⟩,
  ⟨"E011", "Source", .medium, false, true, "I/O error while reading expression file",
    "Check disk and file system state"⟩,
  ⟨"E020", "Lexical", .medium, false, true, "Character cannot start any token",
    "Remove the character or quote it inside a string literal"⟩,
  ⟨"E021", "Lexical", .medium, false, true, "String literal not terminated before end of input",
    "Add the closing quote"⟩,
  ⟨"E022", "Lexical", .low, false, true, "Numeric literal is incomplete or malformed",
    "Complete the fraction, exponent, or hex digits"⟩,
  ⟨"E023", "Lexical", .low, false, true, "Identifier exceeds maximum allowed length",
    "Shorten the identifier or raise max_identifier_length"⟩,
  ⟨"E024", "Lexical", .medium, false, true, "String literal exceeds maximum size limit",
    "Shorten the literal or raise max_string_literal_size"⟩,
  ⟨"E026", "Lexical", .high, false, true, "Expression text exceeds maximum source length",
    "Split the expression or raise max_source_length"⟩,
  ⟨"E027", "Lexical", .high, false, true, "Expression produced too many tokens",
    "Simplify the expression or raise max_token_count"⟩,
  ⟨"E050", "Stream", .medium, true, false, "Token stream held a different token than expected",
    "Check the expression near the reported position"⟩,
  ⟨"E051", "Stream", .medium, true, false, "Token stream ended before an expected token",
    "Complete the expression"⟩]

def known? (code : Code) : Option Entry := entries.find? fun entry => entry.code == code

def severity (code : Code) : Severity := (known? code).elim .medium (·.severity)

def isRecoverable (code : Code) : Bool := (known? code).elim true (·.recoverable)

def halts (code : Code) : Bool := (known? code).elim false (·.halts)

def description (code : Code) : String := (known? code).elim "Unknown error" (·.description)

def advice (code : Code) : String := (known? code).elim "No specific action available" (·.advice)

def category (code : Code) : String := (known? code).elim "Unknown" (·.category)

end Code
end ExprLex.Log
