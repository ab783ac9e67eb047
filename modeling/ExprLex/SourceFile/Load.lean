import ExprLex.Limits
import ExprLex.Log.Event
import ExprLex.SourceFile.Folder
import ExprLex.Text.Blank
import ExprLex.Text.Layout
import ExprLex.Text.Quoted

namespace ExprLex

inductive LoadProblem where
  | notFound (path : String)
  | permissionDenied (path : String)
  | tooLarge (bytes limit : Nat)
  | invalidEncoding (path : String)
  | unreadable (path message : String)
deriving DecidableEq

namespace LoadProblem

def name : LoadProblem → String
  | .notFound _ => "NotFound"
  | .permissionDenied _ => "PermissionDenied"
  | .tooLarge _ _ => "TooLarge"
  | .invalidEncoding _ => "InvalidEncoding"
  | .unreadable _ _ => "Io"

def message : LoadProblem → String
  | .notFound path => "File not found: " ++ path
  | .permissionDenied path => "Permission denied: " ++ path
  | .tooLarge bytes limit =>
      "File too large: " ++ toString bytes ++ " bytes (max: " ++ toString limit ++ ")"
  | .invalidEncoding path => "Invalid UTF-8 encoding in file: " ++ path
  | .unreadable path message => "I/O error reading " ++ path ++ ": " ++ message

def code : LoadProblem → Log.Code
  | .notFound _ => Log.Code.fileNotFound
  | .permissionDenied _ => Log.Code.permissionDenied
  | .tooLarge _ _ => Log.Code.fileTooLarge
  | .invalidEncoding _ => Log.Code.invalidEncoding
  | .unreadable _ _ => Log.Code.unreadable

def detail (problem : LoadProblem) : String :=
  let fields := match problem with
    | .notFound path | .permissionDenied path | .invalidEncoding path =>
        "path: " ++ Text.quotedString path
    | .tooLarge bytes limit => "size: " ++ toString bytes ++ ", max_size: " ++ toString limit
    | .unreadable path message =>
        "path: " ++ Text.quotedString path ++ ", message: " ++ Text.quotedString message
  problem.name ++ " \x7b " ++ fields ++ " \x7d"

def ofObstacle (path : String) : Obstacle → LoadProblem
  | .missing => .notFound path
  | .forbidden => .permissionDenied path
  | .other message => .unreadable path message

end LoadProblem

namespace SourceFile

def decode (limits : Limits) (path : String) (contents : Except Obstacle ByteArray) :
    Except LoadProblem String :=
  match contents with
  | .error obstacle => .error (.ofObstacle path obstacle)
  | .ok bytes =>
      if limits.sourceBytes < bytes.size then .error (.tooLarge bytes.size limits.sourceBytes)
      else match String.fromUTF8? bytes with
        | some text => .ok text
        | none => .error (.invalidEncoding path)

def loadEvents (path : String) (result : Except LoadProblem String) : List Log.Event :=
  let file := ("file", path)
  let started := (Log.Event.debug "Loading expression file").withContext [file]
  match result with
  | .error problem =>
      [started, (Log.Event.error problem.code problem.message).withContext [file]]
  | .ok text =>
      let loaded := (Log.Event.success Log.Code.fileLoaded "Expression file loaded").withContext [
        file,
        ("size_bytes", toString text.utf8ByteSize),
        ("lines", toString (Text.lineCount text))]
      if Text.allBlank text then
        [started, loaded, (Log.Event.warning "Expression file has no content").withContext [file]]
      else [started, loaded]

def load (limits : Limits) (read : String → Except Obstacle ByteArray) (path : String) :
    Except LoadProblem String × List Log.Event :=
  let result := decode limits path (read path)
  (result, loadEvents path result)

end SourceFile
end ExprLex
