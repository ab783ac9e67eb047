namespace ExprLex

inductive Obstacle where
  | missing
  | forbidden
  | other (message : String)
deriving DecidableEq

structure Folder where
  files : List (String × ByteArray) := []
  folders : List String := []

namespace Obstacle

def notAFolder : Obstacle := .other "Not a directory (os error 20)"

def isAFolder : Obstacle := .other "Is a directory (os error 21)"

def nameTooLong : Obstacle := .other "File name too long (os error 36)"

def zeroInName : Obstacle := .other "file name contained an unexpected NUL byte"

end Obstacle

namespace Folder

def pathBound : Nat := 4096

def nameLimit : Nat := 255

def parts (path : String) : List String :=
  (path.toList.splitOn '/').map String.ofList

def names (path : String) : List String := (parts path).filter fun part => part != "" && part != "."

inductive Place where
  | inside (names : List String)
  /-- Above the folder or elsewhere, where nothing is known but that folders are there. -/
  | outside
  | file (contents : ByteArray)

def isFolder (folder : Folder) (place : List String) : Bool :=
  folder.folders.any (fun listed => place.isPrefixOf (names listed)) ||
    folder.files.any fun (listed, _) => place.length < (names listed).length &&
      place.isPrefixOf (names listed)

def file? (folder : Folder) (place : List String) : Option ByteArray :=
  (folder.files.find? fun (listed, _) => names listed == place).map (·.2)

def enter (folder : Folder) (place : Place) (part : String) : Except Obstacle Place :=
  match place with
  | .file _ => .error .notAFolder
  | .outside =>
      if part = "" || part = "." || part = ".." then .ok .outside
      else if nameLimit < part.utf8ByteSize then .error .nameTooLong
      else .error .missing
  | .inside names =>
      if part = "" || part = "." then .ok place
      else if part = ".." then .ok (if names.isEmpty then .outside else .inside names.dropLast)
      else if nameLimit < part.utf8ByteSize then .error .nameTooLong
      else
        let target := names ++ [part]
        match folder.file? target with
        | some contents => .ok (.file contents)
        | none => if folder.isFolder target then .ok (.inside target) else .error .missing

def read (folder : Folder) (path : String) : Except Obstacle ByteArray := do
  if path.toList.contains '\x00' then throw .zeroInName
  if path = "" then throw .missing
  if pathBound ≤ path.utf8ByteSize then throw .nameTooLong
  let start := if path.toList.head? = some '/' then Place.outside else .inside []
  match ← (parts path).foldlM (enter folder) start with
  | .file contents => return contents
  | _ => throw .isAFolder

end Folder
end ExprLex
