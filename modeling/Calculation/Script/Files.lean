/-!
The files that a script can be read from.

Files and folders are known by the names on the way from the root to them.  A path is followed name
by name, from the root if it begins with `/` and from the working folder if it does not.  The first
name that leads nowhere decides why nothing can be read, so a path that only passes through a
missing folder is missing too, even if `..` leads out of it again.
-/

namespace Calculation.Script

/-- Why a script cannot be read. -/
inductive Unreadable where
  | missing
  | isDirectory
  | notDirectory
  | nameTooLong
  | permission
  | notText
  | other (message : String)
deriving DecidableEq

/-- Why a script cannot be read, as the system says it. -/
def Unreadable.message : Unreadable → String
  | missing => "No such file or directory (os error 2)"
  | isDirectory => "Is a directory (os error 21)"
  | notDirectory => "Not a directory (os error 20)"
  | nameTooLong => "File name too long (os error 36)"
  | permission => "Permission denied (os error 13)"
  | notText => "stream did not contain valid UTF-8"
  | other message => message

/-- Files and folders, each with the names on the way to it. -/
structure Files where
  /-- The folder from which a path is followed that does not begin at the root. -/
  working : List String
  contents : List (List String × ByteArray)
  /-- Folders that are there even if they hold none of the files. -/
  folders : List (List String)

namespace Files

def nameLimit : Nat := 255

def pathLimit : Nat := 4095

def file? (files : Files) (names : List String) : Option ByteArray :=
  (files.contents.find? (·.1 == names)).map (·.2)

/-- Whether the names lead to a folder: whatever lies on the way to a file or to another folder is
one. -/
def isFolder (files : Files) (names : List String) : Bool :=
  (files.file? names).isNone &&
    (files.working :: files.folders ++ files.contents.map (·.1)).any names.isPrefixOf

/-- The names from the root to where the path leads that starts at `place`.  More names after that
of a file lead nowhere, empty ones included. -/
def follow (files : Files) (place : List String) : List String → Except Unreadable (List String)
  | [] => .ok place
  | name :: rest =>
    if !files.isFolder place then .error .notDirectory
    else if name == "" || name == "." then files.follow place rest
    else if name == ".." then files.follow place.dropLast rest
    else if nameLimit < name.utf8ByteSize then .error .nameTooLong
    else
      let next := place ++ [name]
      if (files.file? next).isNone && !files.isFolder next then .error .missing
      else files.follow next rest

def read (files : Files) (path : String) : Except Unreadable ByteArray :=
  if path == "" then .error .missing
  else if pathLimit < path.utf8ByteSize then .error .nameTooLong
  else
    let start := if path.startsWith "/" then [] else files.working
    match files.follow start (path.splitOn "/") with
    | .error reason => .error reason
    | .ok names =>
      match files.file? names with
      | some bytes => .ok bytes
      | none => .error .isDirectory

end Files

end Calculation.Script
