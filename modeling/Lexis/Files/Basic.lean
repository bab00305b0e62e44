/-
This file says what the program needs of a file system: the bytes behind a path, or
the reason why there are none. A path exists when its reason, if any, is one that only
an existing file can give.
-/

namespace Lexis

/-- Why a file cannot be read. -/
inductive FileError where
  | notFound
  | notDirectory
  | isDirectory
  | denied
  /-- The path, or a name in it, is longer than any that exists. -/
  | tooLong
  /-- The path holds the character that marks the end of one. -/
  | endMark
  deriving DecidableEq, Repr

namespace FileError

/-- The number that the operating system has for the reason. A path with the mark in it
is never shown to the system, so there is none. -/
def number? : FileError → Option Nat
  | .notFound => some 2
  | .denied => some 13
  | .notDirectory => some 20
  | .isDirectory => some 21
  | .tooLong => some 36
  | .endMark => none

def reason : FileError → String
  | .notFound => "No such file or directory"
  | .denied => "Permission denied"
  | .notDirectory => "Not a directory"
  | .isDirectory => "Is a directory"
  | .tooLong => "File name too long"
  | .endMark => "file name contained an unexpected NUL byte"

/-- The reason with its number, as users are used to read it. -/
def message (error : FileError) : String :=
  match error.number? with
  | some number => error.reason ++ " (os error " ++ toString number ++ ")"
  | none => error.reason

end FileError

/-- The files that a program can read, by the paths under which it asks for them. -/
structure FileSystem where
  read : String → Except FileError (List UInt8)

namespace FileSystem

/-- Whether there is a file or directory of that path. -/
def hasPath (files : FileSystem) (path : String) : Bool :=
  match files.read path with
  | .ok _ | .error .isDirectory | .error .denied => true
  | .error .notFound | .error .notDirectory | .error .tooLong | .error .endMark => false

/-- A file system of which only the answers for some paths are known; all others are
taken to name nothing. -/
def ofAnswers (answers : List (String × Except FileError (List UInt8))) : FileSystem where
  read path := (answers.lookup path).getD (.error .notFound)

end FileSystem

end Lexis
