/-
This file is a file system held in memory. It knows each file and each empty directory
by the names that lead to it from the root; a directory that holds something needs no
entry of its own. Paths are followed name by name, and every name but the last must
lead to a directory, also where the next name is a dot or leads back up. Names and
paths have a greatest length in bytes; the length of a path is looked at first, that of
a name only when it is looked up.
-/

import Lexis.Files.Basic

namespace Lexis

/-- What a path can lead to. -/
inductive FileNode where
  | file (content : List UInt8)
  | directory
  deriving DecidableEq, Repr

/-- A tree of files with a working directory, both as names from the root. -/
structure FileTree where
  entries : List (List String × FileNode)
  workingDirectory : List String
  deriving DecidableEq, Repr

namespace FileTree

/-- Whether the first names lead to a directory above the second. -/
def isAbove (directory path : List String) : Bool :=
  directory.length < path.length && path.take directory.length = directory

/-- What is at the end of a list of names. The root and the working directory are
always there. -/
def node? (tree : FileTree) (path : List String) : Option FileNode :=
  match tree.entries.lookup path with
  | some node => some node
  | none =>
    if path.isEmpty || path = tree.workingDirectory || isAbove path tree.workingDirectory ||
        tree.entries.any (isAbove path ·.1) then some .directory
    else none

/-- How many bytes a name may have. -/
def nameLimit : Nat := 255

/-- How many bytes a path may have. -/
def pathLimit : Nat := 4095

/-- Follows names from a place in the tree. An empty name comes from a slash at the end
of a path or from two slashes in a row, and leads nowhere else, like a dot. -/
def walk (tree : FileTree) (place : List String) : List String → Except FileError FileNode
  | [] =>
    match tree.node? place with
    | some node => .ok node
    | none => .error .notFound
  | name :: rest =>
    match tree.node? place with
    | none => .error .notFound
    | some (.file _) => .error .notDirectory
    | some .directory =>
      if name = "" || name = "." then tree.walk place rest
      else if name = ".." then tree.walk place.dropLast rest
      else if nameLimit < name.utf8ByteSize then .error .tooLong
      else tree.walk (place ++ [name]) rest

/-- The node behind a path, which starts at the root if it begins with a slash. -/
def resolve (tree : FileTree) (path : String) : Except FileError FileNode :=
  if path.toList.contains '\x00' then .error .endMark
  else if path.isEmpty then .error .notFound
  else if pathLimit < path.utf8ByteSize then .error .tooLong
  else
    let names := (path.toList.splitOn '/').map String.ofList
    if path.front = '/' then tree.walk [] names
    else tree.walk tree.workingDirectory names

/-- The tree as a file system. -/
def fileSystem (tree : FileTree) : FileSystem where
  read path :=
    match tree.resolve path with
    | .ok (.file content) => .ok content
    | .ok .directory => .error .isDirectory
    | .error error => .error error

example : (⟨[(["work", "a"], .file [])], ["work"]⟩ : FileTree).resolve "a/." =
    .error .notDirectory := by cbv
example : (⟨[], []⟩ : FileTree).resolve "a\x00b" = .error .endMark := by cbv

end FileTree

end Lexis
