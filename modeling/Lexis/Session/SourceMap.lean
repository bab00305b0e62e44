/-
This file keeps the sources of a run. Each gets a number in the order in which it was
added, and keeps it: adding another source changes no earlier one.
-/

namespace Lexis

/-- A source with the name under which it was asked for. -/
structure SourceFile where
  name : String
  content : List UInt8
  deriving DecidableEq, Repr

/-- The sources of a run, in the order in which they were added. -/
structure SourceMap where
  files : List SourceFile
  deriving DecidableEq, Repr

namespace SourceMap

def empty : SourceMap := ⟨[]⟩

/-- Adds a source and tells its number. -/
def add (sources : SourceMap) (file : SourceFile) : Nat × SourceMap :=
  (sources.files.length, ⟨sources.files ++ [file]⟩)

def get? (sources : SourceMap) (number : Nat) : Option SourceFile := sources.files[number]?

/-- The name of a source; a number that was never given out has a stand-in. -/
def name (sources : SourceMap) (number : Nat) : String :=
  match sources.get? number with
  | some file => file.name
  | none => "<unknown>"

end SourceMap

end Lexis
