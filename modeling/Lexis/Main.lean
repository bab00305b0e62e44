/-
This file is the program. It asks the system for the variables and files that the run
may need, runs, and prints.
-/

import Lexis.Run

namespace Lexis.Program

/-- The variables that a run looks at. -/
def variableNames : List String :=
  ["USC_VERBOSE", "USC_CONFIG", "USC_NO_COLOR", "HOME", "XDG_CONFIG_HOME"]

def readEnvironment : IO Environment := do
  let found ← variableNames.filterMapM fun name => do
    return (← IO.getEnv name).map fun value => (name, value)
  return ⟨found⟩

/-- The reason behind a failure of the system to read a file. -/
def fileError : IO.Error → FileError
  | .noFileOrDirectory .. => .notFound
  | .inappropriateType _ number _ =>
    if number = 21 then .isDirectory else .notDirectory
  | .invalidArgument _ number _ => if number = 36 then .tooLong else .endMark
  | _ => .denied

def readFile (path : String) : IO (Except FileError (List UInt8)) := do
  try
    let content ← IO.FS.readBinFile path
    return .ok content.toList
  catch error => return .error (fileError error)

/-- The number of jobs when nothing else is said. Sources are read one after the other,
so it shows nowhere. -/
def processors : Nat := 4

end Lexis.Program

open Lexis in
def main (arguments : List String) : IO UInt32 := do
  let environment ← Program.readEnvironment
  let answers ← (Run.paths environment arguments).mapM fun path => do
    return (path, ← Program.readFile path)
  let outcome := Run.run (.ofAnswers answers) environment Program.processors arguments
  IO.print outcome.output
  IO.eprint outcome.errors
  return outcome.code.toUInt32
