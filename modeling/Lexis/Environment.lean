/-
This file defines the variables that a run finds set, and where configuration files are
looked for when none is named: in the working directory, in the user's home, and in the
directory that the platform has for configurations.
-/

namespace Lexis

/-- The variables that are set, with their values. -/
structure Environment where
  bindings : List (String × String)
  deriving DecidableEq, Repr

namespace Environment

def get? (environment : Environment) (name : String) : Option String :=
  environment.bindings.lookup name

/-- The home directory of the user. -/
def home? (environment : Environment) : Option String :=
  (environment.get? "HOME").filter (· ≠ "")

/-- A path below a directory. -/
def join (directory path : String) : String :=
  if directory.endsWith "/" then directory ++ path else directory ++ "/" ++ path

/-- The directory for configurations. A relative path says nothing and is ignored. -/
def configDirectory? (environment : Environment) : Option String :=
  match (environment.get? "XDG_CONFIG_HOME").filter (·.startsWith "/") with
  | some directory => some directory
  | none => environment.home?.map (join · ".config")

/-- Where configuration files are looked for, in this order. -/
def configPaths (environment : Environment) : List String :=
  "usc.toml" ::
    ((environment.home?.map (join · ".config/usc/usc.toml")).toList ++
      (environment.configDirectory?.map (join · "usc/usc.toml")).toList)

end Environment

end Lexis
