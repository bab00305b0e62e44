/-
This file loads the configuration of a run, from the file that is named or from the
first that is found where such files are looked for. A file that is named must be
there; if none is found, the defaults hold.
-/

import Lexis.Environment
import Lexis.Failure
import Lexis.Text.Utf8

namespace Lexis.Config

/-- Loads the configuration from a path. -/
def loadFrom (files : FileSystem) (processors : Nat) (path : String) :
    Except Failure Config :=
  if !files.hasPath path then .error (.config (.missing path))
  else
    match files.read path with
    | .error error => .error (.transfer (.file error))
    | .ok content =>
      match Text.decode? content with
      | none => .error (.transfer .notUtf8)
      | some text => do
        let config ← (ofText processors text).mapError Failure.config
        config.validate.mapError Failure.config
        return config

/-- Loads the configuration from where it is found. -/
def load (files : FileSystem) (environment : Environment) (processors : Nat) :
    Except Failure Config :=
  match environment.configPaths.find? files.hasPath with
  | some path => loadFrom files processors path
  | none => .ok (default processors)

end Lexis.Config
