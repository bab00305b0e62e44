/-
This file lists the failures that end a run. Errors in the sources are none of them:
those are reported and counted, and the run goes on.
-/

import Lexis.Config.Basic

namespace Lexis

/-- What was wrong with an input or output that is no source file. -/
inductive TransferError where
  | file (error : FileError)
  | notUtf8
  /-- The output has no room for more. -/
  | full
  deriving DecidableEq, Repr

def TransferError.message : TransferError → String
  | .file error => error.message
  | .notUtf8 => "stream did not contain valid UTF-8"
  | .full => Dump.overflowReason

/-- Why a run ended early. -/
inductive Failure where
  | config (problem : Config.Problem)
  | unreadable (source : Unreadable)
  | transfer (error : TransferError)
  /-- The failure came in the midst of the JSON text. -/
  | json (error : TransferError)
  deriving DecidableEq, Repr

namespace Failure

def message : Failure → String
  | .config problem => "Configuration error: " ++ problem.message
  | .unreadable source => "Failed to read " ++ source.path
  | .transfer error => "IO error: " ++ error.message
  | .json error => "JSON error: " ++ error.message

/-- What the failure came from, if that has a message of its own. -/
def cause? : Failure → Option String
  | .config _ => none
  | .unreadable source => some source.cause.message
  | .transfer error => some error.message
  | .json error => some error.message

/-- The message with its cause, on one line. -/
def fullMessage (failure : Failure) : String :=
  ": ".intercalate (failure.message :: failure.cause?.toList)

end Failure

/-- The failure of a full output. -/
def Dump.Overflow.failure : Dump.Overflow → Failure
  | .inText => .transfer .full
  | .inJson => .json .full

end Lexis
