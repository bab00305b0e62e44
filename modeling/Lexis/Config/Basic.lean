/-
This file defines the settings that a configuration file can make, and reads them from
its text. Each setting has a default, so every part of the file can be left out; a
setting with a value that makes no sense for it is refused.
-/

import Lexis.Dump.Basic
import Lexis.Session.Basic
import Lexis.Toml.Document
import Lexis.Toml.View

namespace Lexis

/-- The settings of a run. -/
structure Config where
  mode : PositionMode
  format : DumpFormat
  /-- How many sources are read at a time. -/
  jobs : Nat
  deriving DecidableEq, Repr

/-- Why there are no settings to be had from a file. -/
inductive Config.Problem where
  | missing (path : String)
  /-- The text is malformed, or a setting has a value of the wrong sort. -/
  | unparsable (detail : String)
  | noJobs
  deriving DecidableEq, Repr

namespace Config

/-- The settings of an empty file: as many jobs as there are processors. -/
def default (processors : Nat) : Config := ⟨.columnOnly, .text, processors⟩

def Problem.message : Problem → String
  | .missing path => "Configuration file not found: " ++ path
  | .unparsable detail => "Failed to parse configuration: " ++ detail
  | .noJobs => "driver.jobs must be at least 1"

/-! ### Reading -/

/-- The detail for a setting that holds something else than expected. -/
def unexpected (setting : String) : Problem := .unparsable ("unexpected value for " ++ setting)

/-- Reads a setting, or takes its default if it is left out. -/
def setting {α : Type} (name : String) (read : Toml.Node → Option α) (default : α) :
    Option Toml.Node → Except Problem α
  | none => .ok default
  | some node =>
    match read node with
    | some value => .ok value
    | none => .error (unexpected name)

/-- Reads a group that has one setting. -/
def group {α : Type} (groupName name : String) (read : Toml.Node → Option α) (default : α) :
    Option Toml.Node → Except Problem α
  | none => .ok default
  | some node =>
    match node.settings? [name] with
    | some found => setting (groupName ++ "." ++ name) read default found.head?.join
    | none => .error (unexpected groupName)

/-- The settings of a configuration text. -/
def ofText (processors : Nat) (text : String) : Except Problem Config := do
  match Toml.parse text with
  | .error problem => .error (.unparsable problem.message)
  | .ok entries =>
    let mode ← group "lexer" "position_mode" (fun node => node.choice? >>= PositionMode.ofName?)
      .columnOnly (entries.lookup "lexer")
    let format ← group "output" "format" (fun node => node.choice? >>= DumpFormat.ofName?)
      .text (entries.lookup "output")
    let jobs ← group "driver" "jobs" (·.natural? UInt32.size) processors (entries.lookup "driver")
    return ⟨mode, format, jobs⟩

example : ofText 4 "[driver]\njobs = 0x10\n" = .ok ⟨.columnOnly, .text, 16⟩ := by cbv

/-! ### Use -/

/-- Refuses settings that can be read but not used. -/
def validate (config : Config) : Except Problem Unit :=
  if config.jobs = 0 then .error .noJobs else .ok ()

/-- The session that the settings ask for. -/
def sessionOptions (config : Config) : SessionOptions := ⟨config.mode, max config.jobs 1⟩

end Config

end Lexis
