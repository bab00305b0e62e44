/-
This file defines what a command line can ask for: the options with their names, the
arguments as a run uses them, and what can be wrong with them. An option is either a
flag or takes a value; none may be given twice.
-/

import Lexis.Dump.Basic

namespace Lexis

/-- What a command line asks for. -/
structure Arguments where
  verbose : Bool := false
  config : Option String := none
  noColor : Bool := false
  lineColumn : Bool := false
  format : Option DumpFormat := none
  quiet : Bool := false
  jobs : Option Nat := none
  files : List String := []
  deriving DecidableEq, Repr

namespace Arguments

/-- What is wrong with a command line. -/
inductive Mistake where
  | unknownOption (option : String)
  | repeatedOption (option : String)
  | missingValue (option : String)
  | unexpectedValue (option : String)
  | badValue (option value : String)
  | emptyFile
  | noFile
  deriving DecidableEq, Repr

def Mistake.message : Mistake → String
  | .unknownOption option => "unexpected argument '" ++ option ++ "' found"
  | .repeatedOption option => "the argument '" ++ option ++ "' cannot be used multiple times"
  | .missingValue option => "a value is required for '" ++ option ++ "' but none was supplied"
  | .unexpectedValue option =>
    "unexpected value for '" ++ option ++ "' found; no more were expected"
  | .badValue option value => "invalid value '" ++ value ++ "' for '" ++ option ++ "'"
  | .emptyFile => "a value is required for '<FILE.us>...' but none was supplied"
  | .noFile => "the following required arguments were not provided: <FILE.us>..."

/-- Why reading the arguments ends before all are read. -/
inductive Stop where
  | help
  | version
  | mistake (mistake : Mistake)
  deriving DecidableEq, Repr

/-! ### The options -/

inductive Flag where
  | verbose | noColor | lineColumn | quiet | help | version
  deriving DecidableEq, Repr

/-- The options that take a value. -/
inductive Setting where
  | config | format | jobs
  deriving DecidableEq, Repr

def Flag.long : Flag → String
  | .verbose => "--verbose"
  | .noColor => "--no-color"
  | .lineColumn => "--line-column"
  | .quiet => "--quiet"
  | .help => "--help"
  | .version => "--version"

def Setting.long : Setting → String
  | .config => "--config"
  | .format => "--format"
  | .jobs => "--jobs"

/-- An option of either sort. -/
inductive Choice where
  | flag (flag : Flag)
  | setting (setting : Setting)
  deriving DecidableEq, Repr

/-- The option with a long name, written with its dashes. -/
def Choice.ofLong? (name : String) : Option Choice :=
  match [Flag.verbose, .noColor, .lineColumn, .quiet, .help, .version].find? (·.long = name) with
  | some found => some (.flag found)
  | none => ([Setting.config, .format, .jobs].find? (·.long = name)).map .setting

/-- The option with a short name. -/
def Choice.ofShort? : Char → Option Choice
  | 'v' => some (.flag .verbose)
  | 'q' => some (.flag .quiet)
  | 'h' => some (.flag .help)
  | 'V' => some (.flag .version)
  | 'c' => some (.setting .config)
  | 'j' => some (.setting .jobs)
  | _ => none

end Arguments

end Lexis
