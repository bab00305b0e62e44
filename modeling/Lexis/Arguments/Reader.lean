/-
This file reads the arguments of a command line. They are taken in order, and the first
thing that settles the matter wins: a request for help or for the version, or a mistake.
Short options may be written together behind one dash; an option with a value takes the
rest of its argument, or else the next one. Behind two dashes everything is a file.
What the arguments leave open, some variables may still set.
-/

import Lexis.Arguments.Basic
import Lexis.Environment

namespace Lexis.Arguments

/-! ### Taking options in -/

/-- Stops with a mistake. -/
def reject {α : Type} (mistake : Mistake) : Except Stop α := .error (.mistake mistake)

/-- Takes a flag in. No flag may be given twice. -/
def takeFlag (arguments : Arguments) : Flag → Except Stop Arguments
  | .help => .error .help
  | .version => .error .version
  | .verbose =>
    if arguments.verbose then reject (.repeatedOption Flag.verbose.long)
    else .ok { arguments with verbose := true }
  | .noColor =>
    if arguments.noColor then reject (.repeatedOption Flag.noColor.long)
    else .ok { arguments with noColor := true }
  | .lineColumn =>
    if arguments.lineColumn then reject (.repeatedOption Flag.lineColumn.long)
    else .ok { arguments with lineColumn := true }
  | .quiet =>
    if arguments.quiet then reject (.repeatedOption Flag.quiet.long)
    else .ok { arguments with quiet := true }

/-- A number of jobs: decimal digits, behind a plus or not, for a number from one up
that has 32 bits. -/
def jobCount? (value : String) : Option Nat :=
  let digits := match value.toList with
    | '+' :: digits => digits
    | digits => digits
  if digits.isEmpty || !digits.all Char.isDigit then none
  else
    let n := digits.foldl (fun n c => n * 10 + (c.toNat - '0'.toNat)) 0
    if 1 ≤ n && n < UInt32.size then some n else none

/-- Takes an option with its value in. No option may be given twice. -/
def takeSetting (arguments : Arguments) (setting : Setting) (value : String) :
    Except Stop Arguments :=
  match setting with
  | .config =>
    if arguments.config.isSome then reject (.repeatedOption setting.long)
    else if value.isEmpty then reject (.missingValue setting.long)
    else .ok { arguments with config := some value }
  | .format =>
    if arguments.format.isSome then reject (.repeatedOption setting.long)
    else
      match DumpFormat.ofName? value with
      | some format => .ok { arguments with format := some format }
      | none => reject (.badValue setting.long value)
  | .jobs =>
    if arguments.jobs.isSome then reject (.repeatedOption setting.long)
    else
      match jobCount? value with
      | some jobs => .ok { arguments with jobs := some jobs }
      | none => reject (.badValue setting.long value)

/-- Takes a file in. -/
def takeFile (arguments : Arguments) (path : String) : Except Stop Arguments :=
  if path.isEmpty then reject .emptyFile
  else .ok { arguments with files := arguments.files ++ [path] }

/-- What the arguments so far amount to: if the last one was an option whose value is
still to come, that option too. -/
abbrev Progress : Type := Arguments × Option Setting

/-- Takes in an option with a long name, given without its value or with it. -/
def takeLong (arguments : Arguments) (name : String) (value : Option String) :
    Except Stop Progress :=
  match Choice.ofLong? name, value with
  | none, _ => reject (.unknownOption name)
  | some (.flag flag), none => do return (← arguments.takeFlag flag, none)
  | some (.flag flag), some _ => reject (.unexpectedValue flag.long)
  | some (.setting setting), none => .ok (arguments, some setting)
  | some (.setting setting), some value => do
    return (← arguments.takeSetting setting value, none)

/-- Takes in the short options of one argument. An option with a value takes what is
left of the argument, without an equals sign in front. -/
def takeShort (arguments : Arguments) : List Char → Except Stop Progress
  | [] => .ok (arguments, none)
  | c :: rest =>
    match Choice.ofShort? c with
    | none => reject (.unknownOption (String.ofList ['-', c]))
    | some (.flag flag) => do (← arguments.takeFlag flag).takeShort rest
    | some (.setting setting) =>
      match rest with
      | [] => .ok (arguments, some setting)
      | '=' :: value => do return (← arguments.takeSetting setting (String.ofList value), none)
      | value => do return (← arguments.takeSetting setting (String.ofList value), none)

/-- Takes in an argument that is not the value of the one before. A dash alone is a
file. -/
def takeArgument (arguments : Arguments) (argument : String) : Except Stop Progress :=
  match argument.toList with
  | '-' :: '-' :: name =>
    let (name, value) := (name.takeWhile (· ≠ '='), name.dropWhile (· ≠ '='))
    arguments.takeLong ("--" ++ String.ofList name)
      (if value.isEmpty then none else some (String.ofList (value.drop 1)))
  | '-' :: c :: rest => arguments.takeShort (c :: rest)
  | _ => do return (← arguments.takeFile argument, none)

/-- Whether an argument can be the value of the option before it: it must not look like
an option itself. -/
def isValue (argument : String) : Bool :=
  argument = "-" || !argument.startsWith "-"

/-- Takes all arguments in, from the first on. -/
def takeAll : Progress → List String → Except Stop Arguments
  | (arguments, none), [] => .ok arguments
  | (_, some setting), [] => reject (.missingValue setting.long)
  | (arguments, some setting), argument :: rest =>
    if isValue argument then do takeAll (← arguments.takeSetting setting argument, none) rest
    else reject (.missingValue setting.long)
  | (arguments, none), argument :: rest =>
    if argument = "--" then rest.foldlM takeFile arguments
    else do takeAll (← arguments.takeArgument argument) rest

/-! ### Variables -/

/-- The value of a variable for a flag, which must be one of the two truth values. -/
def flagVariable (environment : Environment) (flag : Flag) (name : String) :
    Except Stop Bool :=
  match environment.get? name with
  | none => .ok false
  | some "true" => .ok true
  | some "false" => .ok false
  | some value => reject (.badValue flag.long value)

/-- Sets from variables what no argument has set. A variable whose option was given is
not looked at. -/
def withVariables (arguments : Arguments) (environment : Environment) :
    Except Stop Arguments := do
  let verbose ← if arguments.verbose then .ok true
    else flagVariable environment .verbose "USC_VERBOSE"
  let noColor ← if arguments.noColor then .ok true
    else flagVariable environment .noColor "USC_NO_COLOR"
  match arguments.config, environment.get? "USC_CONFIG" with
  | none, some path => ({ arguments with verbose, noColor }).takeSetting .config path
  | _, _ => return { arguments with verbose, noColor }

/-- Reads a command line. At least one file must be named. -/
def read (environment : Environment) (arguments : List String) : Except Stop Arguments := do
  let taken ← takeAll ({}, none) arguments
  let complete ← taken.withVariables environment
  if complete.files.isEmpty then reject .noFile else return complete

example : (read ⟨[]⟩ ["-qj2", "a.us", "--", "-b"]).toOption =
    some { quiet := true, jobs := some 2, files := ["a.us", "-b"] } := by decide +kernel
example : read ⟨[]⟩ ["-q", "-q", "--bad"] = .error (.mistake (.repeatedOption "--quiet")) := by cbv

end Lexis.Arguments
