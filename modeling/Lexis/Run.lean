/-
This file defines a whole run of the program: from its arguments, its variables and the
files it can read to what it prints and how it ends. The run loads its configuration and
its sources, lists their tokens, and reports their errors; it succeeds if there were
none.
-/

import Lexis.Arguments.Reader
import Lexis.Config.Load

namespace Lexis

/-- What a run prints, and its exit code. Log lines are left out. A run writes them to the same
place as its errors, and if it is asked to be verbose, more of them. -/
structure Outcome where
  code : Nat
  output : String
  errors : String
  deriving DecidableEq, Repr

namespace Run

def programName : String := "usc"

def versionText : String := programName ++ " 0.1.0\n"

def helpText : String := "\n".intercalate
  [ "USC - UniiScript Compiler",
    "",
    "Usage: usc [OPTIONS] <FILE.us>...",
    "",
    "Arguments:",
    "  <FILE.us>...  UniiScript source files",
    "",
    "Options:",
    "  -v, --verbose          Enable verbose output [env: USC_VERBOSE=]",
    "  -c, --config <CONFIG>  Path to configuration file [env: USC_CONFIG=]",
    "      --no-color         Disable color output [env: USC_NO_COLOR=]",
    "      --line-column      Count lines: a line feed starts a new line at column 1",
    "      --format <FORMAT>  Token output format (default: from config)",
    "  -q, --quiet            Only print diagnostics",
    "  -j, --jobs <JOBS>      Number of files lexed in parallel (default: from config)",
    "  -h, --help             Print help",
    "  -V, --version          Print version",
    "" ]

/-- A run that ends with a failure prints nothing else. -/
def failed (message : String) : Outcome := ⟨1, "", "error: " ++ message ++ "\n"⟩

/-- The options of the session and the form of the listing: the arguments weigh more
than the configuration. -/
def resolve (arguments : Arguments) (config : Config) : SessionOptions × DumpFormat :=
  let options := config.sessionOptions
  ( { mode := if arguments.lineColumn then .lineColumn else options.mode
      jobs := arguments.jobs.getD options.jobs },
    arguments.format.getD config.format )

/-- The last line of a run that found errors. -/
def summary (errors : Nat) : String :=
  "error: aborting due to " ++ toString errors ++
    (if errors = 1 then " previous error\n" else " previous errors\n")

/-- What is printed of a session whose sources are loaded. -/
def finish (session : Session) (format : DumpFormat) (quiet : Bool) : Outcome :=
  let reports := session.lex
  let session := session.report reports
  let errors := session.handler.errorCount
  { code := if 0 < errors then 1 else 0
    output := if quiet then "" else Dump.write format session.sources reports
    errors :=
      String.join (session.render.map (· ++ "\n")) ++
        (if 0 < errors then summary errors else "") }

/-- Loads the configuration that the arguments ask for. -/
def loadConfig (files : FileSystem) (environment : Environment) (processors : Nat)
    (arguments : Arguments) : Except Failure Config :=
  match arguments.config with
  | some path => Config.loadFrom files processors path
  | none => Config.load files environment processors

/-- Runs with arguments that make sense. Whether these ask for a verbose run or for one without
color is not looked at, for both only concern log lines. -/
def execute (files : FileSystem) (environment : Environment) (processors : Nat)
    (arguments : Arguments) : Outcome :=
  match loadConfig files environment processors arguments with
  | .error failure => failed ("could not load configuration: " ++ failure.fullMessage)
  | .ok config =>
    let (options, format) := resolve arguments config
    match (Session.empty options).load files arguments.files with
    | (some source, _) => failed (Failure.unreadable source).fullMessage
    | (none, session) => finish session format arguments.quiet

/-- Runs with any arguments. -/
def run (files : FileSystem) (environment : Environment) (processors : Nat)
    (arguments : List String) : Outcome :=
  match Arguments.read environment arguments with
  | .error .help => ⟨0, helpText, ""⟩
  | .error .version => ⟨0, versionText, ""⟩
  | .error (.mistake mistake) =>
    ⟨2, "", "error: " ++ mistake.message ++ "\n\nFor more information, try '--help'.\n"⟩
  | .ok arguments => execute files environment processors arguments

/-- The paths that a run may ask for. -/
def paths (environment : Environment) (arguments : List String) : List String :=
  match Arguments.read environment arguments with
  | .error _ => []
  | .ok arguments =>
    (match arguments.config with
      | some path => [path]
      | none => environment.configPaths) ++ arguments.files

end Run

end Lexis
