/-
This file defines a session, the state of one run of the program: its options, the
sources it has loaded and the diagnostics reported so far. Sources are read
independently of each other, so how many are read at a time changes nothing in what is
reported.
-/

import Lexis.Files.Basic
import Lexis.Session.Report

namespace Lexis

/-- What a caller can choose about a session. -/
structure SessionOptions where
  mode : PositionMode
  /-- How many sources may be read at a time. -/
  jobs : Nat
  deriving DecidableEq, Repr

/-- The state of a run. -/
structure Session where
  options : SessionOptions
  sources : SourceMap
  handler : Handler
  deriving DecidableEq, Repr

/-- Why a source was not loaded. -/
structure Unreadable where
  path : String
  cause : FileError
  deriving DecidableEq, Repr

namespace Session

def empty (options : SessionOptions) : Session := ⟨options, .empty, .empty⟩

/-- Adds a source that is already in memory. -/
def add (session : Session) (file : SourceFile) : Nat × Session :=
  let (number, sources) := session.sources.add file
  (number, { session with sources })

/-- Loads sources one after the other up to the first that cannot be read. Those
before it stay loaded. -/
def load (session : Session) (files : FileSystem) : List String → Option Unreadable × Session
  | [] => (none, session)
  | path :: rest =>
    match files.read path with
    | .ok content => (session.add ⟨path, content⟩).2.load files rest
    | .error cause => (some ⟨path, cause⟩, session)

/-- Reads all sources, in their order. -/
def lex (session : Session) : List FileReport :=
  session.sources.files.mapIdx fun number file =>
    FileReport.ofSource number file session.options.mode

/-- Reports the errors of all reports, in their order. -/
def report (session : Session) (reports : List FileReport) : Session :=
  { session with
    handler :=
      session.handler.reportAll (reports.flatMap (·.diagnostics session.sources)) }

/-- The diagnostics reported so far, each with the name of its source. -/
def render (session : Session) : List String :=
  session.handler.diagnostics.map fun diagnostic =>
    diagnostic.render (session.sources.name diagnostic.span.file)

end Session

end Lexis
