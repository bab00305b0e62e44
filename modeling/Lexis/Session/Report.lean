/-
This file defines what a run knows of one source after reading it, and how the errors
in it become diagnostics with an excerpt of the source.
-/

import Lexis.Lexer.Basic
import Lexis.Session.SourceMap

namespace Lexis

/-- The tokens of a source up to its end, and its errors in their order. -/
structure FileReport where
  file : Nat
  tokens : List Token
  errors : List LexError
  deriving DecidableEq, Repr

namespace FileReport

def hasErrors (report : FileReport) : Bool := !report.errors.isEmpty

/-- Reads a source to its end. -/
def ofSource (number : Nat) (file : SourceFile) (mode : PositionMode) : FileReport :=
  let remainder := (Lexer.ofSource file.name file.content mode number).drain
  ⟨number, remainder.tokens, remainder.errors⟩

end FileReport

/-- The error with the line of the source that it starts in, where there is one. -/
def LexError.toDiagnosticIn (error : LexError) (source : List UInt8) : Diagnostic :=
  match Snippet.ofSource? source error.span with
  | some snippet => error.toDiagnostic.addSnippet snippet
  | none => error.toDiagnostic

/-- The diagnostics of a report. A report on a source that is not there has none. -/
def FileReport.diagnostics (report : FileReport) (sources : SourceMap) : List Diagnostic :=
  match sources.get? report.file with
  | some file => report.errors.map (·.toDiagnosticIn file.content)
  | none => []

end Lexis
