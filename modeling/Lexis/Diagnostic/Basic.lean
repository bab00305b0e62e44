/-
This file defines diagnostics, the messages that users read about their sources,
and how one is printed: a header with its place, severity and code, and below it
its excerpts, then its notes, then its suggestions.
-/

import Lexis.Diagnostic.Code
import Lexis.Source.Snippet

namespace Lexis

/-- How much a diagnostic weighs. Only errors decide whether a run succeeds. -/
inductive Severity where
  | error
  | note
  | help
  deriving DecidableEq, Repr

def Severity.text : Severity → String
  | .error => "error"
  | .note => "note"
  | .help => "help"

/-- A message about a place in a source. -/
structure Diagnostic where
  severity : Severity
  message : String
  span : Span := .unknown
  code : Option Diagnostic.Code := none
  notes : List String := []
  helps : List String := []
  snippets : List Snippet := []
  deriving DecidableEq, Repr

namespace Diagnostic

/-! ### Building -/

def withCode (diagnostic : Diagnostic) (code : Code) : Diagnostic :=
  { diagnostic with code := some code }

def withSpan (diagnostic : Diagnostic) (span : Span) : Diagnostic :=
  { diagnostic with span }

def addNote (diagnostic : Diagnostic) (note : String) : Diagnostic :=
  { diagnostic with notes := diagnostic.notes ++ [note] }

def addHelp (diagnostic : Diagnostic) (help : String) : Diagnostic :=
  { diagnostic with helps := diagnostic.helps ++ [help] }

def addSnippet (diagnostic : Diagnostic) (snippet : Snippet) : Diagnostic :=
  { diagnostic with snippets := diagnostic.snippets ++ [snippet] }

/-! ### Printing -/

/-- Severity, code if there is one, and message, on one line. -/
def header (diagnostic : Diagnostic) : String :=
  let code := match diagnostic.code with
    | some code => "[" ++ code.text ++ "]"
    | none => ""
  diagnostic.severity.text ++ code ++ ": " ++ diagnostic.message

/-- The header, behind its place if the origin has a name. -/
def headerFrom (diagnostic : Diagnostic) (origin : String) : String :=
  if origin.isEmpty then diagnostic.header
  else
    origin ++ ":" ++ toString diagnostic.span.line ++ ":" ++ toString diagnostic.span.column ++
      ": " ++ diagnostic.header

/-- A note or suggestion below the header. -/
def remark (severity : Severity) (text : String) : String :=
  "  = " ++ severity.text ++ ": " ++ text

/-- The whole diagnostic, without a line feed at its end. -/
def render (diagnostic : Diagnostic) (origin : String) : String :=
  "\n".intercalate
    (diagnostic.headerFrom origin :: diagnostic.snippets.map Snippet.format ++
      diagnostic.notes.map (remark .note) ++ diagnostic.helps.map (remark .help))

end Diagnostic

end Lexis
