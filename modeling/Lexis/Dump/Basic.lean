/-
This file writes the tokens of a run, as lines of text or as one JSON array. The output
may have room for a limited number of bytes only; writing then fails, and the failure
tells whether it was in the midst of the JSON text.
-/

import Lexis.Dump.Record
import Lexis.Session.Report

namespace Lexis

/-- The forms of a listing. -/
inductive DumpFormat where
  | text
  | json
  deriving DecidableEq, Repr, Inhabited

namespace DumpFormat

/-- The name by which users choose the form. -/
def name : DumpFormat → String
  | .text => "text"
  | .json => "json"

def all : List DumpFormat := [.text, .json]

def ofName? (name : String) : Option DumpFormat := all.find? (·.name = name)

end DumpFormat

namespace Dump

/-- The tokens of all reports, each with the name of its source. -/
def named (sources : SourceMap) (reports : List FileReport) : List (String × Token) :=
  reports.flatMap fun report => report.tokens.map fun token => (sources.name report.file, token)

/-- What is made of the listed tokens is made of the tokens of each report in turn, and of the
name of the source that the report is about. -/
theorem map_named {α : Type} (make : String × Token → α) (sources : SourceMap)
    (reports : List FileReport) :
    (named sources reports).map make =
      reports.flatMap fun report =>
        report.tokens.map fun token => make (sources.name report.file, token) := by
  rw [named, List.map_flatMap]
  simp only [List.map_map, Function.comp_def]

theorem tokens_named (sources : SourceMap) (reports : List FileReport) :
    (named sources reports).map Prod.snd = reports.flatMap FileReport.tokens := by
  simp only [map_named, List.map_id']

/-- The listing as text: a line for each token. -/
def text (sources : SourceMap) (reports : List FileReport) : String :=
  String.join ((named sources reports).map fun entry => entry.2.listing entry.1 ++ "\n")

/-- The listing as JSON, without the line feed at its end. -/
def json (sources : SourceMap) (reports : List FileReport) : String :=
  Json.pretty
    (.array ((named sources reports).map fun entry =>
      (TokenRecord.ofToken entry.1 entry.2).toJson))

/-- The whole listing. -/
def write (format : DumpFormat) (sources : SourceMap) (reports : List FileReport) : String :=
  match format with
  | .text => text sources reports
  | .json => json sources reports ++ "\n"

/-! ### Limited outputs -/

/-- Where the room ran out. -/
inductive Overflow where
  | inText
  | inJson
  deriving DecidableEq, Repr

/-- What the failure of a full output says. -/
def overflowReason : String := "write limit reached"

/-- Writes the listing to an output with room for some bytes. The line feed behind the
JSON text is not part of it. -/
def writeWithin (room : Nat) (format : DumpFormat) (sources : SourceMap)
    (reports : List FileReport) : Except Overflow String :=
  let whole := write format sources reports
  if whole.utf8ByteSize ≤ room then .ok whole
  else if format = .json && room < (json sources reports).utf8ByteSize then .error .inJson
  else .error .inText

end Dump

end Lexis
