/-
This file defines the handler, which keeps the diagnostics of a run in the order in
which they were reported until someone prints or takes them.
-/

import Lexis.Diagnostic.Basic

namespace Lexis

/-- The diagnostics reported so far, oldest first. -/
structure Handler where
  diagnostics : List Diagnostic := []
  deriving DecidableEq, Repr

namespace Handler

def empty : Handler := ⟨[]⟩

def report (handler : Handler) (diagnostic : Diagnostic) : Handler :=
  ⟨handler.diagnostics ++ [diagnostic]⟩

def reportAll (handler : Handler) (diagnostics : List Diagnostic) : Handler :=
  ⟨handler.diagnostics ++ diagnostics⟩

/-- Hands all diagnostics out and keeps none. -/
def take (handler : Handler) : List Diagnostic × Handler :=
  (handler.diagnostics, empty)

/-- How many of the diagnostics are errors. -/
def errorCount (handler : Handler) : Nat :=
  handler.diagnostics.countP (·.severity = .error)

def hasErrors (handler : Handler) : Bool :=
  handler.diagnostics.any (·.severity = .error)

theorem errorCount_reportAll (handler : Handler) (diagnostics : List Diagnostic) :
    (handler.reportAll diagnostics).errorCount =
      handler.errorCount + diagnostics.countP (·.severity = .error) := by
  simp [errorCount, reportAll]

end Handler

end Lexis
