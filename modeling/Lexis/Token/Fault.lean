/-
This file defines what can be wrong with a token. A fault never ends the reading of
a source: the token becomes an illegal one, the fault is reported with its span, and
reading goes on behind it. Each fault has a fixed message, a code to look it up by,
and for most a hint on what would have been right.
-/

import Lexis.Diagnostic.Basic

namespace Lexis

/-- Why a token is illegal. -/
inductive Fault where
  /-- The byte begins no token. -/
  | strayByte
  /-- A backslash stands before a byte that makes no escape with it. -/
  | badEscape
  /-- The digits are misplaced or make no 64-bit integer. -/
  | badInteger
  /-- The digits before or behind the point are misplaced. -/
  | badFloat
  /-- The quotes hold no byte, more than one, or are not closed. -/
  | badChar
  /-- A line feed or the end of the source comes before the closing quote. -/
  | openString
  deriving DecidableEq, Repr

namespace Fault

def all : List Fault :=
  [.strayByte, .badEscape, .badInteger, .badFloat, .badChar, .openString]

def message : Fault → String
  | .strayByte => "Illegal token"
  | .badEscape => "Invalid escape sequence"
  | .badInteger => "Invalid integer literal"
  | .badFloat => "Invalid float literal"
  | .badChar => "Invalid character literal"
  | .openString => "Invalid string literal"

/-- The codes of faults in tokens are the hundreds of the error family. -/
def code : Fault → Diagnostic.Code
  | .strayByte => ⟨"E", 101⟩
  | .badEscape => ⟨"E", 102⟩
  | .badInteger => ⟨"E", 103⟩
  | .badFloat => ⟨"E", 104⟩
  | .badChar => ⟨"E", 105⟩
  | .openString => ⟨"E", 106⟩

def hint? : Fault → Option String
  | .strayByte => none
  | .badEscape => some "valid escapes are \\n \\r \\t \\\\ \\' \\\" and \\0"
  | .badInteger =>
    some "`_` separators must sit between digits and the value must fit in 64 bits"
  | .badFloat => some "`_` separators must sit between digits"
  | .badChar => some "a character literal holds exactly one byte"
  | .openString => some "strings must close on the line they start"

end Fault

/-- A fault at the place where it was found. -/
structure LexError where
  fault : Fault
  span : Span
  deriving DecidableEq, Repr

namespace LexError

/-- The error as a diagnostic, without an excerpt of its source. -/
def toDiagnostic (error : LexError) : Diagnostic where
  severity := .error
  message := error.fault.message
  span := error.span
  code := some error.fault.code
  helps := error.fault.hint?.toList

example : (toDiagnostic ⟨.badFloat, ⟨0, 2, 3, 4, 0⟩⟩).render "a.us" =
    "a.us:3:4: error[E0104]: Invalid float literal\n" ++
      "  = help: `_` separators must sit between digits" := by decide +kernel

end LexError

end Lexis
