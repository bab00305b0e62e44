/-
This file defines the codes by which users look diagnostics up: a family of one or
more letters and a number of at least four digits, such as `E0103`.
-/

namespace Lexis.Diagnostic

/-- A code; the family `E` is that of errors. -/
structure Code where
  family : String
  number : Nat
  deriving DecidableEq, Repr

namespace Code

/-- The code as users read it. -/
def text (code : Code) : String :=
  let digits := Nat.toDigits 10 code.number
  code.family ++ String.ofList (List.replicate (4 - digits.length) '0' ++ digits)

/-- The code as a listing of program state shows it. -/
def describe (code : Code) : String := "DiagnosticCode(" ++ code.text ++ ")"

def isError (code : Code) : Bool := code.family = "E"

example : (Code.mk "E" 103).text = "E0103" := by decide
example : (Code.mk "W" 12345).text = "W12345" := by decide

end Code

end Lexis.Diagnostic
