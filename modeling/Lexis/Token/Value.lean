/-
This file defines the values that tokens carry and how a listing shows them. A value
is what the literal stands for after its escapes, separators and radix have been
resolved; its text is written so that it stays on one line.
-/

import Lexis.Decimal.Layout
import Lexis.Text.Escape
import Lexis.Text.Hash

namespace Lexis

/-- What a token stands for. An identifier comes with the hash of its name. -/
inductive Value where
  | none
  | ident (name : String) (hash : Int64)
  | int (n : Int64)
  | float (x : Binary64)
  | char (b : UInt8)
  | str (text : String)
  deriving DecidableEq, Repr

namespace Value

/-- The value of an identifier or keyword. -/
def ofName (name : String) : Value := .ident name (Text.nameHash name)

def isNone : Value → Bool
  | .none => true
  | _ => false

/-- Listings put the point in place from `0.0001` up to below `10 ^ 16`, and they
round a tie between two shortest texts up. -/
def floatLayout : Decimal.Layout where
  plainFrom := -4
  plainTo := 15
  plusSign := false
  tie := .up

/-- A floating-point number in a listing. -/
def floatText (x : Binary64) : String :=
  match x.meaning with
  | .notANumber => "NaN"
  | .infinite negative => if negative then "-inf" else "inf"
  | .finite negative significand exponent =>
    floatLayout.finiteText negative significand exponent

/-- The value in a listing of tokens. -/
def text : Value → String
  | .none => ""
  | .ident name _ => name
  | .int n => toString n.toInt
  | .float x => floatText x
  | .char b => Text.quoteByte b
  | .str s => Text.quoteText s

example : floatText ⟨0x4341C37937E08000⟩ = "1e16" := by decide +kernel
example : floatText ⟨0x3F1A36E2EB1C432D⟩ = "0.0001" := by decide +kernel
example : floatText ⟨0x8000000000000000⟩ = "-0.0" := by decide +kernel

end Value

end Lexis
