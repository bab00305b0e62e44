/-
This file defines what a scanner finds at the front of the bytes that are left: what
the token is, or why it is illegal, and how many bytes it takes up in either case.
-/

import Lexis.Token.Kind
import Lexis.Token.Value
import Lexis.Token.Fault

namespace Lexis.Scan

/-- The outcome of reading one token. -/
structure Scanned where
  outcome : Except Fault (Kind × Value)
  size : Nat

namespace Scanned

/-- A token of a kind that goes with the value. -/
def token (kind : Kind) (value : Value) (size : Nat) : Scanned := ⟨.ok (kind, value), size⟩

def fault (fault : Fault) (size : Nat) : Scanned := ⟨.error fault, size⟩

end Scanned

end Lexis.Scan
