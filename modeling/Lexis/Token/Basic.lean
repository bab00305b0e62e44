/-
This file defines tokens: a kind, a value, and the span of the text they were read
from.
-/

import Lexis.Source.Span
import Lexis.Token.Kind
import Lexis.Token.Value

namespace Lexis

/-- One unit of the language in a source. -/
structure Token where
  kind : Kind
  value : Value
  span : Span
  deriving DecidableEq, Repr

namespace Token

def isEof (token : Token) : Bool := token.kind = .eof

def isIllegal (token : Token) : Bool := token.kind = .illegal

/-- The token in short: its kind, and its value if it has one. -/
def text (token : Token) : String :=
  if token.value.isNone then token.kind.text
  else token.kind.text ++ " " ++ token.value.text

end Token

end Lexis
