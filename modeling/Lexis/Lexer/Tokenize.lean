/-
This file reads a whole source at once. The steps from the beginning to the end of the
source give its tokens, with the token of the end as the last, and its errors in the
same order.
-/

import Lexis.Lexer.Reading

namespace Lexis

/-- All steps up to the end of the source, whose token is the last. -/
def Reading.steps (reading : Reading) (mode : PositionMode) (file : Nat) : List Step :=
  if reading.ended then [reading.step mode file]
  else reading.step mode file :: (reading.step mode file).next.steps mode file
termination_by reading.rest.length
decreasing_by
  rename_i more
  exact Reading.rest_step_lt mode file (by simpa using more)

/-- The tokens and the errors of a source. -/
structure Tokens where
  tokens : List Token
  errors : List LexError
  deriving DecidableEq, Repr

/-- Reads a source to its end. -/
def tokenize (source : List UInt8) (mode : PositionMode) : Tokens :=
  let steps := (Reading.ofSource source).steps mode 0
  ⟨steps.map Step.token, steps.filterMap Step.error⟩

end Lexis
