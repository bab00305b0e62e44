/-
This file defines the lexer, which hands out the tokens of a source one by one. Its
state is where reading stands and what was handed out last. The state can be kept and
put back, for callers that look ahead; how many errors were reported, how positions are
counted and which file the source is belong to the lexer as a whole and are not put
back. Errors are handed to the caller together with the token they belong to.
-/

import Lexis.Diagnostic.Handler
import Lexis.Lexer.Reading

namespace Lexis

/-- The part of a lexer that a checkpoint keeps. -/
structure Lexer.State where
  reading : Reading
  /-- The token handed out last. -/
  token : Option Token
  /-- The token handed out last that was not illegal. -/
  previous : Option Token
  /-- Where the last token begins. -/
  tokenStart : Nat
  /-- Whether the end of the source has been handed out. -/
  finished : Bool
  deriving DecidableEq, Repr

/-- A source that is being read. -/
structure Lexer where
  name : String
  mode : PositionMode
  file : Nat
  errorCount : Nat
  state : Lexer.State
  deriving DecidableEq, Repr

/-- What a lexer answers when it is asked for a token. -/
structure Lexer.Answer (α : Type) where
  token : α
  error : Option LexError
  lexer : Lexer

namespace Lexer

/-- A lexer at the beginning of a source. -/
def ofSource (name : String) (source : List UInt8) (mode : PositionMode) (file : Nat) :
    Lexer :=
  ⟨name, mode, file, 0, ⟨.ofSource source, none, none, 0, false⟩⟩

def position (lexer : Lexer) : Position := lexer.state.reading.place

def finished (lexer : Lexer) : Bool := lexer.state.finished

/-- Changes how the positions of the tokens to come are counted. -/
def setMode (lexer : Lexer) (mode : PositionMode) : Lexer := { lexer with mode }

/-- Changes which file the tokens to come are stamped with. -/
def setFile (lexer : Lexer) (file : Nat) : Lexer := { lexer with file }

/-- Keeps the state for later. -/
def checkpoint (lexer : Lexer) : State := lexer.state

/-- Puts a kept state back. -/
def rewind (lexer : Lexer) (state : State) : Lexer := { lexer with state }

/-! ### Tokens one by one -/

/-- The state behind a step. -/
def State.after (state : State) (step : Step) : State where
  reading := step.next
  token := some step.token
  previous := if step.token.isIllegal then state.previous else some step.token
  tokenStart := step.token.span.start
  finished := state.finished || state.reading.ended

/-- The next token. Behind the last it is the end of the source, every time. -/
def nextToken (lexer : Lexer) : Answer Token :=
  let step := lexer.state.reading.step lexer.mode lexer.file
  { token := step.token
    error := step.error
    lexer :=
      { lexer with
        errorCount := lexer.errorCount + step.error.toList.length
        state := lexer.state.after step } }

/-- The next token for a caller who wants no token for the end: there is none at the
end, and once the end has been reached nothing changes any more. -/
def next? (lexer : Lexer) : Answer (Option Token) :=
  if lexer.finished then ⟨none, none, lexer⟩
  else
    let answer := lexer.nextToken
    ⟨if answer.token.isEof then none else some answer.token, answer.error, answer.lexer⟩

/-! ### All tokens that are left -/

/-- What is left of a source, read to its end. -/
structure Remainder where
  tokens : List Token
  errors : List LexError
  lexer : Lexer

/-- A remainder with one more token in front. -/
def Remainder.behind (remainder : Remainder) (token : Token) (error : Option LexError) :
    Remainder :=
  { remainder with
    tokens := token :: remainder.tokens
    errors := error.toList ++ remainder.errors }

/-- Hands out all tokens that are left, without the end of the source. -/
def drain (lexer : Lexer) : Remainder :=
  if lexer.finished then ⟨[], [], lexer⟩
  else
    let answer := lexer.nextToken
    if lexer.state.reading.ended then ⟨[], answer.error.toList, answer.lexer⟩
    else answer.lexer.drain.behind answer.token answer.error
termination_by lexer.state.reading.rest.length
decreasing_by
  rename_i more
  exact Reading.rest_step_lt _ _ (by simpa using more)

/-- Hands out all tokens that are left and reports their errors. -/
def drainInto (lexer : Lexer) (handler : Handler) : List Token × Handler :=
  let remainder := lexer.drain
  (remainder.tokens, handler.reportAll (remainder.errors.map LexError.toDiagnostic))

end Lexer

end Lexis
