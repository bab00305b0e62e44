/-
This file takes one step through a source: it skips what lies before the next token,
reads the token, and says where reading stands behind it. All that a step needs to
know of the past is the place and the bytes that are left; so reading can go on from
any place where a token ended, and two readings of the same rest go the same way.
-/

import Lexis.Scan.Front
import Lexis.Scan.Trivia
import Lexis.Token.Basic

namespace Lexis

/-- How far a source has been read: the place, and the bytes from there on. -/
structure Reading where
  place : Position
  rest : List UInt8
  deriving DecidableEq, Repr

/-- The outcome of a step: the token, the error if the token is illegal, and where
reading stands behind it. -/
structure Step where
  token : Token
  error : Option LexError
  next : Reading

namespace Reading

/-- The beginning of a source. -/
def ofSource (source : List UInt8) : Reading := ⟨.start, source⟩

/-- Reading moved on by a number of bytes. -/
def skip (reading : Reading) (mode : PositionMode) (size : Nat) : Reading :=
  ⟨reading.place.advanceOver mode (reading.rest.take size), reading.rest.drop size⟩

/-- The start of the next token, or the end of the source. -/
def skipTrivia (reading : Reading) (mode : PositionMode) : Reading :=
  reading.skip mode (Scan.triviaSize reading.rest)

/-- Whether no token is left. -/
def ended (reading : Reading) : Bool :=
  (reading.rest.drop (Scan.triviaSize reading.rest)).isEmpty

/-- Reads the next token and stamps it with the number of its file. At the end of the
source this is the token of the end, again and again. -/
def step (reading : Reading) (mode : PositionMode) (file : Nat) : Step :=
  let start := reading.skipTrivia mode
  let found := Scan.front start.rest
  let span := Span.ofPlace start.place found.size file
  let next := start.skip mode found.size
  match found.outcome with
  | .ok (kind, value) => ⟨⟨kind, value, span⟩, none, next⟩
  | .error fault => ⟨⟨.illegal, .none, span⟩, some ⟨fault, span⟩, next⟩

/-! ### Progress -/

theorem rest_skipTrivia (reading : Reading) (mode : PositionMode) :
    (reading.skipTrivia mode).rest = reading.rest.drop (Scan.triviaSize reading.rest) := rfl

theorem next_step (reading : Reading) (mode : PositionMode) (file : Nat) :
    (reading.step mode file).next =
      (reading.skipTrivia mode).skip mode
        (Scan.front (reading.skipTrivia mode).rest).size := by
  unfold step
  dsimp only
  split <;> rfl

/-- Before the end every step leaves fewer bytes. -/
theorem rest_step_lt {reading : Reading} (mode : PositionMode) (file : Nat)
    (more : reading.ended = false) :
    (reading.step mode file).next.rest.length < reading.rest.length := by
  have nonempty : reading.rest.drop (Scan.triviaSize reading.rest) ≠ [] := by
    simpa [ended] using more
  have positive := Scan.front_size_pos nonempty
  have bound := Scan.front_size_le (reading.rest.drop (Scan.triviaSize reading.rest))
  rw [next_step]
  simp only [skip, rest_skipTrivia, List.length_drop] at bound ⊢
  omega

end Reading

end Lexis
