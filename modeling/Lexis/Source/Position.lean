/-
This file says how lines and columns follow the bytes of a source. A position is
moved over one byte at a time, so the position after a piece of text is a fold over
its bytes, and it does not matter how a reader cuts the text into pieces. Lines and
columns are 32-bit words, as in every place that shows them.
-/

namespace Lexis

/-- The byte that ends a line. -/
def lineFeed : UInt8 := 0x0A

/-- How lines and columns are counted. -/
inductive PositionMode where
  /-- The line stays 1, and the column counts bytes from the start of the source. -/
  | columnOnly
  /-- A line feed moves to column 1 of the next line. -/
  | lineColumn
  deriving DecidableEq, Repr, Inhabited

namespace PositionMode

def all : List PositionMode := [.columnOnly, .lineColumn]

/-- The name by which users choose how positions are counted. -/
def name : PositionMode → String
  | .columnOnly => "column-only"
  | .lineColumn => "line-column"

def ofName? (name : String) : Option PositionMode := all.find? (·.name = name)

end PositionMode

/-- A place in a source: the offset of a byte, and its line and column from 1. -/
structure Position where
  offset : Nat
  line : UInt32
  column : UInt32
  deriving DecidableEq, Repr, Inhabited

namespace Position

/-- The place of the first byte. -/
def start : Position := ⟨0, 1, 1⟩

/-- The place behind a byte. -/
def advance (mode : PositionMode) (place : Position) (b : UInt8) : Position :=
  if mode = .lineColumn && b = lineFeed then ⟨place.offset + 1, place.line + 1, 1⟩
  else ⟨place.offset + 1, place.line, place.column + 1⟩

/-- The place behind a piece of text. -/
def advanceOver (mode : PositionMode) (place : Position) (bytes : List UInt8) : Position :=
  bytes.foldl (advance mode) place

@[simp] theorem advance_offset (mode : PositionMode) (place : Position) (b : UInt8) :
    (place.advance mode b).offset = place.offset + 1 := by
  unfold advance
  split <;> rfl

theorem advanceOver_append (mode : PositionMode) (place : Position)
    (first second : List UInt8) :
    place.advanceOver mode (first ++ second) =
      (place.advanceOver mode first).advanceOver mode second := by
  simp [advanceOver]

@[simp] theorem advanceOver_offset (mode : PositionMode) (place : Position)
    (bytes : List UInt8) :
    (place.advanceOver mode bytes).offset = place.offset + bytes.length := by
  induction bytes generalizing place with
  | nil => rfl
  | cons b rest inductionHypothesis =>
    have step := inductionHypothesis (place.advance mode b)
    simp only [advanceOver, List.foldl_cons, List.length_cons] at step ⊢
    rw [step, advance_offset]
    omega

end Position

end Lexis
