/-
This file is a cursor for reading a source by hand, byte by byte. It shows a current
byte, zero past the end, and it can step over an escape as if it were the one byte
it stands for; a flag then tells that byte from the same byte written plainly. The
flag and the substituted byte last until the next step.
-/

import Lexis.Source.Position
import Lexis.Source.Escape

namespace Lexis

/-- What a cursor remembers of where it stands: all but the source and the way of
counting positions. -/
structure Cursor.Stand where
  place : Position
  current : UInt8
  escaped : Bool
  deriving DecidableEq, Repr

/-- A source with a place in it. -/
structure Cursor where
  source : List UInt8
  mode : PositionMode
  stand : Cursor.Stand
  deriving DecidableEq, Repr

namespace Cursor

/-- A cursor on the first byte. -/
def ofSource (source : List UInt8) (mode : PositionMode) : Cursor :=
  ⟨source, mode, ⟨.start, source.headD 0, false⟩⟩

def offset (cursor : Cursor) : Nat := cursor.stand.place.offset

/-- The byte as written, some way ahead of the cursor; zero past the end. -/
def peek (cursor : Cursor) (ahead : Nat) : UInt8 :=
  cursor.source.getD (cursor.offset + ahead) 0

def atEnd (cursor : Cursor) : Bool := cursor.source.length ≤ cursor.offset

/-- The bytes from an offset up to the cursor, none if the offset lies ahead. -/
def sliceFrom (cursor : Cursor) (start : Nat) : List UInt8 :=
  (cursor.source.take cursor.offset).drop start

/-! ### Steps -/

/-- Steps over one byte. At the end only the escape is forgotten. -/
def advance (cursor : Cursor) : Cursor :=
  match cursor.source[cursor.offset]? with
  | none => { cursor with stand := { cursor.stand with current := 0, escaped := false } }
  | some b =>
    let place := cursor.stand.place.advance cursor.mode b
    { cursor with stand := ⟨place, cursor.source.getD place.offset 0, false⟩ }

/-- Steps over one byte, and over the backslash too if that is the next byte. The
result tells whether the byte that followed it was one of the escapes; if not, the
cursor rests on that byte as it is. -/
def advanceEscaped (cursor : Cursor) : Bool × Cursor :=
  let next := cursor.advance
  if next.stand.current = Source.backslash && !next.atEnd then
    let behind := next.advance
    match Source.unescape? behind.stand.current with
    | some b =>
      if behind.atEnd then (false, behind)
      else (true, { behind with stand := { behind.stand with current := b, escaped := true } })
    | none => (false, behind)
  else (true, next)

/-- Steps over a number of bytes. -/
def advanceBy (cursor : Cursor) : Nat → Cursor
  | 0 => cursor
  | n + 1 => cursor.advance.advanceBy n

/-- Changes how the steps to come count positions. -/
def setMode (cursor : Cursor) (mode : PositionMode) : Cursor := { cursor with mode }

/-- Goes back to where a cursor on the same source stood. -/
def restore (cursor : Cursor) (stand : Stand) : Cursor := { cursor with stand }

theorem source_advance (cursor : Cursor) : cursor.advance.source = cursor.source := by
  unfold advance
  split <;> rfl

/-- A cursor never steps out of its source. -/
theorem offset_advance_le (cursor : Cursor) (inside : cursor.offset ≤ cursor.source.length) :
    cursor.advance.offset ≤ cursor.source.length := by
  unfold advance
  split
  · exact inside
  · rename_i b found
    have bound := (List.getElem?_eq_some_iff.mp found).1
    simp only [offset, Position.advance_offset]
    exact bound

end Cursor

end Lexis
