/-
This file names pieces of source text. A span holds the offsets of its first byte
and of the byte behind its last, the line and column of the first, and the number
of the file. Spans also come from callers, so nothing forces the end to lie behind
the start; a span that ends before it starts is empty.
-/

import Lexis.Source.Position

namespace Lexis

/-- A byte range of a source file, with the place it starts at. -/
structure Span where
  start : Nat
  stop : Nat
  line : UInt32
  column : UInt32
  file : Nat
  deriving DecidableEq, Repr, Inhabited

namespace Span

/-- Stands where no place is known. -/
def unknown : Span := ⟨0, 0, 0, 0, 0⟩

/-- The span of a piece of text that starts at a place. -/
def ofPlace (place : Position) (size file : Nat) : Span :=
  ⟨place.offset, place.offset + size, place.line, place.column, file⟩

/-- How many bytes the span covers. -/
def length (span : Span) : Nat := span.stop - span.start

def isEmpty (span : Span) : Bool := span.length = 0

end Span

end Lexis
