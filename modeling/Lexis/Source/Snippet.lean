/-
This file cuts the line that a span starts in out of its source and shows it with
carets under the span. Line and columns are counted afresh from the bytes, so the
excerpt is the same however positions were counted before, and the carets stop at
the end of the line.
-/

import Lexis.Source.Span
import Lexis.Text.Utf8

namespace Lexis

/-- A line of a source with a range of columns to point at. Lines and columns count
from 1, and the range ends before `endColumn`. -/
structure Snippet where
  line : String
  lineNumber : Nat
  startColumn : Nat
  endColumn : Nat
  deriving DecidableEq, Repr

namespace Snippet

/-! ### The line -/

/-- The bytes behind the last line feed: the beginning of the line that goes on
behind the text. -/
def lastLine (bytes : List UInt8) : List UInt8 :=
  (bytes.reverse.takeWhile (· ≠ lineFeed)).reverse

/-- The bytes before the first line feed. -/
def firstLine (bytes : List UInt8) : List UInt8 :=
  bytes.takeWhile (· ≠ lineFeed)

/-- A text without the carriage returns at its end. -/
def trimReturns (text : String) : String :=
  String.ofList (text.toList.reverse.dropWhile (· = '\r')).reverse

/-- The snippet for a span of a source, if the span starts inside the source or
right behind it. -/
def ofSource? (source : List UInt8) (span : Span) : Option Snippet :=
  if source.length < span.start then none
  else
    let before := source.take span.start
    let head := lastLine before
    let tail := firstLine (source.drop span.start)
    let marked := min (span.stop - span.start) tail.length
    some
      { line := trimReturns (Text.decodeLossy (head ++ tail))
        lineNumber := before.count lineFeed + 1
        startColumn := head.length + 1
        endColumn := head.length + 1 + marked }

theorem ofSource?_eq_none_iff (source : List UInt8) (span : Span) :
    ofSource? source span = none ↔ source.length < span.start := by
  unfold ofSource?
  split <;> simp_all

/-! ### The picture -/

/-- A text moved to the right end of a field. -/
def alignRight (width : Nat) (text : String) : String :=
  String.ofList (List.replicate (width - text.length) ' ') ++ text

/-- Line numbers stand in a field of this many places, or of as many as they need. -/
def gutterWidth (snippet : Snippet) : Nat :=
  max 3 (toString snippet.lineNumber).length

/-- The line behind its number, and the carets under it. There is always a caret,
so that an empty range can be seen. -/
def format (snippet : Snippet) : String :=
  let carets := max 1 (snippet.endColumn - snippet.startColumn)
  alignRight snippet.gutterWidth (toString snippet.lineNumber) ++ " | " ++ snippet.line ++ "\n" ++
    alignRight snippet.gutterWidth "" ++ " | " ++
    String.ofList (List.replicate (snippet.startColumn - 1) ' ' ++ List.replicate carets '^')

example : ofSource? [0x61, 0x0A, 0x62, 0x63, 0x0D, 0x0A] ⟨3, 9, 0, 0, 0⟩ = some ⟨"bc", 2, 2, 4⟩ := by
  decide +kernel
example : format ⟨"var x", 7, 5, 6⟩ = "  7 | var x\n    |     ^" := by decide +kernel

end Snippet

end Lexis
