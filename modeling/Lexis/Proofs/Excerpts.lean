/-
This file proves that an error and its excerpt tell of one place. The line and the column of an
error are counted while the source is read, byte by byte and in words; those of an excerpt are
counted afresh from the offset at which the error begins, by looking back for a line feed. Both
are functions of the text before the error, and they are the same one.

An excerpt is cut by offsets alone, so it shows that place also for an error whose column was
counted from the beginning of the source.
-/

import Mathlib.Data.List.Forall2
import Lexis.Proofs.Positions
import Lexis.Proofs.Reports
import Lexis.Proofs.Sessions

namespace Lexis

/-- A span that begins in a source has an excerpt there, on the line and from the column that
are reached behind the text before the span. -/
theorem Snippet.exists_ofSource? {source : List UInt8} {span : Span}
    (inside : span.start ≤ source.length) :
    ∃ snippet, ofSource? source span = some snippet ∧
      snippet.lineNumber = PositionMode.lineColumn.lineBehind (source.take span.start) ∧
      snippet.startColumn = PositionMode.lineColumn.columnBehind (source.take span.start) := by
  unfold ofSource?
  rw [if_neg (Nat.not_lt.mpr inside)]
  exact ⟨_, rfl, rfl, rfl⟩

/-- What it means that an error tells of the place that its excerpt shows. -/
def LexError.ShownAt (source : List UInt8) (error : LexError) (snippet : Snippet) : Prop :=
  Snippet.ofSource? source error.span = some snippet ∧
    snippet.lineNumber = error.span.line.toNat ∧ snippet.startColumn = error.span.column.toNat

/-- A lexeme that is counted by lines stands where the excerpt of its span shows it. -/
theorem Lexeme.exists_excerpt {source : List UInt8} (short : source.length + 1 < UInt32.size)
    {lexeme : Lexeme} (member : lexeme ∈ lexemes source) (file : Nat) :
    let span := lexeme.span (.ofSource source) .lineColumn file
    ∃ snippet, Snippet.ofSource? source span = some snippet ∧
      snippet.lineNumber = span.line.toNat ∧ snippet.startColumn = span.column.toNat := by
  intro span
  have inside := (mem_lexemes member).1
  have start : span.start = lexeme.offset := lexeme.span_ofSource_start .lineColumn file inside
  obtain ⟨snippet, cut, line, column⟩ := Snippet.exists_ofSource? (start.trans_le inside)
  rw [start] at line column
  exact ⟨snippet, cut, line.trans (lexeme.line_span short .lineColumn file).symm,
    column.trans (lexeme.column_span short .lineColumn file).symm⟩

/-- The errors of a source are those of the same lexemes in either mode. -/
theorem errors_forall₂ (source : List UInt8) (mode other : PositionMode) :
    List.Forall₂ (fun first second => ∃ lexeme ∈ lexemes source,
        first.span = lexeme.span (.ofSource source) mode 0 ∧
        second.span = lexeme.span (.ofSource source) other 0)
      (tokenize source mode).errors (tokenize source other).errors := by
  have same : List.Forall₂ (fun first second => first = second ∧ first ∈ lexemes source)
      (lexemes source) (lexemes source) :=
    List.forall₂_same.mpr fun lexeme member => ⟨rfl, member⟩
  rw [errors_tokenize, errors_tokenize]
  refine List.rel_filterMap ?_ same
  rintro lexeme _ ⟨rfl, member⟩
  dsimp only [Lexeme.error?]
  cases lexeme.found.fault? with
  | none => exact .none
  | some fault => exact .some ⟨lexeme, member, rfl, rfl⟩

/-- An error and its excerpt tell of one place. In a source that the words can count, every
error has an excerpt. If lines are counted, it shows the line of the error and points at its
column; and the error in the same place among those whose columns are counted from the
beginning of the source has the same excerpt. -/
theorem excerpts_show_places {source : List UInt8} (short : source.length + 1 < UInt32.size) :
    List.Forall₂ (fun error other => ∃ snippet, error.ShownAt source snippet ∧
        Snippet.ofSource? source other.span = some snippet)
      (tokenize source .lineColumn).errors (tokenize source .columnOnly).errors := by
  refine (errors_forall₂ source .lineColumn .columnOnly).imp ?_
  rintro error other ⟨lexeme, member, counted, uncounted⟩
  have inside := (mem_lexemes member).1
  obtain ⟨snippet, cut, line, column⟩ := lexeme.exists_excerpt short member 0
  rw [← counted] at cut line column
  refine ⟨snippet, ⟨cut, line, column⟩, Eq.trans ?_ cut⟩
  rw [counted, uncounted]
  exact Snippet.ofSource?_congr source (lexeme.span_sameText inside .columnOnly .lineColumn 0)

/-- A string that the end of its line leaves open behind a carriage return, a character with a
line feed in it that is not closed, and a stray byte on the line that follows. -/
theorem excerpts_show_places_lines :
    let source : List UInt8 :=
      [0x20, 0x22, 0x61, 0x0D, 0x0A, 0x78, 0x20, 0x27, 0x0A, 0x20, 0x20, 0x24]
    source.length + 1 < UInt32.size ∧
      ((tokenize source .lineColumn).errors.map fun error => (error.span.line, error.span.column)) =
        [(1, 2), (2, 3), (3, 3)] ∧
      List.Forall₂ (fun error other => ∃ snippet, error.ShownAt source snippet ∧
          Snippet.ofSource? source other.span = some snippet)
        (tokenize source .lineColumn).errors (tokenize source .columnOnly).errors := by
  intro source
  have short : source.length + 1 < UInt32.size := by decide
  exact ⟨short, by decide +kernel, excerpts_show_places short⟩

end Lexis
