/-
This file proves that tokens and errors stand where they say. Lines and columns are counted
as reading goes on, by one addition for every byte, in whichever scanner the byte is passed;
so they depend on the bytes before a token only, and not on what was read there. A line feed
in a comment or between the quotes of a character counts as any other, and an escape that
stands for a line feed does not count as one.

The words that count lines and columns are 32 bits long. The walk over the bytes is taken
once more with additions that fail where they would overflow, and in a source that the
words can count it does not fail.
-/

import Lexis.Proofs.Positions
import Lexis.Proofs.Reports
import Lexis.Proofs.TokenIndex

namespace Lexis

/-! ### Counting without overflow -/

namespace Position

/-- The place behind a byte, if the line or the column that moves has a successor. -/
def advance? (mode : PositionMode) (place : Position) (b : UInt8) : Option Position :=
  if mode = .lineColumn && b = lineFeed then
    if place.line.toNat + 1 < UInt32.size then
      some ⟨place.offset + 1, place.line + 1, 1⟩
    else none
  else if place.column.toNat + 1 < UInt32.size then
    some ⟨place.offset + 1, place.line, place.column + 1⟩
  else none

/-- The place behind a piece of text, if no addition overflows on the way. -/
def advanceOver? (mode : PositionMode) (place : Position) (bytes : List UInt8) :
    Option Position :=
  bytes.foldlM (advance? mode) place

theorem advance?_eq_some {place : Position} (line : place.line.toNat + 1 < UInt32.size)
    (column : place.column.toNat + 1 < UInt32.size) (mode : PositionMode) (b : UInt8) :
    place.advance? mode b = some (place.advance mode b) := by
  unfold advance? advance
  rw [if_pos line, if_pos column]
  split <;> rfl

/-- Over a text that the words can count no addition overflows. -/
theorem advanceOver?_start (mode : PositionMode) {text : List UInt8}
    (short : text.length + 1 < UInt32.size) :
    start.advanceOver? mode text = some (start.advanceOver mode text) := by
  induction text using List.reverseRecOn with
  | nil => rfl
  | append_singleton text b inductionHypothesis =>
    rw [List.length_append, List.length_singleton] at short
    have before : text.length + 1 < UInt32.size := by omega
    have line := line_advanceOver_start mode before
    have column := column_advanceOver_start mode before
    have lineBound := mode.lineBehind_le text
    have columnBound := mode.columnBehind_le text
    have step : (start.advanceOver mode text).advance? mode b =
        some ((start.advanceOver mode text).advance mode b) :=
      advance?_eq_some (by omega) (by omega) mode b
    have walked := inductionHypothesis before
    unfold advanceOver? at walked ⊢
    rw [List.foldlM_append, walked, advanceOver_append]
    exact (Option.bind_some _ _).trans ((congrArg (Option.bind · some) step).trans rfl)

end Position

/-! ### Reading stands in its source -/

/-- Reading that stands somewhere in a source, at the place behind the bytes that it has
passed. -/
def Reading.StandsIn (source : List UInt8) (mode : PositionMode) (reading : Reading) : Prop :=
  ∃ passed, source = passed ++ reading.rest ∧
    reading.place = Position.start.advanceOver mode passed

namespace Reading

variable {source : List UInt8} {mode : PositionMode} {reading : Reading}

theorem StandsIn.skip (stands : reading.StandsIn source mode) (size : Nat) :
    (reading.skip mode size).StandsIn source mode := by
  obtain ⟨passed, split, place⟩ := stands
  refine ⟨passed ++ reading.rest.take size, ?_, ?_⟩
  · rw [List.append_assoc, Reading.skip, List.take_append_drop, split]
  · rw [Reading.skip, Position.advanceOver_append, ← place]

theorem StandsIn.next_step (stands : reading.StandsIn source mode) (file : Nat) :
    (reading.step mode file).next.StandsIn source mode := by
  rw [Reading.next_step]
  exact (stands.skip _).skip _

/-- However many tokens have been read, reading stands in the source. -/
theorem standsIn_after (source : List UInt8) (mode : PositionMode) (file count : Nat) :
    ((ofSource source).after mode file count).StandsIn source mode := by
  induction count with
  | zero => exact ⟨[], rfl, rfl⟩
  | succ count inductionHypothesis =>
    rw [after_succ]
    exact inductionHypothesis.next_step file

end Reading

/-! ### The places of tokens and errors -/

/-- What it means that a span starts at the line and the column that it says. -/
def Span.Exact (source : List UInt8) : PositionMode → Span → Prop
  | .columnOnly, span => span.line.toNat = 1 ∧ span.column.toNat = span.start + 1
  | .lineColumn, span =>
    span.line.toNat = 1 + (source.take span.start).count lineFeed ∧
      ∃ above line, source.take span.start = above ++ line ∧
        (above = [] ∨ ∃ text, above = text ++ [lineFeed]) ∧ lineFeed ∉ line ∧
        span.column.toNat = 1 + line.length

/-- Above the last line of a text there is nothing, or what ends with a line feed. -/
theorem Snippet.lastLine_cases (text : List UInt8) :
    ∃ above, text = above ++ lastLine text ∧
      (above = [] ∨ ∃ more, above = more ++ [lineFeed]) ∧ lineFeed ∉ lastLine text := by
  refine ⟨(text.reverse.dropWhile (· ≠ lineFeed)).reverse, ?_, ?_, ?_⟩
  · rw [lastLine, ← List.reverse_append, List.takeWhile_append_dropWhile, List.reverse_reverse]
  · cases rest : text.reverse.dropWhile (· ≠ lineFeed) with
    | nil => exact Or.inl rfl
    | cons b more =>
      have nonempty : text.reverse.dropWhile (· ≠ lineFeed) ≠ [] :=
        rest.symm ▸ List.cons_ne_nil b more
      have feed := List.head_dropWhile_not (· ≠ lineFeed) nonempty
      simp only [rest, List.head_cons, decide_eq_false_iff_not, not_not] at feed
      exact Or.inr ⟨more.reverse, by rw [List.reverse_cons, feed]⟩
  · intro member
    have passed := List.mem_takeWhile_imp (List.mem_reverse.mp member)
    exact absurd passed (by simp)

/-- The lexemes of a source stand where they say. -/
theorem Lexeme.span_exact {source : List UInt8} (short : source.length + 1 < UInt32.size)
    {lexeme : Lexeme} (member : lexeme ∈ lexemes source) (mode : PositionMode) (file : Nat) :
    (lexeme.span (.ofSource source) mode file).Exact source mode := by
  have inside := (mem_lexemes member).1
  have line := lexeme.line_span short mode file
  have column := lexeme.column_span short mode file
  have start := lexeme.span_ofSource_start mode file inside
  cases mode with
  | columnOnly =>
    refine ⟨line, ?_⟩
    rw [column, start, PositionMode.columnBehind, List.length_take, Nat.min_eq_left inside]
  | lineColumn =>
    obtain ⟨above, split, ends, sameLine⟩ :=
      Snippet.lastLine_cases (source.take lexeme.offset)
    rw [Span.Exact, start]
    refine ⟨line.trans (Nat.add_comm _ _), above, _, split, ends, sameLine, ?_⟩
    exact column.trans (Nat.add_comm _ _)

/-- Tokens and errors stand where they say. In a source that the words can count, every
token, the illegal ones and the end included, and every error has the line and the column of
its first byte. Reading is always at a place that was reached by walking over the bytes
before it, and no addition on such a walk overflows. -/
theorem tokenize_places_exact {source : List UInt8} (short : source.length + 1 < UInt32.size)
    (mode : PositionMode) :
    (∀ token ∈ (tokenize source mode).tokens, token.span.Exact source mode) ∧
      (∀ error ∈ (tokenize source mode).errors, error.span.Exact source mode) ∧
      (∀ file count, ((Reading.ofSource source).after mode file count).StandsIn source mode) ∧
      ∀ passed rest, source = passed ++ rest →
        Position.start.advanceOver? mode passed =
          some (Position.start.advanceOver mode passed) := by
  refine ⟨?_, ?_, Reading.standsIn_after source mode, ?_⟩
  · intro token member
    rw [tokens_tokenize] at member
    obtain ⟨lexeme, lexed, rfl⟩ := List.mem_map.mp member
    exact Lexeme.span_exact short lexed mode 0
  · intro error member
    rw [errors_tokenize] at member
    obtain ⟨lexeme, lexed, reported⟩ := List.mem_filterMap.mp member
    rw [Lexeme.span_error? reported]
    exact Lexeme.span_exact short lexed mode 0
  · rintro passed rest rfl
    rw [List.length_append] at short
    exact Position.advanceOver?_start mode (by omega)

/-- A line feed between the quotes of a character and one in a comment both begin a line; an
escaped one begins none. -/
theorem tokenize_places_exact_feeds :
    let source : List UInt8 :=
      [0x27, 0x0A, 0x27, 0x2F, 0x2A, 0x0A, 0x2A, 0x2F, 0x27, 0x5C, 0x6E, 0x27, 0x24]
    source.length + 1 < UInt32.size ∧
      ((tokenize source .lineColumn).tokens.map fun token =>
        (token.span.start, token.span.line, token.span.column)) =
        [(0, 1, 1), (8, 3, 3), (12, 3, 7), (13, 3, 8)] ∧
      (∀ token ∈ (tokenize source .lineColumn).tokens, token.span.Exact source .lineColumn) ∧
      ∀ error ∈ (tokenize source .lineColumn).errors, error.span.Exact source .lineColumn := by
  intro source
  have short : source.length + 1 < UInt32.size := by decide
  obtain ⟨tokens, errors, -, -⟩ := tokenize_places_exact short .lineColumn
  exact ⟨short, by decide +kernel, tokens, errors⟩

end Lexis
