/-
This file gives lines and columns in closed form. The place behind a text is found by
walking over its bytes; here it is read off the text at once: the line counts its line
feeds, and the column counts the bytes behind the last of them. As words they are exact
as long as the text is shorter than the words can count, for neither the line nor the
column runs ahead of the offset.
-/

import Mathlib.Data.List.Induction
import Mathlib.Data.List.TakeWhile
import Lexis.Proofs.Tiling
import Lexis.Source.Snippet

namespace Lexis

/-! ### The last line of a text -/

namespace Snippet

theorem lastLine_of_notMem {text : List UInt8} (sameLine : lineFeed ∉ text) :
    lastLine text = text := by
  have all : text.reverse.takeWhile (· ≠ lineFeed) = text.reverse := by
    rw [List.takeWhile_eq_self_iff]
    intro b member
    have different : b ≠ lineFeed := fun same => sameLine (same ▸ List.mem_reverse.mp member)
    simpa using different
  rw [lastLine, all, List.reverse_reverse]

/-- More text either begins lines of its own or goes on with the last line. -/
theorem lastLine_append (first second : List UInt8) :
    lastLine (first ++ second) =
      if lineFeed ∈ second then lastLine second else lastLine first ++ second := by
  have stops : (second.reverse.takeWhile (· ≠ lineFeed)).length = second.reverse.length ↔
      lineFeed ∉ second := by
    constructor
    · intro all member
      have same := (List.takeWhile_sublist (· ≠ lineFeed)).eq_of_length all
      have passes := List.takeWhile_eq_self_iff.mp same lineFeed (List.mem_reverse.mpr member)
      simp at passes
    · intro sameLine
      have same := congrArg List.length (lastLine_of_notMem sameLine)
      rwa [lastLine, List.length_reverse, ← @List.length_reverse _ second] at same
  unfold lastLine
  rw [List.reverse_append, List.takeWhile_append]
  by_cases member : lineFeed ∈ second
  · rw [if_neg (fun all => stops.mp all member), if_pos member]
  · rw [if_pos (stops.mpr member), if_neg member, List.reverse_append, List.reverse_reverse]

theorem length_lastLine_le (text : List UInt8) : (lastLine text).length ≤ text.length := by
  rw [lastLine, List.length_reverse, ← @List.length_reverse _ text]
  exact (List.takeWhile_sublist _).length_le

end Snippet

/-! ### Line and column behind a text -/

namespace PositionMode

/-- The line that is reached behind a text, counted from 1. -/
def lineBehind : PositionMode → List UInt8 → Nat
  | .columnOnly, _ => 1
  | .lineColumn, text => text.count lineFeed + 1

/-- The column that is reached behind a text, counted from 1. -/
def columnBehind : PositionMode → List UInt8 → Nat
  | .columnOnly, text => text.length + 1
  | .lineColumn, text => (Snippet.lastLine text).length + 1

/-- By how many lines a text moves what stands behind it. -/
def lineShift : PositionMode → List UInt8 → Nat
  | .columnOnly, _ => 0
  | .lineColumn, text => text.count lineFeed

/-- By how many columns a text moves what stands behind it, with some more text between:
not at all if that already begins a line of its own. -/
def columnShift : PositionMode → List UInt8 → List UInt8 → Nat
  | .columnOnly, text, _ => text.length
  | .lineColumn, text, between =>
    if lineFeed ∈ between then 0 else (Snippet.lastLine text).length

theorem lineBehind_append (mode : PositionMode) (first second : List UInt8) :
    mode.lineBehind (first ++ second) = mode.lineBehind second + mode.lineShift first := by
  cases mode with
  | columnOnly => rfl
  | lineColumn =>
    simp only [lineBehind, lineShift, List.count_append]
    omega

theorem columnBehind_append (mode : PositionMode) (first second : List UInt8) :
    mode.columnBehind (first ++ second) =
      mode.columnBehind second + mode.columnShift first second := by
  cases mode with
  | columnOnly =>
    simp only [columnBehind, columnShift, List.length_append]
    omega
  | lineColumn =>
    simp only [columnBehind, columnShift, Snippet.lastLine_append]
    by_cases member : lineFeed ∈ second
    · rw [if_pos member, if_pos member]
    · rw [if_neg member, if_neg member, Snippet.lastLine_of_notMem member, List.length_append]
      omega

theorem lineBehind_le (mode : PositionMode) (text : List UInt8) :
    mode.lineBehind text ≤ text.length + 1 := by
  cases mode with
  | columnOnly => exact Nat.le_add_left 1 _
  | lineColumn => exact Nat.succ_le_succ List.count_le_length

theorem columnBehind_le (mode : PositionMode) (text : List UInt8) :
    mode.columnBehind text ≤ text.length + 1 := by
  cases mode with
  | columnOnly => exact Nat.le_refl _
  | lineColumn => exact Nat.succ_le_succ (Snippet.length_lastLine_le text)

end PositionMode

/-! ### The words that are shown -/

namespace Position

/-- One byte more, in closed form. -/
theorem advance_ofNat (mode : PositionMode) (text : List UInt8) (b : UInt8) :
    advance mode ⟨text.length, .ofNat (mode.lineBehind text), .ofNat (mode.columnBehind text)⟩ b =
      ⟨(text ++ [b]).length, .ofNat (mode.lineBehind (text ++ [b])),
        .ofNat (mode.columnBehind (text ++ [b]))⟩ := by
  have next {count sum : Nat} (same : count + 1 = sum) : UInt32.ofNat count + 1 = .ofNat sum :=
    same ▸ (UInt32.ofNat_add count 1).symm
  rw [PositionMode.lineBehind_append, PositionMode.columnBehind_append, List.length_append]
  cases mode with
  | columnOnly =>
    refine congrArg (Position.mk _ _) (next ?_)
    simp only [PositionMode.columnBehind, PositionMode.columnShift, List.length_singleton]
    omega
  | lineColumn =>
    by_cases feed : b = lineFeed
    · subst feed
      have column : PositionMode.lineColumn.columnShift text [lineFeed] = 0 := by
        simp [PositionMode.columnShift]
      rw [column]
      refine congrArg (Position.mk _ · _) (next ?_)
      simp only [PositionMode.lineBehind, PositionMode.lineShift, List.count_singleton_self]
      omega
    · have column : PositionMode.lineColumn.columnShift text [b] =
          (Snippet.lastLine text).length := by
        simp [PositionMode.columnShift, eq_comm, feed]
      have noLine : PositionMode.lineColumn.lineBehind [b] = 1 := by
        simp [PositionMode.lineBehind, feed]
      have single : PositionMode.lineColumn.columnBehind [b] = 2 := by
        simp [PositionMode.columnBehind, Snippet.lastLine, feed]
      rw [column, noLine, single, advance, if_neg (by simp [feed])]
      have line : PositionMode.lineColumn.lineBehind text =
          1 + PositionMode.lineColumn.lineShift text := Nat.add_comm _ _
      rw [line]
      refine congrArg (Position.mk _ _) (next ?_)
      simp only [PositionMode.columnBehind]
      omega

/-- The place behind a text, without walking over it. -/
theorem advanceOver_start (mode : PositionMode) (text : List UInt8) :
    start.advanceOver mode text =
      ⟨text.length, .ofNat (mode.lineBehind text), .ofNat (mode.columnBehind text)⟩ := by
  induction text using List.reverseRecOn with
  | nil => cases mode <;> rfl
  | append_singleton text b inductionHypothesis =>
    rw [advanceOver_append, inductionHypothesis]
    exact advance_ofNat mode text b

theorem line_advanceOver_start (mode : PositionMode) {text : List UInt8}
    (short : text.length + 1 < UInt32.size) :
    (start.advanceOver mode text).line.toNat = mode.lineBehind text := by
  rw [advanceOver_start]
  exact UInt32.toNat_ofNat_of_lt' (Nat.lt_of_le_of_lt (mode.lineBehind_le text) short)

theorem column_advanceOver_start (mode : PositionMode) {text : List UInt8}
    (short : text.length + 1 < UInt32.size) :
    (start.advanceOver mode text).column.toNat = mode.columnBehind text := by
  rw [advanceOver_start]
  exact UInt32.toNat_ofNat_of_lt' (Nat.lt_of_le_of_lt (mode.columnBehind_le text) short)

end Position

/-! ### The spans of lexemes -/

/-- A lexeme stands on the line that is reached behind the text before it. -/
theorem Lexeme.line_span {source : List UInt8} (short : source.length + 1 < UInt32.size)
    (lexeme : Lexeme) (mode : PositionMode) (file : Nat) :
    (lexeme.span (.ofSource source) mode file).line.toNat =
      mode.lineBehind (source.take lexeme.offset) := by
  have bound := List.length_take_le' lexeme.offset source
  have before : (source.take lexeme.offset).length + 1 < UInt32.size := by omega
  exact Position.line_advanceOver_start mode before

/-- A lexeme stands in the column that is reached behind the text before it. -/
theorem Lexeme.column_span {source : List UInt8} (short : source.length + 1 < UInt32.size)
    (lexeme : Lexeme) (mode : PositionMode) (file : Nat) :
    (lexeme.span (.ofSource source) mode file).column.toNat =
      mode.columnBehind (source.take lexeme.offset) := by
  have bound := List.length_take_le' lexeme.offset source
  have before : (source.take lexeme.offset).length + 1 < UInt32.size := by omega
  exact Position.column_advanceOver_start mode before

end Lexis
