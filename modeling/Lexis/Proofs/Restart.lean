/-
This file proves that lexing remembers nothing across the end of a token. Behind any token
but the last, illegal ones included, the rest of a run is the run over the rest of the
source from its beginning: the same kinds, values and faults, with all offsets moved by
the bytes in front and lines and columns moved as those bytes move them.

For lexemes this is one induction, since they know offsets only. Lines and columns are
then compared in their closed form, where the bytes in front and the bytes between are
simply one text.
-/

import Mathlib.Data.List.Forall2
import Lexis.Proofs.Positions
import Lexis.Proofs.Reports

namespace Lexis

/-- The lexemes behind another are those of the bytes behind it. -/
theorem drop_lexemes {source : List UInt8} {index : Nat} {lexeme : Lexeme}
    (found : (lexemes source)[index]? = some lexeme) (inner : lexeme.offset < source.length) :
    (lexemes source).drop (index + 1) =
      (lexemes (source.drop lexeme.stop)).map (Lexeme.shift lexeme.stop) := by
  induction index generalizing source lexeme with
  | zero =>
    obtain ⟨rest, split⟩ := exists_lexemes_eq_cons source
    rw [split] at found
    obtain rfl := Option.some_inj.mp found
    rw [lexemes_of_more inner]
    rfl
  | succ index inductionHypothesis =>
    rcases Nat.lt_or_ge (Scan.triviaSize source) source.length with left | ended
    · rw [lexemes_of_more left, List.getElem?_cons_succ, List.getElem?_map] at found
      obtain ⟨later, lexed, rfl⟩ := Option.map_eq_some_iff.mp found
      have inside : later.offset < (source.drop (Lexeme.first source).stop).length := by
        rw [Lexeme.shift_offset] at inner
        rw [List.length_drop]
        omega
      have shifts : Lexeme.shift (Lexeme.first source).stop ∘ Lexeme.shift later.stop =
          Lexeme.shift ((Lexeme.first source).stop + later.stop) :=
        funext fun lexeme => lexeme.shift_shift _ _
      rw [lexemes_of_more left, List.drop_succ_cons, ← List.map_drop,
        inductionHypothesis lexed inside, List.map_map, List.drop_drop, shifts,
        Lexeme.shift_stop]
    · rw [lexemes_of_ended ended] at found
      exact absurd found nofun

/-! ### Moving spans -/

/-- How a span of the rest of a source, read for itself, appears behind the text before.
Lines and columns are words, so they move by just these numbers only where the words can
count them. -/
structure Span.Behind (mode : PositionMode) (before rest : List UInt8) (fresh later : Span) :
    Prop where
  start : later.start = before.length + fresh.start
  stop : later.stop = before.length + fresh.stop
  line (short : (before ++ rest).length + 1 < UInt32.size) :
    later.line.toNat = fresh.line.toNat + mode.lineShift before
  column (short : (before ++ rest).length + 1 < UInt32.size) :
    later.column.toNat = fresh.column.toNat + mode.columnShift before (rest.take fresh.start)
  file : later.file = fresh.file

/-- The same for tokens. -/
structure Token.Behind (mode : PositionMode) (before rest : List UInt8) (fresh later : Token) :
    Prop where
  kind : later.kind = fresh.kind
  value : later.value = fresh.value
  span : fresh.span.Behind mode before rest later.span

/-- The same for errors. -/
structure LexError.Behind (mode : PositionMode) (before rest : List UInt8)
    (fresh later : LexError) : Prop where
  fault : later.fault = fresh.fault
  span : fresh.span.Behind mode before rest later.span

/-- A lexeme of the rest of a source stands behind the text before it. -/
theorem Lexeme.span_behind (before : List UInt8) {rest : List UInt8} {lexeme : Lexeme}
    (mode : PositionMode) (file : Nat) (inside : lexeme.offset ≤ rest.length) :
    (lexeme.span (.ofSource rest) mode file).Behind mode before rest
      ((lexeme.shift before.length).span (.ofSource (before ++ rest)) mode file) := by
  have whole : (lexeme.shift before.length).offset ≤ (before ++ rest).length := by
    rw [shift_offset, List.length_append]
    omega
  have between : (before ++ rest).take (lexeme.shift before.length).offset =
      before ++ rest.take lexeme.offset := List.take_length_add_append _
  have shortRest (short : (before ++ rest).length + 1 < UInt32.size) :
      rest.length + 1 < UInt32.size := by
    rw [List.length_append] at short
    omega
  refine ⟨?_, ?_, fun short => ?_, fun short => ?_, rfl⟩
  · rw [span_ofSource_start mode file whole, span_ofSource_start mode file inside, shift_offset]
  · rw [span_ofSource_stop mode file whole, span_ofSource_stop mode file inside, shift_stop]
  · rw [line_span short, line_span (shortRest short), between, PositionMode.lineBehind_append]
  · rw [column_span short, column_span (shortRest short), between,
      PositionMode.columnBehind_append, span_ofSource_start mode file inside]

/-- Behind any token but the last the lexer goes on as if the source began there: the rest
of its tokens and of their errors are those of the rest of the source, moved. -/
theorem tokenize_restart {source : List UInt8} {mode : PositionMode} {index : Nat} {token : Token}
    (found : (tokenize source mode).tokens[index]? = some token) (inner : token.isEof = false) :
    let before := source.take token.span.stop
    let rest := source.drop token.span.stop
    before.length = token.span.stop ∧
      List.Forall₂ (Token.Behind mode before rest) (tokenize rest mode).tokens
        ((tokenize source mode).tokens.drop (index + 1)) ∧
      List.Forall₂ (LexError.Behind mode before rest) (tokenize rest mode).errors
        ((tokenize source mode).errorsFrom (index + 1)) ∧
      ((tokenize source mode).errorsFrom (index + 1)).map LexError.span =
        (((tokenize source mode).tokens.drop (index + 1)).filter Token.isIllegal).map
          Token.span := by
  intro before rest
  obtain ⟨lexeme, lexed, -, -, stop, notLast⟩ := exists_lexeme_of_getElem? found
  have length : before.length = lexeme.stop := by
    have bounds := (Lexeme.bounds_of_mem (List.mem_of_getElem? lexed)).1
    rw [List.length_take, stop]
    omega
  have behind : (lexemes source).drop (index + 1) =
      (lexemes rest).map (Lexeme.shift before.length) := by
    rw [drop_lexemes lexed (notLast inner), length, ← stop]
  have whole : before ++ rest = source := List.take_append_drop _ source
  have moved (later : Lexeme) (laterMember : later ∈ lexemes rest) :
      (later.span (.ofSource rest) mode 0).Behind mode before rest
        ((later.shift before.length).span (.ofSource source) mode 0) := by
    have placed := Lexeme.span_behind before mode 0 (mem_lexemes laterMember).1
    rwa [whole] at placed
  refine ⟨length.trans stop.symm, ?_, ?_, spans_errorsFrom source mode _⟩
  · rw [tokens_tokenize, tokens_tokenize, ← List.map_drop, behind, List.map_map,
      List.forall₂_map_left_iff, List.forall₂_map_right_iff, List.forall₂_same]
    exact fun later laterMember => ⟨rfl, rfl, moved later laterMember⟩
  · rw [errors_tokenize, errorsFrom_tokenize, behind, List.filterMap_map]
    refine List.rel_filterMap (R := fun first second => first = second ∧ first ∈ lexemes rest) ?_
      (List.forall₂_same.mpr fun later laterMember => ⟨rfl, laterMember⟩)
    rintro later _ ⟨rfl, laterMember⟩
    show Option.Rel _ (later.found.fault?.map _) (later.found.fault?.map _)
    cases later.found.fault? with
    | none => exact .none
    | some fault => exact .some ⟨rfl, moved later laterMember⟩

/-- Behind a stray byte on the second line a word goes on with that line, and its column is
moved; the stray byte on the line after begins a line of its own and keeps its column. -/
theorem tokenize_restart_stray :
    let before : List UInt8 := [0x0A, 0x20, 0x24]
    let rest : List UInt8 := [0x20, 0x62, 0x0A, 0x40]
    let token : Token := ⟨.illegal, .none, ⟨2, 3, 2, 2, 0⟩⟩
    (before ++ rest).length + 1 < UInt32.size ∧
      (tokenize (before ++ rest) .lineColumn).tokens[0]? = some token ∧
      token.isEof = false ∧
      List.Forall₂ (Token.Behind .lineColumn before rest) (tokenize rest .lineColumn).tokens
        ((tokenize (before ++ rest) .lineColumn).tokens.drop 1) ∧
      List.Forall₂ (LexError.Behind .lineColumn before rest) (tokenize rest .lineColumn).errors
        ((tokenize (before ++ rest) .lineColumn).errorsFrom 1) := by
  intro before rest token
  have short : (before ++ rest).length + 1 < UInt32.size := by decide
  have found : (tokenize (before ++ rest) .lineColumn).tokens[0]? = some token := by
    decide +kernel
  have inner : token.isEof = false := by decide
  obtain ⟨-, tokens, errors, -⟩ := tokenize_restart found inner
  exact ⟨short, found, inner, tokens, errors⟩

end Lexis
