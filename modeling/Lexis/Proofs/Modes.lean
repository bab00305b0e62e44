/-
This file proves that the way of counting positions decides about lines and columns only. A
caller may change it before every request for a token, and each of two callers as it likes:
they get the same tokens and the same errors from the same bytes, request by request, and come
to the end together.

A step looks at the bytes that are left and never at the place, so two lexers that have the
same bytes before them hand out tokens that differ in line and column only, and have the same
bytes before them again. As the counts of a lexer whose mode was changed midway follow from no
text, there is no closed form for them; that they stay below the words that hold them comes
from the offset, which neither the line nor the column runs ahead of.
-/

import Mathlib.Data.List.Forall2
import Mathlib.Data.Nat.Find
import Lexis.Proofs.Paths
import Lexis.Proofs.Places

namespace Lexis

/-! ### What is the same but for lines and columns -/

/-- Two spans of the same bytes of the same file. -/
structure Span.SameText (first second : Span) : Prop where
  start : first.start = second.start
  stop : first.stop = second.stop
  file : first.file = second.file

/-- Two tokens that are the same but for the line and the column. -/
structure Token.SameText (first second : Token) : Prop where
  kind : first.kind = second.kind
  value : first.value = second.value
  span : first.span.SameText second.span

/-- Two errors that are the same but for the line and the column. -/
structure LexError.SameText (first second : LexError) : Prop where
  fault : first.fault = second.fault
  span : first.span.SameText second.span

/-- Two answers with the same token and the same error, if any, but for lines and columns. -/
structure Lexer.Answer.SameText (first second : Lexer.Answer Token) : Prop where
  token : first.token.SameText second.token
  error : Option.Rel LexError.SameText first.error second.error

theorem Token.SameText.isEof {first second : Token} (same : first.SameText second) :
    first.isEof = second.isEof :=
  congrArg (decide <| · = Kind.eof) same.kind

theorem Token.SameText.isIllegal {first second : Token} (same : first.SameText second) :
    first.isIllegal = second.isIllegal :=
  congrArg (decide <| · = Kind.illegal) same.kind

/-- Skipping the same bytes leads to the same offset, however places are counted. -/
theorem Reading.place_offset_skip_congr {first second : Reading}
    (offset : first.place.offset = second.place.offset) (rest : first.rest = second.rest)
    {size : Nat} (inside : size ≤ first.rest.length) (mode other : PositionMode) :
    (first.skip mode size).place.offset = (second.skip other size).place.offset := by
  rw [place_offset_skip _ _ inside, place_offset_skip _ _ (rest ▸ inside), offset]

/-- A lexeme lies over the same bytes, however its place is counted. -/
theorem Lexeme.span_sameText {source : List UInt8} {lexeme : Lexeme}
    (inside : lexeme.offset ≤ source.length) (mode other : PositionMode) (file : Nat) :
    (lexeme.span (.ofSource source) mode file).SameText
      (lexeme.span (.ofSource source) other file) where
  start := (lexeme.span_ofSource_start mode file inside).trans
    (lexeme.span_ofSource_start other file inside).symm
  stop := (lexeme.span_ofSource_stop mode file inside).trans
    (lexeme.span_ofSource_stop other file inside).symm
  file := rfl

/-- Read at once, a source has the same tokens in either mode but for lines and columns. -/
theorem tokens_sameText (source : List UInt8) (mode other : PositionMode) :
    List.Forall₂ (fun first second => first.SameText second ∧ first.span.start ≤ source.length)
      (tokenize source mode).tokens (tokenize source other).tokens := by
  rw [tokens_tokenize, tokens_tokenize, List.forall₂_map_left_iff, List.forall₂_map_right_iff,
    List.forall₂_same]
  intro lexeme member
  have inside := (mem_lexemes member).1
  exact ⟨⟨rfl, rfl, lexeme.span_sameText inside mode other 0⟩,
    (lexeme.span_ofSource_start mode 0 inside).trans_le inside⟩

/-- The illegal tokens of a source lie over the same bytes in either mode. -/
theorem illegal_sameText (source : List UInt8) (mode other : PositionMode) :
    List.Forall₂ (fun first second => first.SameText second ∧ first.span.start ≤ source.length)
      ((tokenize source mode).tokens.filter Token.isIllegal)
      ((tokenize source other).tokens.filter Token.isIllegal) := by
  refine List.rel_filter ?_ (tokens_sameText source mode other)
  rintro first second ⟨same, -⟩
  exact iff_of_eq (congrArg (· = true) same.isIllegal)

/-! ### Requests with changes between them -/

namespace Lexer

/-- Changes how positions are counted a number of times. The last change counts. -/
def setModes (lexer : Lexer) (modes : List PositionMode) : Lexer :=
  modes.foldl setMode lexer

/-- The lexer when it is asked for the token with this number, if before each request some
changes are made. -/
def atCall (lexer : Lexer) (schedule : Nat → List PositionMode) : Nat → Lexer
  | 0 => lexer.setModes (schedule 0)
  | call + 1 => (lexer.atCall schedule call).nextToken.lexer.setModes (schedule (call + 1))

/-- Changes of the mode leave the state of a lexer and its file alone. -/
theorem setModes_eq (lexer : Lexer) (modes : List PositionMode) :
    ∃ mode, lexer.setModes modes = { lexer with mode } := by
  induction modes generalizing lexer with
  | nil => exact ⟨lexer.mode, rfl⟩
  | cons mode rest inductionHypothesis => exact inductionHypothesis (lexer.setMode mode)

/-- A token is handed out by skipping the bytes up to its end. -/
theorem reading_nextToken (lexer : Lexer) :
    lexer.nextToken.lexer.state.reading =
      lexer.state.reading.skip lexer.mode (Lexeme.first lexer.state.reading.rest).stop := by
  show (lexer.state.reading.step lexer.mode lexer.file).next = _
  rw [Reading.step_eq_first]
  rfl

/-- Two lexers with the same bytes of the same file before them. -/
structure Alike (first second : Lexer) : Prop where
  file : first.file = second.file
  offset : first.position.offset = second.position.offset
  rest : first.state.reading.rest = second.state.reading.rest

namespace Alike

variable {first second : Lexer}

theorem setModes (alike : first.Alike second) (modes others : List PositionMode) :
    (first.setModes modes).Alike (second.setModes others) := by
  obtain ⟨mode, changed⟩ := first.setModes_eq modes
  obtain ⟨other, changedOther⟩ := second.setModes_eq others
  rw [changed, changedOther]
  exact ⟨alike.file, alike.offset, alike.rest⟩

/-- Lexers that are alike give the same answer, and stay alike. -/
theorem nextToken (alike : first.Alike second) :
    first.nextToken.SameText second.nextToken ∧
      first.nextToken.lexer.Alike second.nextToken.lexer := by
  obtain ⟨file, offset, rest⟩ := alike
  have inside := Lexeme.first_stop_le first.state.reading.rest
  have start := Reading.place_offset_skip_congr offset rest
    ((Nat.le_add_right _ _).trans inside) first.mode second.mode
  have span : ((Lexeme.first first.state.reading.rest).span first.state.reading first.mode
      first.file).SameText
        ((Lexeme.first first.state.reading.rest).span second.state.reading second.mode
          first.file) :=
    ⟨start, congrArg (· + (Lexeme.first first.state.reading.rest).found.size) start, rfl⟩
  constructor
  · unfold Lexer.nextToken
    rw [Reading.step_eq_first, Reading.step_eq_first, ← rest, ← file]
    refine ⟨⟨rfl, rfl, span⟩, ?_⟩
    show Option.Rel _ (Option.map _ _) (Option.map _ _)
    cases (Lexeme.first first.state.reading.rest).found.fault? with
    | none => exact .none
    | some fault => exact .some ⟨rfl, span⟩
  · refine ⟨file, ?_, ?_⟩
    · show first.nextToken.lexer.state.reading.place.offset =
        second.nextToken.lexer.state.reading.place.offset
      rw [reading_nextToken, reading_nextToken, ← rest]
      exact Reading.place_offset_skip_congr offset rest inside _ _
    · rw [reading_nextToken, reading_nextToken, ← rest]
      exact congrArg (List.drop _) rest

/-- Whatever changes two callers make, their requests find lexers that are alike. -/
theorem atCall (alike : first.Alike second) (schedule other : Nat → List PositionMode)
    (call : Nat) : (first.atCall schedule call).Alike (second.atCall other call) := by
  induction call with
  | zero => exact alike.setModes _ _
  | succ call inductionHypothesis => exact inductionHypothesis.nextToken.2.setModes _ _

end Alike

/-! ### The end -/

variable (lexer : Lexer) (schedule : Nat → List PositionMode)

theorem isEof_nextToken_setModes (modes : List PositionMode) :
    (lexer.setModes modes).nextToken.token.isEof = lexer.nextToken.token.isEof := by
  obtain ⟨mode, changed⟩ := lexer.setModes_eq modes
  rw [isEof_nextToken, isEof_nextToken, changed]

/-- Behind the end there is only the end. -/
theorem isEof_nextToken_atCall_succ {call : Nat}
    (eof : (lexer.atCall schedule call).nextToken.token.isEof = true) :
    (lexer.atCall schedule (call + 1)).nextToken.token.isEof = true := by
  rw [atCall, isEof_nextToken_setModes]
  rw [isEof_nextToken] at eof
  have again := Reading.step_next_of_ended (lexer.atCall schedule call).mode
    (lexer.atCall schedule call).file eof
  rw [← Reading.isEof_step_iff _ (lexer.atCall schedule call).mode
    (lexer.atCall schedule call).file, ← again] at eof
  exact eof

/-- As long as the end has not come, every request has taken a byte at least. -/
theorem length_rest_atCall_le {call : Nat}
    (inner : ∀ earlier < call, (lexer.atCall schedule earlier).nextToken.token.isEof = false) :
    (lexer.atCall schedule call).state.reading.rest.length + call ≤
      lexer.state.reading.rest.length := by
  have unchanged (lexer : Lexer) (modes : List PositionMode) :
      (lexer.setModes modes).state = lexer.state := by
    obtain ⟨mode, changed⟩ := lexer.setModes_eq modes
    rw [changed]
  induction call with
  | zero => rw [atCall, unchanged, Nat.add_zero]
  | succ call inductionHypothesis =>
    have before := inductionHypothesis fun earlier less => inner earlier (Nat.lt_succ_of_lt less)
    have shorter := rest_nextToken_lt (inner call (Nat.lt_succ_self call))
    rw [atCall, unchanged]
    omega

/-- From some request on the end is handed out, and before it never. -/
theorem exists_last_call :
    ∃ last, ∀ call, (lexer.atCall schedule call).nextToken.token.isEof = true ↔ last ≤ call := by
  have reached : ∃ call, (lexer.atCall schedule call).nextToken.token.isEof = true := by
    by_contra never
    rw [not_exists] at never
    have bound := @length_rest_atCall_le lexer schedule (lexer.state.reading.rest.length + 1)
      fun earlier _ => Bool.eq_false_iff.mpr (never earlier)
    omega
  refine ⟨Nat.find reached, fun call => ⟨Nat.find_min' reached, fun behind => ?_⟩⟩
  exact Nat.le_induction (Nat.find_spec reached)
    (fun call _ eof => lexer.isEof_nextToken_atCall_succ schedule eof) call behind

end Lexer

/-! ### No count overflows -/

/-- A place whose line and column do not run ahead of its offset. -/
structure Position.Bounded (place : Position) : Prop where
  line : place.line.toNat ≤ place.offset + 1
  column : place.column.toNat ≤ place.offset + 1

namespace Position

variable {place : Position}

theorem toNat_add_one_le (count : UInt32) : (count + 1).toNat ≤ count.toNat + 1 :=
  (UInt32.toNat_add count 1).trans_le (Nat.mod_le _ _)

theorem Bounded.advance (bounded : place.Bounded) (mode : PositionMode) (b : UInt8) :
    (place.advance mode b).Bounded := by
  have line := toNat_add_one_le place.line
  have column := toNat_add_one_le place.column
  obtain ⟨lineBound, columnBound⟩ := bounded
  unfold Position.advance
  split
  · exact ⟨line.trans (Nat.succ_le_succ lineBound), Nat.le_add_left 1 _⟩
  · exact ⟨lineBound.trans (Nat.le_succ _), column.trans (Nat.succ_le_succ columnBound)⟩

/-- From a place whose counts are bounded no addition overflows on the way over a text that
ends before the words do. -/
theorem Bounded.advanceOver (bounded : place.Bounded) (mode : PositionMode)
    {text : List UInt8} (short : place.offset + text.length + 1 < UInt32.size) :
    place.advanceOver? mode text = some (place.advanceOver mode text) ∧
      (place.advanceOver mode text).Bounded := by
  induction text generalizing place with
  | nil => exact ⟨rfl, bounded⟩
  | cons b rest inductionHypothesis =>
    obtain ⟨line, column⟩ := bounded
    rw [List.length_cons] at short
    have step : place.advance? mode b = some (place.advance mode b) :=
      advance?_eq_some (by omega) (by omega) mode b
    have later : (place.advance mode b).offset + rest.length + 1 < UInt32.size := by
      rw [advance_offset]
      omega
    obtain ⟨walked, reached⟩ := inductionHypothesis (Bounded.advance ⟨line, column⟩ mode b) later
    refine ⟨?_, reached⟩
    unfold advanceOver? at walked ⊢
    rw [List.foldlM_cons, step]
    exact walked

end Position

namespace Lexer

/-- No line or column overflows when the next token is asked for: the walk over the bytes that
are passed can be taken with additions that fail. -/
def CountsOn (lexer : Lexer) : Prop :=
  ∃ passed, lexer.state.reading.rest = passed ++ lexer.nextToken.lexer.state.reading.rest ∧
    lexer.position.advanceOver? lexer.mode passed = some lexer.nextToken.lexer.position

/-- A lexer that stands in a source of some size, with bounded counts. -/
structure StandsWithin (lexer : Lexer) (size : Nat) : Prop where
  bounded : lexer.position.Bounded
  inside : lexer.position.offset + lexer.state.reading.rest.length = size

namespace StandsWithin

variable {lexer : Lexer} {size : Nat}

theorem setModes (stands : lexer.StandsWithin size) (modes : List PositionMode) :
    (lexer.setModes modes).StandsWithin size := by
  obtain ⟨mode, changed⟩ := lexer.setModes_eq modes
  rw [changed]
  exact ⟨stands.bounded, stands.inside⟩

theorem nextToken (stands : lexer.StandsWithin size) (short : size + 1 < UInt32.size) :
    lexer.CountsOn ∧ lexer.nextToken.lexer.StandsWithin size := by
  obtain ⟨bounded, inside⟩ := stands
  have stop := Lexeme.first_stop_le lexer.state.reading.rest
  have goesOn := lexer.reading_nextToken
  have offset := Reading.place_offset_skip lexer.state.reading lexer.mode stop
  generalize (Lexeme.first lexer.state.reading.rest).stop = taken at stop goesOn offset
  have within : lexer.position.offset + (lexer.state.reading.rest.take taken).length + 1 <
      UInt32.size := by
    rw [List.length_take_of_le stop]
    omega
  obtain ⟨walked, reached⟩ := bounded.advanceOver lexer.mode within
  constructor
  · refine ⟨lexer.state.reading.rest.take taken, ?_, ?_⟩
    · rw [goesOn]
      exact (List.take_append_drop taken _).symm
    · rw [walked, Lexer.position, Lexer.position, goesOn]
      rfl
  · refine ⟨?_, ?_⟩
    · rw [Lexer.position, goesOn]
      exact reached
    · rw [Lexer.position, goesOn, offset, Reading.skip, List.length_drop]
      rw [Lexer.position] at inside
      omega

theorem atCall (stands : lexer.StandsWithin size) (short : size + 1 < UInt32.size)
    (schedule : Nat → List PositionMode) (call : Nat) :
    (lexer.atCall schedule call).StandsWithin size := by
  induction call with
  | zero => exact stands.setModes _
  | succ call inductionHypothesis => exact (inductionHypothesis.nextToken short).2.setModes _

end StandsWithin

end Lexer

/-- The way of counting positions decides about lines and columns only. Two callers read the
same source and change the mode before each of their requests as they like. Every request is
answered alike: with the same kind, value and bytes, and with the same fault in the same bytes
if there is one. They come to the end at the same request, and it stays the end. In a source
that the words can count no count overflows in either run, whatever the changes. -/
theorem modes_decide_places_only (name : String) (source : List UInt8) (file : Nat)
    (mode other : PositionMode) (schedule otherSchedule : Nat → List PositionMode) :
    let run := (Lexer.ofSource name source mode file).atCall schedule
    let rerun := (Lexer.ofSource name source other file).atCall otherSchedule
    (∀ call, (run call).nextToken.SameText (rerun call).nextToken) ∧
      (∃ last, ∀ call,
        ((run call).nextToken.token.isEof = true ↔ last ≤ call) ∧
          ((rerun call).nextToken.token.isEof = true ↔ last ≤ call)) ∧
      (source.length + 1 < UInt32.size →
        ∀ call, (run call).CountsOn ∧ (rerun call).CountsOn) := by
  intro run rerun
  have begins : (Lexer.ofSource name source mode file).Alike
      (Lexer.ofSource name source other file) := ⟨rfl, rfl, rfl⟩
  have same (call : Nat) : (run call).nextToken.SameText (rerun call).nextToken :=
    (begins.atCall schedule otherSchedule call).nextToken.1
  refine ⟨same, ?_, fun short call => ⟨?_, ?_⟩⟩
  · obtain ⟨last, ends⟩ := (Lexer.ofSource name source mode file).exists_last_call schedule
    refine ⟨last, fun call => ⟨ends call, ?_⟩⟩
    rw [← (same call).token.isEof]
    exact ends call
  · have stands : (Lexer.ofSource name source mode file).StandsWithin source.length :=
      ⟨⟨Nat.le_refl 1, Nat.le_refl 1⟩, Nat.zero_add _⟩
    exact ((stands.atCall short schedule call).nextToken short).1
  · have stands : (Lexer.ofSource name source other file).StandsWithin source.length :=
      ⟨⟨Nat.le_refl 1, Nat.le_refl 1⟩, Nat.zero_add _⟩
    exact ((stands.atCall short otherSchedule call).nextToken short).1

/-- One caller counts columns only; the other turns to lines before it asks for the stray byte
behind a comment. Both get the stray byte with its fault, on different lines. -/
theorem modes_decide_places_only_switched :
    let source : List UInt8 := [0x27, 0x0A, 0x27, 0x2F, 0x2A, 0x0A, 0x2A, 0x2F, 0x24, 0x61]
    let run := (Lexer.ofSource "a.us" source .columnOnly 3).atCall fun _ => []
    let rerun := (Lexer.ofSource "a.us" source .columnOnly 3).atCall fun call =>
      if call = 1 then [.columnOnly, .lineColumn] else []
    source.length + 1 < UInt32.size ∧
      (run 1).nextToken.error = some ⟨.strayByte, ⟨8, 9, 1, 9, 3⟩⟩ ∧
      (rerun 1).nextToken.error = some ⟨.strayByte, ⟨8, 9, 2, 3, 3⟩⟩ ∧
      (∀ call, (run call).nextToken.SameText (rerun call).nextToken) ∧
      ∀ call, (run call).CountsOn ∧ (rerun call).CountsOn := by
  intro source run rerun
  have short : source.length + 1 < UInt32.size := by decide
  obtain ⟨same, -, counts⟩ := modes_decide_places_only "a.us" source 3 .columnOnly .columnOnly
    (fun _ => []) fun call => if call = 1 then [.columnOnly, .lineColumn] else []
  exact ⟨short, by decide +kernel, by decide +kernel, same, counts short⟩

end Lexis
