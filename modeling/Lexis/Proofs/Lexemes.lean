/-
This file takes the positions out of lexing. A lexeme is a token as the scanners see it:
how far from the beginning of the bytes it lies, and what was found there. The lexemes of
a text depend on its bytes alone, and a run of the lexer is the list of lexemes of its
rest, each of them given the line, the column and the file that the run stands at. So
whatever does not speak of lines and columns is proved about lexemes, and a run from a
later place differs from a run from the beginning only in what is given to the lexemes.
-/

import Mathlib.Data.List.Basic
import Lexis.Lexer.Tokenize
import Lexis.Proofs.Symbols

namespace Lexis

/-! ### What was found, with the faults folded in -/

namespace Scan.Scanned

/-- The kind of the token that is handed out: a fault makes it illegal. -/
def kind (found : Scanned) : Kind :=
  match found.outcome with
  | .ok (kind, _) => kind
  | .error _ => .illegal

/-- The value of the token that is handed out: with a fault there is none. -/
def value (found : Scanned) : Value :=
  match found.outcome with
  | .ok (_, value) => value
  | .error _ => .none

def fault? (found : Scanned) : Option Fault :=
  match found.outcome with
  | .ok _ => none
  | .error fault => some fault

/-- What has a fault stands for nothing. -/
theorem value_of_fault {found : Scanned} (faulty : found.fault?.isSome = true) :
    found.value = .none := by
  unfold fault? at faulty
  unfold value
  cases outcome : found.outcome with
  | ok scanned => simp [outcome] at faulty
  | error reason => rfl

/-- The scanners leave these two kinds to their callers: the end of the source is not
scanned, and an illegal token comes from a fault. -/
def Proper (found : Scanned) : Prop :=
  ∀ kind value, found.outcome = .ok (kind, value) → kind ≠ .eof ∧ kind ≠ .illegal

theorem proper_token {kind : Kind} {value : Value} {size : Nat} (notEof : kind ≠ .eof)
    (legal : kind ≠ .illegal) : (token kind value size).Proper := by
  rintro _ _ ⟨⟩
  exact ⟨notEof, legal⟩

theorem proper_fault (reason : Fault) (size : Nat) : (fault reason size).Proper := by
  rintro _ _ ⟨⟩

theorem Proper.kind_ne_eof {found : Scanned} (proper : found.Proper) : found.kind ≠ .eof := by
  unfold kind
  split
  · rename_i scanned outcome
    exact (proper _ _ outcome).1
  · exact nofun

theorem Proper.kind_eq_illegal_iff {found : Scanned} (proper : found.Proper) :
    found.kind = .illegal ↔ found.fault?.isSome := by
  unfold kind fault?
  cases outcome : found.outcome with
  | ok scanned => simpa using (proper scanned.1 scanned.2 outcome).2
  | error reason => simp

end Scan.Scanned

namespace Scan

theorem word_proper (bytes : List UInt8) : (word bytes).Proper := by
  unfold word wordKind
  dsimp only
  split
  · exact Scanned.proper_token nofun nofun
  · exact Scanned.proper_token nofun nofun

theorem integer_proper (radix : Nat) (separable : Bool) (run : List UInt8) (size : Nat) :
    Scanned.Proper ⟨integer radix separable run, size⟩ := by
  unfold integer
  split
  · exact Scanned.proper_fault _ _
  · exact Scanned.proper_fault _ _
  · dsimp only
    split
    · exact Scanned.proper_token nofun nofun
    · exact Scanned.proper_fault _ _

theorem pointed_proper (whole fraction : List UInt8) (size : Nat) :
    Scanned.Proper ⟨pointed whole fraction, size⟩ := by
  unfold pointed
  split
  · split
    · exact Scanned.proper_fault _ _
    · exact Scanned.proper_token nofun nofun
  · exact Scanned.proper_fault _ _

theorem number_proper (bytes : List UInt8) : (number bytes).Proper := by
  unfold number
  split
  · exact integer_proper _ _ _ _
  · dsimp only
    split
    · exact pointed_proper _ _ _
    · exact integer_proper _ _ _ _

theorem charLiteral_proper (bytes : List UInt8) : (charLiteral bytes).Proper := by
  unfold charLiteral
  repeat' split
  all_goals first | exact Scanned.proper_fault _ _ | exact Scanned.proper_token nofun nofun

theorem stringLiteral_proper (bytes : List UInt8) : (stringLiteral bytes).Proper := by
  unfold stringLiteral
  dsimp only
  split
  · exact Scanned.proper_fault _ _
  · split
    · exact Scanned.proper_fault _ _
    · exact Scanned.proper_token nofun nofun

theorem symbol_proper (bytes : List UInt8) : (symbol bytes).Proper := by
  unfold symbol
  split
  · rename_i kind taken matched
    have longest := (matchSymbol?_eq_some_iff.mp matched).1
    have member := (Kind.mem_symbols kind).mp longest.member
    refine Scanned.proper_token ?_ ?_
    · rintro rfl
      simp [Kind.isOperator, Kind.isDelimiter] at member
    · rintro rfl
      simp [Kind.isOperator, Kind.isDelimiter] at member
  · exact Scanned.proper_fault _ _

/-- Every scanner is proper, so before the end of the source every token is. -/
theorem front_proper {bytes : List UInt8} (nonempty : bytes ≠ []) : (front bytes).Proper := by
  match bytes with
  | [] => exact absurd rfl nonempty
  | b :: rest =>
    unfold front
    dsimp only
    split
    · exact word_proper _
    · split
      · exact number_proper _
      · split
        · exact charLiteral_proper _
        · split
          · exact stringLiteral_proper _
          · exact symbol_proper _

theorem front_kind_eq_eof_iff (bytes : List UInt8) : (front bytes).kind = .eof ↔ bytes = [] := by
  constructor
  · intro eof
    by_contra nonempty
    exact (front_proper nonempty).kind_ne_eof eof
  · rintro rfl
    rfl

/-- An illegal token is one with a fault, at the end of the source too. -/
theorem front_kind_eq_illegal_iff (bytes : List UInt8) :
    (front bytes).kind = .illegal ↔ (front bytes).fault?.isSome := by
  by_cases nonempty : bytes = []
  · subst nonempty
    decide
  · exact (front_proper nonempty).kind_eq_illegal_iff

end Scan

/-! ### Moving a reading on -/

namespace Reading

@[simp] theorem skip_zero (reading : Reading) (mode : PositionMode) :
    reading.skip mode 0 = reading := rfl

/-- Moving on twice is moving on once by the sum. -/
theorem skip_skip (reading : Reading) (mode : PositionMode) (first second : Nat) :
    (reading.skip mode first).skip mode second = reading.skip mode (first + second) := by
  simp only [skip, List.take_add, List.drop_drop, Position.advanceOver_append]

theorem place_offset_skip (reading : Reading) (mode : PositionMode) {size : Nat}
    (inside : size ≤ reading.rest.length) :
    (reading.skip mode size).place.offset = reading.place.offset + size := by
  rw [skip, Position.advanceOver_offset, List.length_take, Nat.min_eq_left inside]

end Reading

/-! ### Lexemes -/

/-- A token without its place in lines and columns: where it begins, counted from the
beginning of the bytes, and what was found there. -/
structure Lexeme where
  offset : Nat
  found : Scan.Scanned

namespace Lexeme

/-- The offset behind the lexeme. -/
def stop (lexeme : Lexeme) : Nat := lexeme.offset + lexeme.found.size

/-- The same lexeme with more bytes in front. -/
def shift (size : Nat) (lexeme : Lexeme) : Lexeme :=
  { lexeme with offset := size + lexeme.offset }

/-- The lexeme that bytes begin with, behind their trivia. -/
def first (bytes : List UInt8) : Lexeme :=
  ⟨Scan.triviaSize bytes, Scan.front (bytes.drop (Scan.triviaSize bytes))⟩

/-- The span of a lexeme of the rest of a reading. -/
def span (lexeme : Lexeme) (reading : Reading) (mode : PositionMode) (file : Nat) : Span :=
  .ofPlace (reading.skip mode lexeme.offset).place lexeme.found.size file

/-- The token that is handed out for a lexeme. -/
def token (lexeme : Lexeme) (reading : Reading) (mode : PositionMode) (file : Nat) : Token :=
  ⟨lexeme.found.kind, lexeme.found.value, lexeme.span reading mode file⟩

/-- The error that is reported for a lexeme. -/
def error? (lexeme : Lexeme) (reading : Reading) (mode : PositionMode) (file : Nat) :
    Option LexError :=
  lexeme.found.fault?.map fun fault => ⟨fault, lexeme.span reading mode file⟩

def step (lexeme : Lexeme) (reading : Reading) (mode : PositionMode) (file : Nat) : Step :=
  ⟨lexeme.token reading mode file, lexeme.error? reading mode file,
    reading.skip mode lexeme.stop⟩

@[simp] theorem shift_offset (size : Nat) (lexeme : Lexeme) :
    (lexeme.shift size).offset = size + lexeme.offset := rfl

@[simp] theorem shift_found (size : Nat) (lexeme : Lexeme) :
    (lexeme.shift size).found = lexeme.found := rfl

@[simp] theorem shift_stop (size : Nat) (lexeme : Lexeme) :
    (lexeme.shift size).stop = size + lexeme.stop := Nat.add_assoc _ _ _

theorem shift_shift (first second : Nat) (lexeme : Lexeme) :
    (lexeme.shift second).shift first = lexeme.shift (first + second) := by
  rw [shift, shift, shift, Nat.add_assoc]

/-- A lexeme behind some bytes is handed out as the reading behind these bytes does it. -/
theorem step_shift (size : Nat) (lexeme : Lexeme) (reading : Reading) (mode : PositionMode)
    (file : Nat) :
    (lexeme.shift size).step reading mode file =
      lexeme.step (reading.skip mode size) mode file := by
  simp only [step, token, error?, span, shift_stop, shift_offset, shift_found,
    Reading.skip_skip]

theorem first_stop_le (bytes : List UInt8) : (first bytes).stop ≤ bytes.length := by
  have trivia := Scan.triviaSize_le bytes
  have bound := Scan.front_size_le (bytes.drop (Scan.triviaSize bytes))
  rw [List.length_drop] at bound
  unfold stop first
  dsimp only
  omega

end Lexeme

/-- One step of a reading hands out the lexeme that its rest begins with. -/
theorem Reading.step_eq_first (reading : Reading) (mode : PositionMode) (file : Nat) :
    reading.step mode file = (Lexeme.first reading.rest).step reading mode file := by
  have next : reading.skip mode (Lexeme.first reading.rest).stop =
      (reading.skipTrivia mode).skip mode (Lexeme.first reading.rest).found.size :=
    (skip_skip _ _ _ _).symm
  have found : (Lexeme.first reading.rest).found =
      Scan.front (reading.skipTrivia mode).rest := rfl
  have span : (Lexeme.first reading.rest).span reading mode file =
      .ofPlace (reading.skipTrivia mode).place
        (Scan.front (reading.skipTrivia mode).rest).size file := rfl
  rw [Lexeme.step, Lexeme.token, Lexeme.error?, next, span, found]
  unfold step Scan.Scanned.kind Scan.Scanned.value Scan.Scanned.fault?
  dsimp only
  cases (Scan.front (reading.skipTrivia mode).rest).outcome with
  | ok scanned => rfl
  | error reason => rfl

/-- All lexemes of a text. The last is the end of the text, with no bytes. -/
def lexemes (bytes : List UInt8) : List Lexeme :=
  if (bytes.drop (Scan.triviaSize bytes)).isEmpty then [Lexeme.first bytes]
  else
    Lexeme.first bytes ::
      (lexemes (bytes.drop (Lexeme.first bytes).stop)).map
        (Lexeme.shift (Lexeme.first bytes).stop)
termination_by bytes.length
decreasing_by
  rename_i more
  have positive : 0 < (Lexeme.first bytes).found.size :=
    Scan.front_size_pos (by simpa using more)
  have bound := Lexeme.first_stop_le bytes
  unfold Lexeme.stop at bound ⊢
  rw [List.length_drop]
  omega

theorem lexemes_of_ended {bytes : List UInt8} (nothing : bytes.length ≤ Scan.triviaSize bytes) :
    lexemes bytes = [Lexeme.first bytes] := by
  rw [lexemes, if_pos]
  rwa [List.isEmpty_iff, List.drop_eq_nil_iff]

theorem lexemes_of_more {bytes : List UInt8} (more : Scan.triviaSize bytes < bytes.length) :
    lexemes bytes =
      Lexeme.first bytes ::
        (lexemes (bytes.drop (Lexeme.first bytes).stop)).map
          (Lexeme.shift (Lexeme.first bytes).stop) := by
  nth_rewrite 1 [lexemes]
  rw [if_neg]
  rw [List.isEmpty_iff, List.drop_eq_nil_iff]
  exact Nat.not_le.mpr more

theorem exists_lexemes_eq_cons (bytes : List UInt8) :
    ∃ rest, lexemes bytes = Lexeme.first bytes :: rest := by
  rcases Nat.lt_or_ge (Scan.triviaSize bytes) bytes.length with more | nothing
  · exact ⟨_, lexemes_of_more more⟩
  · exact ⟨[], lexemes_of_ended nothing⟩

/-- A run hands out the lexemes of its rest. -/
theorem Reading.steps_eq_lexemes (reading : Reading) (mode : PositionMode) (file : Nat) :
    reading.steps mode file =
      (lexemes reading.rest).map fun lexeme => lexeme.step reading mode file := by
  fun_induction Reading.steps reading mode file with
  | case1 reading nothing =>
    unfold ended at nothing
    rw [lexemes, if_pos nothing, List.map_singleton, step_eq_first]
  | case2 reading more inductionHypothesis =>
    unfold ended at more
    rw [lexemes, if_neg more, List.map_cons, List.map_map, inductionHypothesis, step_eq_first]
    refine congrArg (List.cons _) (List.map_congr_left fun lexeme _ => ?_)
    exact (lexeme.step_shift _ reading mode file).symm

/-! ### The tokens and errors of a source -/

theorem tokens_tokenize (source : List UInt8) (mode : PositionMode) :
    (tokenize source mode).tokens =
      (lexemes source).map fun lexeme => lexeme.token (.ofSource source) mode 0 := by
  rw [tokenize, Reading.steps_eq_lexemes, List.map_map]
  rfl

theorem errors_tokenize (source : List UInt8) (mode : PositionMode) :
    (tokenize source mode).errors =
      (lexemes source).filterMap fun lexeme => lexeme.error? (.ofSource source) mode 0 := by
  rw [tokenize, Reading.steps_eq_lexemes, List.filterMap_map]
  rfl

end Lexis
