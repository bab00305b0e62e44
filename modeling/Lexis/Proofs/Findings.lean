/-
This file ties what is handed out for a token to what the scanner found where it begins. Tokens
and errors are handed out in two lists, and the span is all that an error has in common with its
token; but no span is shared by what begins at two places. So the two lists together tell of a
token just what was found there: a kind and a value, or one fault and no other.
-/

import Lexis.Proofs.Reports

namespace Lexis

/-- What the tokens and the errors of a source tell of one of the tokens: its kind and its value,
with no error at its place, or that it is illegal and for which reason. -/
def Tokens.Gives (result : Tokens) (token : Token) : Except Fault (Kind × Value) → Prop
  | .ok (kind, value) =>
    token.kind = kind ∧ token.value = value ∧ ∀ error ∈ result.errors, error.span ≠ token.span
  | .error fault =>
    token.kind = .illegal ∧ token.value = .none ∧ ⟨fault, token.span⟩ ∈ result.errors ∧
      ∀ error ∈ result.errors, error.span = token.span → error.fault = fault

/-- Of one token two different things are never told. -/
theorem Tokens.Gives.unique {result : Tokens} {token : Token}
    {outcome other : Except Fault (Kind × Value)} (first : result.Gives token outcome)
    (second : result.Gives token other) : outcome = other := by
  match outcome, other with
  | .ok (kind, value), .ok (otherKind, otherValue) =>
    obtain ⟨rfl, rfl, -⟩ := first
    obtain ⟨rfl, rfl, -⟩ := second
    rfl
  | .ok _, .error fault => exact absurd rfl (first.2.2 _ second.2.2.1)
  | .error fault, .ok _ => exact absurd rfl (second.2.2 _ first.2.2.1)
  | .error fault, .error otherFault =>
    exact congrArg Except.error (second.2.2.2 _ first.2.2.1 rfl)

/-- A grammar that derives nothing but what was found, and that does derive something, derives
just what was found. -/
theorem Scan.Scanned.eq_iff_of_derives {found : Scanned}
    {derives : Except Fault (Kind × Value) → Nat → Prop}
    (sound : ∀ outcome size, derives outcome size → found = ⟨outcome, size⟩)
    (some : ∃ outcome size, derives outcome size) (outcome : Except Fault (Kind × Value))
    (size : Nat) : found = ⟨outcome, size⟩ ↔ derives outcome size := by
  refine ⟨fun known => ?_, sound outcome size⟩
  obtain ⟨other, otherSize, derived⟩ := some
  obtain ⟨rfl, rfl⟩ := mk.inj ((sound other otherSize derived).symm.trans known)
  exact derived

variable {source : List UInt8} {mode : PositionMode}

/-- An error is the fault that was found at its place. -/
theorem outcome_of_mem_errors {error : LexError}
    (member : error ∈ (tokenize source mode).errors) :
    (Scan.front (source.drop error.span.start)).outcome = .error error.fault := by
  rw [errors_tokenize] at member
  obtain ⟨lexeme, lexed, reported⟩ := List.mem_filterMap.mp member
  obtain ⟨inside, found⟩ := mem_lexemes lexed
  obtain ⟨fault, faulty, rfl⟩ := Option.map_eq_some_iff.mp reported
  dsimp only
  rw [lexeme.span_ofSource_start mode 0 inside, ← found]
  unfold Scan.Scanned.fault? at faulty
  split at faulty
  · exact nomatch faulty
  · rename_i outcome
    rw [outcome, Option.some_inj.mp faulty]

variable {token : Token}

/-- A token ends behind what was found where it begins. -/
theorem stop_eq_of_mem (member : token ∈ (tokenize source mode).tokens) :
    token.span.stop =
      token.span.start + (Scan.front (source.drop token.span.start)).size := by
  rw [tokens_tokenize] at member
  obtain ⟨lexeme, lexed, rfl⟩ := List.mem_map.mp member
  obtain ⟨inside, found⟩ := mem_lexemes lexed
  rw [Lexeme.token, lexeme.span_ofSource_start mode 0 inside,
    lexeme.span_ofSource_stop mode 0 inside, ← found, Lexeme.stop]

/-- The tokens and the errors tell of a token what was found where it begins. -/
theorem gives_outcome (member : token ∈ (tokenize source mode).tokens) :
    (tokenize source mode).Gives token
      (Scan.front (source.drop token.span.start)).outcome := by
  have listed := member
  rw [tokens_tokenize] at listed
  obtain ⟨lexeme, lexed, rfl⟩ := List.mem_map.mp listed
  obtain ⟨inside, found⟩ := mem_lexemes lexed
  have start : (lexeme.token (.ofSource source) mode 0).span.start = lexeme.offset :=
    lexeme.span_ofSource_start mode 0 inside
  have here {error : LexError} (reported : error ∈ (tokenize source mode).errors)
      (same : error.span = (lexeme.token (.ofSource source) mode 0).span) :
      lexeme.found.outcome = .error error.fault := by
    rw [found, ← start, ← same]
    exact outcome_of_mem_errors reported
  rw [start, ← found]
  cases outcome : lexeme.found.outcome with
  | ok content =>
    refine ⟨?_, ?_, fun error reported same => ?_⟩
    · rw [Lexeme.token, Scan.Scanned.kind, outcome]
    · rw [Lexeme.token, Scan.Scanned.value, outcome]
    · cases outcome.symm.trans (here reported same)
  | error fault =>
    refine ⟨?_, ?_, ?_, fun error reported same => ?_⟩
    · rw [Lexeme.token, Scan.Scanned.kind, outcome]
    · rw [Lexeme.token, Scan.Scanned.value, outcome]
    · rw [errors_tokenize]
      refine List.mem_filterMap.mpr ⟨lexeme, lexed, ?_⟩
      rw [Lexeme.error?, Scan.Scanned.fault?, outcome]
      rfl
    · exact (Except.error.inj (outcome.symm.trans (here reported same))).symm

/-- What is told of a token, and where it ends, is what was found where it begins and how large
that is. -/
theorem gives_iff (member : token ∈ (tokenize source mode).tokens)
    (outcome : Except Fault (Kind × Value)) (size : Nat) :
    ((tokenize source mode).Gives token outcome ∧ token.span.stop = token.span.start + size) ↔
      Scan.front (source.drop token.span.start) = ⟨outcome, size⟩ := by
  have given := gives_outcome member
  have stop := stop_eq_of_mem member
  constructor
  · rintro ⟨told, ends⟩
    have sizes := Nat.add_left_cancel (stop.symm.trans ends)
    rw [← given.unique told, ← sizes]
  · intro found
    rw [found] at given stop
    exact ⟨given, stop⟩

/-- The bytes of a token, and those behind it, where what was found is known by its size. -/
theorem text_of_stop {piece behind : List UInt8}
    (bytes : source.drop token.span.start = piece ++ behind)
    (stop : token.span.stop = token.span.start + piece.length) :
    token.stretch.text source = piece ∧ source.drop token.span.stop = behind := by
  constructor
  · rw [Stretch.text, Token.stretch, List.drop_take, stop, Nat.add_sub_cancel_left, bytes,
      List.take_left]
  · rw [stop, ← List.drop_drop, bytes, List.drop_left]

end Lexis
