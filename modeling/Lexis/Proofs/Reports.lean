/-
This file ties the errors of a source to its tokens: there is one for every illegal token,
in the same order and with the same span. So the errors of the first tokens are the first
errors, as many as there are illegal ones among them.
-/

import Lexis.Proofs.Tiling

namespace Lexis

/-- The errors of the first tokens of a source. -/
def Tokens.errorsUpTo (result : Tokens) (count : Nat) : List LexError :=
  result.errors.take ((result.tokens.take count).countP Token.isIllegal)

/-- The errors of the tokens behind the first. -/
def Tokens.errorsFrom (result : Tokens) (count : Nat) : List LexError :=
  result.errors.drop ((result.tokens.take count).countP Token.isIllegal)

/-- A lexeme of a source reports an error just if its token is illegal. -/
theorem Lexeme.isSome_error? {source : List UInt8} {lexeme : Lexeme}
    (member : lexeme ∈ lexemes source) (reading : Reading) (mode : PositionMode) (file : Nat) :
    (lexeme.error? reading mode file).isSome = (lexeme.token reading mode file).isIllegal := by
  have illegal := Scan.front_kind_eq_illegal_iff (source.drop lexeme.offset)
  rw [← (mem_lexemes member).2] at illegal
  rw [Bool.eq_iff_iff, error?, Option.isSome_map]
  exact illegal.symm.trans decide_eq_true_iff.symm

/-- An error has the span of its token. -/
theorem Lexeme.span_error? {lexeme : Lexeme} {reading : Reading} {mode : PositionMode}
    {file : Nat} {error : LexError} (reported : lexeme.error? reading mode file = some error) :
    error.span = (lexeme.token reading mode file).span := by
  obtain ⟨fault, -, rfl⟩ := Option.map_eq_some_iff.mp reported
  rfl

/-- Lexemes of a source report as many errors as they have illegal tokens, each with
the span of its token. -/
theorem spans_filterMap_error? {source : List UInt8} {part : List Lexeme}
    (members : ∀ lexeme ∈ part, lexeme ∈ lexemes source) (reading : Reading)
    (mode : PositionMode) (file : Nat) :
    (part.filterMap fun lexeme => lexeme.error? reading mode file).map LexError.span =
      ((part.map fun lexeme => lexeme.token reading mode file).filter Token.isIllegal).map
        Token.span := by
  induction part with
  | nil => rfl
  | cons lexeme rest inductionHypothesis =>
    obtain ⟨member, later⟩ := List.forall_mem_cons.mp members
    have reports := Lexeme.isSome_error? member reading mode file
    have tail := inductionHypothesis later
    cases reported : lexeme.error? reading mode file with
    | none =>
      rw [reported, Option.isSome_none] at reports
      simp only [List.filterMap_cons, reported, List.map_cons, List.filter_cons, ← reports,
        Bool.false_eq_true, if_false]
      exact tail
    | some error =>
      rw [reported, Option.isSome_some] at reports
      simp only [List.filterMap_cons, reported, List.map_cons, List.filter_cons, ← reports,
        if_true]
      rw [Lexeme.span_error? reported, tail]

variable (source : List UInt8) (mode : PositionMode) (count : Nat)

/-- The first lexemes report the first errors. -/
theorem errors_eq_append :
    (tokenize source mode).errors =
        (((lexemes source).take count).filterMap
          fun lexeme => lexeme.error? (.ofSource source) mode 0) ++
        (((lexemes source).drop count).filterMap
          fun lexeme => lexeme.error? (.ofSource source) mode 0) ∧
      (((lexemes source).take count).filterMap
          fun lexeme => lexeme.error? (.ofSource source) mode 0).length =
        ((tokenize source mode).tokens.take count).countP Token.isIllegal := by
  constructor
  · rw [errors_tokenize, ← List.filterMap_append, List.take_append_drop]
  · have members : ∀ lexeme ∈ (lexemes source).take count, lexeme ∈ lexemes source :=
      fun _ => List.mem_of_mem_take
    have spans := congrArg List.length
      (spans_filterMap_error? members (.ofSource source) mode 0)
    rw [List.length_map, List.length_map] at spans
    rw [spans, tokens_tokenize, ← List.map_take, List.countP_eq_length_filter]

theorem errorsUpTo_tokenize :
    (tokenize source mode).errorsUpTo count =
      ((lexemes source).take count).filterMap
        fun lexeme => lexeme.error? (.ofSource source) mode 0 := by
  obtain ⟨split, length⟩ := errors_eq_append source mode count
  rw [Tokens.errorsUpTo, ← length]
  nth_rewrite 1 [split]
  exact List.take_left

theorem errorsFrom_tokenize :
    (tokenize source mode).errorsFrom count =
      ((lexemes source).drop count).filterMap
        fun lexeme => lexeme.error? (.ofSource source) mode 0 := by
  obtain ⟨split, length⟩ := errors_eq_append source mode count
  rw [Tokens.errorsFrom, ← length]
  nth_rewrite 1 [split]
  exact List.drop_left

/-- The errors of the first tokens are those of the illegal ones among them. -/
theorem spans_errorsUpTo :
    ((tokenize source mode).errorsUpTo count).map LexError.span =
      (((tokenize source mode).tokens.take count).filter Token.isIllegal).map Token.span := by
  rw [errorsUpTo_tokenize, tokens_tokenize, ← List.map_take]
  exact spans_filterMap_error? (fun _ => List.mem_of_mem_take) _ mode 0

/-- The errors of the tokens behind the first are those of the illegal ones among them. -/
theorem spans_errorsFrom :
    ((tokenize source mode).errorsFrom count).map LexError.span =
      (((tokenize source mode).tokens.drop count).filter Token.isIllegal).map Token.span := by
  rw [errorsFrom_tokenize, tokens_tokenize, ← List.map_drop]
  exact spans_filterMap_error? (fun _ => List.mem_of_mem_drop) _ mode 0

end Lexis
