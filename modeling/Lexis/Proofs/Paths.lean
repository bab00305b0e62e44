/-
This file proves that it does not matter which way a source is read. A source can be read at
once, or by a lexer that is asked for tokens up to the one of the end, or by one that hands
out tokens until it has none; and errors can be kept in a list, or told to whoever listens
at the moment they are found. The loops stop for different reasons, one because a token is
the end and one because the lexer says so. Both take the steps of the same run, and what is
told of a step is its error.

An error is told once for every illegal token and never for another, and it lies where
its token lies.
-/

import Lexis.Proofs.Reports
import Lexis.Proofs.TokenIndex
import Lexis.Session.Report

namespace Lexis

/-- The same error, stamped with the number of another file. -/
def LexError.stamp (file : Nat) (error : LexError) : LexError :=
  { error with span := { error.span with file } }

theorem errors_steps_eq_stamp (source : List UInt8) (mode : PositionMode) (file : Nat) :
    ((Reading.ofSource source).steps mode file).filterMap Step.error =
      (tokenize source mode).errors.map (LexError.stamp file) := by
  rw [Reading.steps_eq_lexemes, errors_tokenize, List.filterMap_map, List.map_filterMap]
  refine List.filterMap_congr fun lexeme _ => ?_
  simp only [Function.comp_apply, Lexeme.step, Lexeme.error?, Option.map_map]
  rfl

namespace Lexer

/-! ### What lies before a lexer -/

/-- The tokens that a lexer has before it, with the end of its source. -/
def tokensAhead (lexer : Lexer) : List Token :=
  (lexer.state.reading.steps lexer.mode lexer.file).map Step.token

/-- The errors that a lexer has before it. -/
def errorsAhead (lexer : Lexer) : List LexError :=
  (lexer.state.reading.steps lexer.mode lexer.file).filterMap Step.error

theorem isEof_nextToken (lexer : Lexer) :
    lexer.nextToken.token.isEof = lexer.state.reading.ended :=
  Bool.eq_iff_iff.mpr (lexer.state.reading.isEof_step_iff lexer.mode lexer.file)

theorem tokensAhead_eq (lexer : Lexer) :
    lexer.tokensAhead = lexer.nextToken.token ::
      if lexer.nextToken.token.isEof then [] else lexer.nextToken.lexer.tokensAhead := by
  rw [isEof_nextToken, tokensAhead, Reading.steps]
  split <;> rfl

theorem errorsAhead_eq (lexer : Lexer) :
    lexer.errorsAhead = lexer.nextToken.error.toList ++
      if lexer.nextToken.token.isEof then [] else lexer.nextToken.lexer.errorsAhead := by
  have first (step : Step) (rest : List Step) : (step :: rest).filterMap Step.error =
      step.error.toList ++ rest.filterMap Step.error := by
    cases found : step.error <;> simp [found]
  rw [isEof_nextToken, errorsAhead, Reading.steps]
  split <;> exact first _ _

theorem tokensAhead_ne_nil (lexer : Lexer) : lexer.tokensAhead ≠ [] := by
  rw [tokensAhead_eq]
  exact List.cons_ne_nil _ _

/-- A lexer that has not handed out the end has not done so behind another token either. -/
theorem unfinished_nextToken {lexer : Lexer} (unfinished : lexer.finished = false)
    (inner : lexer.nextToken.token.isEof = false) : lexer.nextToken.lexer.finished = false := by
  show (lexer.finished || lexer.state.reading.ended) = false
  rw [unfinished, ← isEof_nextToken, inner]
  rfl

theorem rest_nextToken_lt {lexer : Lexer} (inner : lexer.nextToken.token.isEof = false) :
    lexer.nextToken.lexer.state.reading.rest.length < lexer.state.reading.rest.length :=
  Reading.rest_step_lt lexer.mode lexer.file (lexer.isEof_nextToken.symm.trans inner)

/-- What a caller gets who wants no token for the end. -/
theorem next?_of_unfinished {lexer : Lexer} (unfinished : lexer.finished = false) :
    lexer.next? =
      ⟨if lexer.nextToken.token.isEof then none else some lexer.nextToken.token,
        lexer.nextToken.error, lexer.nextToken.lexer⟩ := by
  rw [next?, unfinished]
  rfl

/-- Only a token before the end is handed out, and only while the end is still to come. -/
theorem inner_of_next? {lexer : Lexer} {token : Token} (handed : lexer.next?.token = some token) :
    lexer.finished = false ∧ lexer.nextToken.token.isEof = false := by
  cases finished : lexer.finished with
  | true => simp [next?, finished] at handed
  | false =>
    rw [next?_of_unfinished finished] at handed
    exact ⟨rfl, Bool.eq_false_iff.mpr fun eof => by simp [eof] at handed⟩

/-! ### The loops -/

variable {State : Type} (tell : State → LexError → State)

/-- Asks for tokens up to the one of the end, and tells each error when it is found. -/
def readOut (lexer : Lexer) (state : State) : List Token × State :=
  let answer := lexer.nextToken
  let told := answer.error.toList.foldl tell state
  if answer.token.isEof then ([answer.token], told)
  else
    let later := readOut answer.lexer told
    (answer.token :: later.1, later.2)
termination_by lexer.state.reading.rest.length
decreasing_by
  rename_i inner
  exact rest_nextToken_lt (by simpa using inner)

/-- Takes tokens until none is handed out, and tells each error when it is found. -/
def iterate (lexer : Lexer) (state : State) : List Token × State :=
  let answer := lexer.next?
  let told := answer.error.toList.foldl tell state
  match _handed : answer.token with
  | none => ([], told)
  | some token =>
    let later := iterate answer.lexer told
    (token :: later.1, later.2)
termination_by lexer.state.reading.rest.length
decreasing_by
  obtain ⟨unfinished, inner⟩ := inner_of_next? _handed
  rw [next?_of_unfinished unfinished]
  exact rest_nextToken_lt inner

theorem readOut_eq (lexer : Lexer) (state : State) :
    lexer.readOut tell state = (lexer.tokensAhead, lexer.errorsAhead.foldl tell state) := by
  fun_induction readOut tell lexer state with
  | case1 lexer state answer told eof =>
    rw [tokensAhead_eq, errorsAhead_eq, if_pos eof, if_pos eof, List.append_nil]
  | case2 lexer state answer told inner later inductionHypothesis =>
    rw [tokensAhead_eq, errorsAhead_eq, if_neg inner, if_neg inner, List.foldl_append]
    simp only [later, inductionHypothesis]
    rfl

theorem iterate_eq {lexer : Lexer} (unfinished : lexer.finished = false) (state : State) :
    lexer.iterate tell state =
      (lexer.tokensAhead.dropLast, lexer.errorsAhead.foldl tell state) := by
  have answered := next?_of_unfinished unfinished
  fun_induction iterate tell lexer state with
  | case1 lexer state answer told nothing =>
    -- No token was handed out, and as the end was still to come, it has come now.
    have eof : lexer.nextToken.token.isEof = true := by
      by_contra inner
      rw [show answer = _ from answered, if_neg inner] at nothing
      exact nomatch nothing
    simp only [told, answer, answered]
    rw [tokensAhead_eq, errorsAhead_eq, if_pos eof, if_pos eof, List.append_nil,
      List.dropLast_singleton]
  | case2 lexer state answer told token handed later inductionHypothesis =>
    obtain ⟨-, inner⟩ := inner_of_next? handed
    have goesOn := unfinished_nextToken unfinished inner
    have same : token = lexer.nextToken.token := by
      rw [show answer = _ from answered, inner] at handed
      exact (Option.some.inj handed).symm
    have behind : answer.lexer = lexer.nextToken.lexer := congrArg Answer.lexer answered
    have reported : answer.error = lexer.nextToken.error := congrArg Answer.error answered
    rw [behind] at inductionHypothesis
    simp only [later, behind]
    rw [inductionHypothesis goesOn (next?_of_unfinished goesOn), tokensAhead_eq lexer,
      errorsAhead_eq lexer, inner, List.foldl_append, same, ← reported]
    exact congrArg₂ Prod.mk (List.dropLast_cons_of_ne_nil (tokensAhead_ne_nil _)).symm rfl

theorem drain_eq {lexer : Lexer} (unfinished : lexer.finished = false) :
    lexer.drain.tokens = lexer.tokensAhead.dropLast ∧ lexer.drain.errors = lexer.errorsAhead := by
  fun_induction drain lexer with
  | case1 lexer finished => exact absurd (finished.symm.trans unfinished) (by decide)
  | case2 lexer _ answer ended =>
    have eof := lexer.isEof_nextToken.trans ended
    rw [tokensAhead_eq, errorsAhead_eq, if_pos eof, if_pos eof, List.append_nil]
    exact ⟨rfl, rfl⟩
  | case3 lexer _ answer more inductionHypothesis =>
    have inner := lexer.isEof_nextToken.trans (Bool.eq_false_iff.mpr more)
    obtain ⟨tokens, errors⟩ := inductionHypothesis (unfinished_nextToken unfinished inner)
    rw [tokensAhead_eq lexer, errorsAhead_eq lexer, inner]
    refine ⟨?_, congrArg (answer.error.toList ++ ·) errors⟩
    exact (congrArg (answer.token :: ·) tokens).trans
      (List.dropLast_cons_of_ne_nil (tokensAhead_ne_nil _)).symm

/-- Telling a handler of errors one by one reports them all behind what it holds. -/
theorem foldl_report (errors : List LexError) (handler : Handler) :
    errors.foldl (fun handler error => handler.report error.toDiagnostic) handler =
      ⟨handler.diagnostics ++ errors.map LexError.toDiagnostic⟩ := by
  induction errors generalizing handler with
  | nil => rw [List.foldl_nil, List.map_nil, List.append_nil]
  | cons error rest inductionHypothesis =>
    rw [List.foldl_cons, inductionHypothesis, Handler.report, List.append_assoc, List.map_cons,
      List.singleton_append]

/-- What lies before a lexer at the beginning of a source are the tokens and the errors of the
source, stamped with the number of its file. -/
theorem ahead_ofSource (name : String) (source : List UInt8) (mode : PositionMode) (file : Nat) :
    (ofSource name source mode file).tokensAhead =
        (tokenize source mode).tokens.map (Token.stamp file) ∧
      (ofSource name source mode file).errorsAhead =
        (tokenize source mode).errors.map (LexError.stamp file) :=
  ⟨tokens_steps_eq_stamp source mode file, errors_steps_eq_stamp source mode file⟩

end Lexer

/-! ### Illegal tokens -/

/-- What it means that the errors of a source are those of its illegal tokens. -/
structure Reported (result : Tokens) : Prop where
  /-- There is one error for every illegal token, in the same order, and it lies where the
  token lies. -/
  spans : result.errors.map LexError.span =
    (result.tokens.filter Token.isIllegal).map Token.span
  /-- A token is reported just if it is illegal. -/
  only : ∀ token ∈ result.tokens,
    (∃ error ∈ result.errors, error.span = token.span) ↔ token.isIllegal = true
  /-- An illegal token stands for nothing. -/
  valueless : ∀ token ∈ result.tokens, token.isIllegal = true → token.value = .none

theorem spans_errors_tokenize (source : List UInt8) (mode : PositionMode) :
    (tokenize source mode).errors.map LexError.span =
      ((tokenize source mode).tokens.filter Token.isIllegal).map Token.span := by
  rw [errors_tokenize, tokens_tokenize]
  exact spans_filterMap_error? (fun _ member => member) _ mode 0

/-- No two tokens of a source have one span, unless they have no bytes. -/
theorem eq_of_span_eq {source : List UInt8} {mode : PositionMode} {first second : Token}
    (firstMember : first ∈ (tokenize source mode).tokens)
    (secondMember : second ∈ (tokenize source mode).tokens) (inner : first.isEof = false)
    (same : first.span = second.span) : first = second := by
  -- Of two tokens apart one stops before the other begins; with one span it would be empty.
  have ordered := List.pairwise_iff_getElem.mp (ordered_tokenize source mode)
  obtain ⟨lexeme, lexed, before, start, stop⟩ := exists_lexeme_of_not_isEof firstMember inner
  have nonempty := (Lexeme.bounds_of_mem lexed).2 before
  rw [← start, ← stop] at nonempty
  obtain ⟨index, inside, rfl⟩ := List.getElem_of_mem firstMember
  obtain ⟨other, otherInside, rfl⟩ := List.getElem_of_mem secondMember
  rcases Nat.lt_trichotomy index other with less | rfl | more
  · have behind := ordered index other inside otherInside less
    rw [← same] at behind
    omega
  · rfl
  · have behind := ordered other index otherInside inside more
    rw [← same] at behind
    omega

theorem reported_tokenize (source : List UInt8) (mode : PositionMode) :
    Reported (tokenize source mode) where
  spans := spans_errors_tokenize source mode
  only := by
    intro token member
    have spans : (∃ error ∈ (tokenize source mode).errors, error.span = token.span) ↔
        ∃ illegal ∈ (tokenize source mode).tokens.filter Token.isIllegal,
          illegal.span = token.span := by
      rw [← List.mem_map, ← List.mem_map, spans_errors_tokenize]
    rw [spans]
    constructor
    · rintro ⟨illegal, reported, same⟩
      obtain ⟨inside, found⟩ := List.mem_filter.mp reported
      have inner : illegal.isEof = false := by
        by_contra eof
        rw [Token.legal_of_isEof (Bool.of_not_eq_false eof)] at found
        exact Bool.noConfusion found
      rwa [← eq_of_span_eq inside member inner same]
    · intro illegal
      exact ⟨token, List.mem_filter.mpr ⟨member, illegal⟩, rfl⟩
  valueless := by
    intro token member illegal
    rw [tokens_tokenize] at member
    obtain ⟨lexeme, lexed, rfl⟩ := List.mem_map.mp member
    have faulty := (Lexeme.isSome_error? lexed (.ofSource source) mode 0).trans illegal
    rw [Lexeme.error?, Option.isSome_map] at faulty
    exact Scan.Scanned.value_of_fault faulty

/-- It does not matter which way a source is read. Whatever its bytes are, its errors are
those of its illegal tokens. A lexer that is asked for tokens up to the end hands out all of
them, and one that hands out tokens until it has none leaves out just the end. Both, and
the report on the source, give the same errors in the same order, stamped with the number of
the file; and a handler keeps what it held and gets each of them, once, as a diagnostic. -/
theorem reading_paths_agree (name : String) (source : List UInt8) (mode : PositionMode)
    (file : Nat) (handler : Handler) :
    let result := tokenize source mode
    let lexer := Lexer.ofSource name source mode file
    let errors := result.errors.map (LexError.stamp file)
    let reported : Handler := ⟨handler.diagnostics ++ errors.map LexError.toDiagnostic⟩
    let tell (handler : Handler) (error : LexError) := handler.report error.toDiagnostic
    Reported result ∧
      ∃ before last, result.tokens = before ++ [last] ∧
        (∀ token ∈ before, token.isEof = false) ∧ last.isEof = true ∧
        FileReport.ofSource file ⟨name, source⟩ mode =
          ⟨file, before.map (Token.stamp file), errors⟩ ∧
        lexer.readOut tell handler = (result.tokens.map (Token.stamp file), reported) ∧
        lexer.iterate tell handler = (before.map (Token.stamp file), reported) ∧
        lexer.drainInto handler = (before.map (Token.stamp file), reported) := by
  intro result lexer errors reported tell
  obtain ⟨before, last, split, inner, isEof, -, -⟩ := ends_tokenize source mode
  obtain ⟨tokensAhead, errorsAhead⟩ := Lexer.ahead_ofSource name source mode file
  have handedOut : lexer.tokensAhead.dropLast = before.map (Token.stamp file) := by
    rw [tokensAhead, split, List.map_append, List.map_singleton, List.dropLast_concat]
  have told : lexer.errorsAhead.foldl tell handler = reported := by
    rw [errorsAhead, Lexer.foldl_report]
  obtain ⟨tokens, drained⟩ := Lexer.drain_eq (show lexer.finished = false from rfl)
  rw [handedOut] at tokens
  rw [errorsAhead] at drained
  refine ⟨reported_tokenize source mode, before, last, split, inner, isEof, ?_, ?_, ?_, ?_⟩
  · exact congrArg₂ (FileReport.mk file) tokens drained
  · rw [Lexer.readOut_eq, told, tokensAhead]
  · rw [Lexer.iterate_eq tell rfl, told, handedOut]
  · rw [Lexer.drainInto, tokens, drained, Handler.reportAll]

end Lexis
