/-
This file proves that a lexer is no more than an index into the list of its tokens. A
caller may ask for tokens in either way, take checkpoints and go back to them, in any
order; the replies are those of a machine that holds nothing but the list and an index,
and whatever the lexer shows of itself can be read off the list at the index.

The proof writes the state of a lexer as a function of the index (`stateAt`). One request
takes the state at an index to the state at the index the machine goes to, and the end of
the source is where a further step changes nothing. How many errors were reported is not
part of that state: it is never put back, and follows from the replies alone.
-/

import Lexis.Lexer.Basic
import Lexis.Proofs.Tiling

namespace Lexis

/-! ### Requests -/

/-- What a caller can ask of a lexer. Checkpoints have numbers from zero on, in the order
in which they are taken. -/
inductive Request where
  | nextToken
  | next
  | checkpoint
  | rewind (number : Nat)
  deriving DecidableEq, Repr

/-- The replies to requests one after the other, and the state behind them. -/
def respond {State : Type} (serve : State → Request → Option Token × State) (state : State) :
    List Request → List (Option Token) × State
  | [] => ([], state)
  | request :: rest =>
    let (reply, next) := serve state request
    let (replies, last) := respond serve next rest
    (reply :: replies, last)

/-- A lexer in use, with the checkpoints that were taken on it. -/
structure Client where
  lexer : Lexer
  kept : List Lexer.State

/-- Serves a request. There is no token in the reply to a request that asks for none, and
a number that no checkpoint has changes nothing. -/
def Client.serve (client : Client) : Request → Option Token × Client
  | .nextToken =>
    let answer := client.lexer.nextToken
    (some answer.token, { client with lexer := answer.lexer })
  | .next =>
    let answer := client.lexer.next?
    (answer.token, { client with lexer := answer.lexer })
  | .checkpoint => (none, { client with kept := client.kept ++ [client.lexer.checkpoint] })
  | .rewind number =>
    match client.kept[number]? with
    | some state => (none, { client with lexer := client.lexer.rewind state })
    | none => (none, client)

/-- An index into a list of tokens, with the indices that were kept. -/
structure Pointer where
  index : Nat
  kept : List Nat

namespace Pointer

/-- The token at the index and the index behind it; at the end of the list the last token,
again and again. -/
def nextToken (tokens : List Token) (pointer : Pointer) : Option Token × Pointer :=
  (tokens[min pointer.index (tokens.length - 1)]?,
    { pointer with index := min (pointer.index + 1) tokens.length })

def serve (tokens : List Token) (pointer : Pointer) : Request → Option Token × Pointer
  | .nextToken => pointer.nextToken tokens
  | .next =>
    if pointer.index = tokens.length then (none, pointer)
    else
      let (token, next) := pointer.nextToken tokens
      (token.filter fun token => !token.isEof, next)
  | .checkpoint => (none, { pointer with kept := pointer.kept ++ [pointer.index] })
  | .rewind number =>
    match pointer.kept[number]? with
    | some index => (none, { pointer with index })
    | none => (none, pointer)

theorem nextToken_of_lt {tokens : List Token} {pointer : Pointer}
    (before : pointer.index < tokens.length) :
    pointer.nextToken tokens =
      (tokens[pointer.index]?, { pointer with index := pointer.index + 1 }) := by
  have here : min pointer.index (tokens.length - 1) = pointer.index := by omega
  have next : min (pointer.index + 1) tokens.length = pointer.index + 1 := by omega
  rw [nextToken, here, next]

theorem nextToken_of_eq {tokens : List Token} {pointer : Pointer}
    (last : pointer.index = tokens.length) :
    pointer.nextToken tokens = (tokens[tokens.length - 1]?, pointer) := by
  have here : min pointer.index (tokens.length - 1) = tokens.length - 1 := by omega
  have next : min (pointer.index + 1) tokens.length = pointer.index := by omega
  rw [nextToken, here, next]

end Pointer

/-- Two machines that give the same reply to every request from related states, and go on
to related states, reply alike to all requests. -/
theorem respond_lockstep {First Second : Type}
    {serveFirst : First → Request → Option Token × First}
    {serveSecond : Second → Request → Option Token × Second} (Related : First → Second → Prop)
    (step : ∀ first second request, Related first second →
      (serveFirst first request).1 = (serveSecond second request).1 ∧
        Related (serveFirst first request).2 (serveSecond second request).2)
    {first : First} {second : Second} (related : Related first second)
    (requests : List Request) :
    (respond serveFirst first requests).1 = (respond serveSecond second requests).1 ∧
      Related (respond serveFirst first requests).2 (respond serveSecond second requests).2 := by
  induction requests generalizing first second with
  | nil => exact ⟨rfl, related⟩
  | cons request rest inductionHypothesis =>
    obtain ⟨reply, next⟩ := step first second request related
    obtain ⟨replies, last⟩ := inductionHypothesis next
    exact ⟨congrArg₂ List.cons reply replies, last⟩

/-! ### Reading step by step -/

theorem Token.legal_of_isEof {token : Token} (eof : token.isEof = true) :
    token.isIllegal = false := by
  rw [isEof, decide_eq_true_iff] at eof
  rw [isIllegal, eof]
  rfl

namespace Reading

/-- Where reading stands after a number of steps. -/
def after (reading : Reading) (mode : PositionMode) (file : Nat) : Nat → Reading
  | 0 => reading
  | count + 1 => (reading.step mode file).next.after mode file count

variable {reading : Reading} {mode : PositionMode} {file : Nat}

theorem after_succ (reading : Reading) (mode : PositionMode) (file count : Nat) :
    reading.after mode file (count + 1) =
      ((reading.after mode file count).step mode file).next := by
  induction count generalizing reading with
  | zero => rfl
  | succ count inductionHypothesis => exact inductionHypothesis _

theorem length_steps_pos (reading : Reading) (mode : PositionMode) (file : Nat) :
    0 < (reading.steps mode file).length := by
  rw [steps]
  split <;> exact Nat.succ_pos _

/-- The run of a reading takes its steps one after the other, and it stops at the first
that has nothing left to read. -/
theorem getElem?_steps {index : Nat} (within : index < (reading.steps mode file).length) :
    (reading.steps mode file)[index]? =
        some ((reading.after mode file index).step mode file) ∧
      ((reading.after mode file index).ended = true ↔
        index + 1 = (reading.steps mode file).length) := by
  fun_induction Reading.steps reading mode file generalizing index with
  | case1 reading nothing =>
    obtain rfl : index = 0 := by simpa using within
    exact ⟨rfl, by simpa [after] using nothing⟩
  | case2 reading more inductionHypothesis =>
    cases index with
    | zero =>
      have left := length_steps_pos (reading.step mode file).next mode file
      refine ⟨rfl, ?_⟩
      simp only [after, List.length_cons]
      constructor
      · exact fun nothing => absurd nothing more
      · omega
    | succ index =>
      have within : index < ((reading.step mode file).next.steps mode file).length := by
        simpa using within
      obtain ⟨found, last⟩ := inductionHypothesis within
      refine ⟨by rw [List.getElem?_cons_succ, found]; rfl, ?_⟩
      simpa [after] using last

/-- Where nothing is left, a step leads to a place where the same step is taken again. -/
theorem step_next_of_ended (mode : PositionMode) (file : Nat) (nothing : reading.ended = true) :
    (reading.step mode file).next.step mode file = reading.step mode file := by
  have empty : (reading.skipTrivia mode).rest = [] := List.isEmpty_iff.mp nothing
  have stands : (reading.step mode file).next = reading.skipTrivia mode := by
    rw [next_step, empty]
    rfl
  have skips : (reading.skipTrivia mode).skipTrivia mode = reading.skipTrivia mode := by
    have nothing := Nat.le_zero.mp (Scan.triviaSize_le [])
    rw [skipTrivia, empty, nothing, skip_zero]
  rw [stands]
  unfold step
  rw [skips]

/-- The token of the end comes just where nothing is left. -/
theorem isEof_step_iff (reading : Reading) (mode : PositionMode) (file : Nat) :
    (reading.step mode file).token.isEof = true ↔ reading.ended = true := by
  have eof := Scan.front_kind_eq_eof_iff (reading.rest.drop (Scan.triviaSize reading.rest))
  rw [step_eq_first, ended, List.isEmpty_iff, ← eof]
  exact decide_eq_true_iff

/-- A step reports an error just if its token is illegal. -/
theorem isSome_error_step (reading : Reading) (mode : PositionMode) (file : Nat) :
    (reading.step mode file).error.isSome = (reading.step mode file).token.isIllegal := by
  have illegal :=
    Scan.front_kind_eq_illegal_iff (reading.rest.drop (Scan.triviaSize reading.rest))
  rw [step_eq_first, Bool.eq_iff_iff]
  simp only [Lexeme.step, Lexeme.error?, Lexeme.token, Option.isSome_map, Token.isIllegal]
  exact illegal.symm.trans decide_eq_true_iff.symm

end Reading

/-! ### The state at an index -/

/-- The token before an index. -/
def lastToken (tokens : List Token) (index : Nat) : Option Token :=
  if index = 0 then none else tokens[index - 1]?

/-- The last token before an index that is not illegal. -/
def lastLegal (tokens : List Token) (index : Nat) : Option Token :=
  ((tokens.take index).filter fun token => !token.isIllegal).getLast?

theorem lastToken_succ (tokens : List Token) (index : Nat) :
    lastToken tokens (index + 1) = tokens[index]? := rfl

theorem lastLegal_succ {tokens : List Token} {index : Nat} {token : Token}
    (found : tokens[index]? = some token) :
    lastLegal tokens (index + 1) =
      if token.isIllegal then lastLegal tokens index else some token := by
  unfold lastLegal
  rw [List.take_add_one, found, List.filter_append]
  by_cases illegal : token.isIllegal = true
  · simp [illegal]
  · simp [illegal]

namespace Lexer

/-- The state of a lexer that has handed out a number of tokens, at most as many as there
are. -/
def stateAt (reading : Reading) (mode : PositionMode) (file index : Nat) : State where
  reading := reading.after mode file index
  token := lastToken ((reading.steps mode file).map Step.token) index
  previous := lastLegal ((reading.steps mode file).map Step.token) index
  tokenStart :=
    ((lastToken ((reading.steps mode file).map Step.token) index).map (·.span.start)).getD 0
  finished := index = (reading.steps mode file).length

variable {reading : Reading} {mode : PositionMode} {file : Nat}

/-- Before the end a step leads from the state at an index to that at the next. -/
theorem after_stateAt {index : Nat} (within : index < (reading.steps mode file).length) :
    (stateAt reading mode file index).after ((reading.after mode file index).step mode file) =
      stateAt reading mode file (index + 1) := by
  obtain ⟨found, last⟩ := Reading.getElem?_steps within
  have token : ((reading.steps mode file).map Step.token)[index]? =
      some ((reading.after mode file index).step mode file).token := by
    rw [List.getElem?_map, found]
    rfl
  have notYet : index ≠ (reading.steps mode file).length := by omega
  unfold State.after stateAt
  simp only [lastToken_succ, lastLegal_succ token, token, Reading.after_succ, Option.map_some,
    Option.getD_some, notYet, decide_false, Bool.false_or, State.mk.injEq, true_and]
  rw [Bool.eq_iff_iff, last, decide_eq_true_iff]

/-- Taking the step of the end once more changes nothing. -/
theorem State.after_after {state : State} {step : Step} (legal : step.token.isIllegal = false)
    (nothing : state.reading.ended = true) :
    (state.after step).after step = state.after step := by
  simp [State.after, legal, nothing]

/-- At the end the last step is taken again, and the state stays as it is. -/
theorem after_stateAt_length (reading : Reading) (mode : PositionMode) (file : Nat) :
    let length := (reading.steps mode file).length
    (reading.after mode file length).step mode file =
        (reading.after mode file (length - 1)).step mode file ∧
      (stateAt reading mode file length).after
          ((reading.after mode file length).step mode file) =
        stateAt reading mode file length := by
  intro length
  have positive := Reading.length_steps_pos reading mode file
  have before : length - 1 < length := Nat.sub_lt positive Nat.one_pos
  have next : length - 1 + 1 = length := Nat.sub_add_cancel positive
  have nothing := ((Reading.getElem?_steps before).2).mpr next
  have again := Reading.step_next_of_ended mode file nothing
  rw [← Reading.after_succ, next] at again
  have legal := Token.legal_of_isEof ((Reading.isEof_step_iff _ mode file).mpr nothing)
  refine ⟨again, ?_⟩
  rw [again]
  nth_rewrite 1 [← next]
  rw [← after_stateAt before, State.after_after legal nothing, after_stateAt before, next]

end Lexer

/-! ### Lexers in use -/

/-- A lexer in use that stands where an index points, and whose checkpoints stand where
the kept indices do. -/
structure Follows (reading : Reading) (mode : PositionMode) (file : Nat) (client : Client)
    (pointer : Pointer) : Prop where
  sameMode : client.lexer.mode = mode
  sameFile : client.lexer.file = file
  within : pointer.index ≤ (reading.steps mode file).length
  state : client.lexer.state = Lexer.stateAt reading mode file pointer.index
  keptWithin : ∀ index ∈ pointer.kept, index ≤ (reading.steps mode file).length
  kept : client.kept = pointer.kept.map (Lexer.stateAt reading mode file)

namespace Follows

variable {reading : Reading} {mode : PositionMode} {file : Nat} {client : Client}
  {pointer : Pointer}

/-- The next token is the one at the index, and the lexer goes on with the index. -/
theorem nextToken (follows : Follows reading mode file client pointer) :
    let answer := pointer.nextToken ((reading.steps mode file).map Step.token)
    some client.lexer.nextToken.token = answer.1 ∧
      Follows reading mode file { client with lexer := client.lexer.nextToken.lexer } answer.2 := by
  obtain ⟨rfl, rfl, within, state, keptWithin, kept⟩ := follows
  have place : client.lexer.state.reading =
      reading.after client.lexer.mode client.lexer.file pointer.index := by
    rw [state]
    rfl
  have length : ((reading.steps client.lexer.mode client.lexer.file).map Step.token).length =
      (reading.steps client.lexer.mode client.lexer.file).length := List.length_map _
  rcases Nat.lt_or_eq_of_le within with before | last
  · obtain ⟨found, -⟩ := Reading.getElem?_steps before
    rw [Pointer.nextToken_of_lt (before.trans_eq length.symm)]
    refine ⟨?_, rfl, rfl, before, ?_, keptWithin, kept⟩
    · rw [List.getElem?_map, found, Option.map_some, Lexer.nextToken, place]
    · rw [Lexer.nextToken, place, state, Lexer.after_stateAt before]
  · obtain ⟨again, stays⟩ :=
      Lexer.after_stateAt_length reading client.lexer.mode client.lexer.file
    have positive := Reading.length_steps_pos reading client.lexer.mode client.lexer.file
    obtain ⟨found, -⟩ := Reading.getElem?_steps (Nat.sub_lt positive Nat.one_pos)
    rw [Pointer.nextToken_of_eq (last.trans length.symm)]
    refine ⟨?_, rfl, rfl, within, ?_, keptWithin, kept⟩
    · rw [length, List.getElem?_map, found, Option.map_some, Lexer.nextToken, place, last, again]
    · rw [Lexer.nextToken, place, state, last, stays]

theorem finished_iff (follows : Follows reading mode file client pointer) :
    client.lexer.finished = true ↔ pointer.index = (reading.steps mode file).length := by
  rw [Lexer.finished, follows.state]
  exact decide_eq_true_iff

/-- One request: the same reply, and the lexer still stands where the index points. -/
theorem serve (follows : Follows reading mode file client pointer) (request : Request) :
    let answer := pointer.serve ((reading.steps mode file).map Step.token) request
    (client.serve request).1 = answer.1 ∧
      Follows reading mode file (client.serve request).2 answer.2 := by
  cases request with
  | nextToken => exact follows.nextToken
  | next =>
    obtain ⟨token, goesOn⟩ := follows.nextToken
    have finished := follows.finished_iff
    by_cases last : pointer.index = (reading.steps mode file).length
    · simp only [Client.serve, Lexer.next?, Pointer.serve, List.length_map, finished.mpr last,
        last, if_true]
      exact ⟨trivial, follows⟩
    · have notYet : client.lexer.finished = false := Bool.eq_false_iff.mpr (last ∘ finished.mp)
      simp only [Client.serve, Lexer.next?, Pointer.serve, List.length_map, notYet, last,
        Bool.false_eq_true, if_false]
      refine ⟨?_, goesOn⟩
      rw [← token, Option.filter_some]
      cases client.lexer.nextToken.token.isEof <;> rfl
  | checkpoint =>
    refine ⟨rfl, follows.sameMode, follows.sameFile, follows.within, follows.state, ?_, ?_⟩
    · intro index member
      rcases List.mem_append.mp member with earlier | new
      · exact follows.keptWithin index earlier
      · exact List.mem_singleton.mp new ▸ follows.within
    · simp only [Client.serve, Pointer.serve, Lexer.checkpoint, List.map_append,
        List.map_singleton]
      rw [follows.kept, follows.state]
  | rewind number =>
    have same : client.kept[number]? =
        pointer.kept[number]?.map (Lexer.stateAt reading mode file) := by
      rw [follows.kept, List.getElem?_map]
    cases taken : pointer.kept[number]? with
    | none =>
      simp only [Client.serve, Pointer.serve, same, taken, Option.map_none]
      exact ⟨trivial, follows⟩
    | some index =>
      simp only [Client.serve, Pointer.serve, same, taken, Option.map_some]
      exact ⟨trivial, follows.sameMode, follows.sameFile,
        follows.keptWithin index (List.mem_of_getElem? taken), rfl, follows.keptWithin,
        follows.kept⟩

end Follows

/-! ### What a lexer shows -/

/-- Everything a lexer shows of itself, read off its tokens at an index. -/
structure Shows (tokens : List Token) (index : Nat) (lexer : Lexer) : Prop where
  within : index ≤ tokens.length
  token : lexer.state.token = lastToken tokens index
  previous : lexer.state.previous = lastLegal tokens index
  position : lexer.position.offset = ((lastToken tokens index).map (·.span.stop)).getD 0
  tokenStart : lexer.state.tokenStart = ((lastToken tokens index).map (·.span.start)).getD 0
  finished : lexer.finished = true ↔ index = tokens.length

/-- A step leaves reading at the end of its token. -/
theorem Reading.place_offset_next_step (reading : Reading) (mode : PositionMode) (file : Nat) :
    (reading.step mode file).next.place.offset = (reading.step mode file).token.span.stop := by
  have stop := Lexeme.first_stop_le reading.rest
  have start : (Lexeme.first reading.rest).offset ≤ reading.rest.length :=
    (Nat.le_add_right _ _).trans stop
  rw [step_eq_first]
  show (reading.skip mode (Lexeme.first reading.rest).stop).place.offset =
    (reading.skip mode (Lexeme.first reading.rest).offset).place.offset +
      (Lexeme.first reading.rest).found.size
  rw [place_offset_skip _ _ stop, place_offset_skip _ _ start, Lexeme.stop, Nat.add_assoc]

theorem Follows.shows {reading : Reading} {mode : PositionMode} {file : Nat} {client : Client}
    {pointer : Pointer} (follows : Follows reading mode file client pointer)
    (begins : reading.place.offset = 0) :
    Shows ((reading.steps mode file).map Step.token) pointer.index client.lexer := by
  have finished := follows.finished_iff
  obtain ⟨-, -, within, state, -, -⟩ := follows
  refine ⟨?_, ?_, ?_, ?_, ?_, ?_⟩
  · rwa [List.length_map]
  · rw [state]
    rfl
  · rw [state]
    rfl
  · rw [Lexer.position, state]
    show (reading.after mode file pointer.index).place.offset = _
    cases place : pointer.index with
    | zero => exact begins
    | succ index =>
      have before : index < (reading.steps mode file).length := by omega
      obtain ⟨found, -⟩ := Reading.getElem?_steps before
      rw [lastToken_succ, List.getElem?_map, found, Reading.after_succ,
        Reading.place_offset_next_step]
      rfl
  · rw [state]
    rfl
  · rw [List.length_map]
    exact finished

/-- Every reply counts its illegal token, if it has one, and nothing ever takes it back. -/
theorem Client.errorCount_serve (client : Client) (request : Request) :
    (client.serve request).2.lexer.errorCount =
      client.lexer.errorCount +
        if (client.serve request).1.any Token.isIllegal then 1 else 0 := by
  have nextToken : client.lexer.nextToken.lexer.errorCount =
      client.lexer.errorCount + if client.lexer.nextToken.token.isIllegal then 1 else 0 := by
    have reported :=
      Reading.isSome_error_step client.lexer.state.reading client.lexer.mode client.lexer.file
    simp only [Lexer.nextToken, ← reported]
    cases (client.lexer.state.reading.step client.lexer.mode client.lexer.file).error <;> rfl
  cases request with
  | nextToken => exact nextToken
  | next =>
    simp only [Client.serve, Lexer.next?]
    by_cases finished : client.lexer.finished = true
    · simp [finished]
    · simp only [finished, Bool.false_eq_true, if_false, nextToken]
      by_cases eof : client.lexer.nextToken.token.isEof = true
      · simp [eof, Token.legal_of_isEof eof]
      · simp [eof]
  | checkpoint => rfl
  | rewind number =>
    cases taken : client.kept[number]? with
    | none => simp [Client.serve, taken]
    | some state => simp [Client.serve, taken, Lexer.rewind]

theorem Client.errorCount_respond (client : Client) (requests : List Request) :
    (respond Client.serve client requests).2.lexer.errorCount =
      client.lexer.errorCount +
        (respond Client.serve client requests).1.countP (·.any Token.isIllegal) := by
  induction requests generalizing client with
  | nil => rfl
  | cons request rest inductionHypothesis =>
    have step := client.errorCount_serve request
    have later := inductionHypothesis (client.serve request).2
    simp only [respond, List.countP_cons]
    rw [later, step]
    omega

/-- The same token, stamped with the number of another file. -/
def Token.stamp (file : Nat) (token : Token) : Token :=
  { token with span := { token.span with file } }

theorem tokens_steps_eq_stamp (source : List UInt8) (mode : PositionMode) (file : Nat) :
    ((Reading.ofSource source).steps mode file).map Step.token =
      (tokenize source mode).tokens.map (Token.stamp file) := by
  rw [Reading.steps_eq_lexemes, tokens_tokenize, List.map_map, List.map_map]
  rfl

/-- A lexer is an index into its tokens: whatever a caller asks of it, in whatever order,
the replies are those of the index, it shows what the tokens at the index say, and it has
counted every illegal token that it ever handed out. -/
theorem lexer_follows_index (name : String) (source : List UInt8) (mode : PositionMode)
    (file : Nat) (requests : List Request) :
    let tokens := (tokenize source mode).tokens.map (Token.stamp file)
    let used := respond Client.serve ⟨.ofSource name source mode file, []⟩ requests
    let indexed := respond (Pointer.serve tokens) ⟨0, []⟩ requests
    used.1 = indexed.1 ∧ Shows tokens indexed.2.index used.2.lexer ∧
      used.2.lexer.errorCount = used.1.countP (·.any Token.isIllegal) := by
  intro tokens used indexed
  have tokensEq : ((Reading.ofSource source).steps mode file).map Step.token = tokens :=
    tokens_steps_eq_stamp source mode file
  have starts : Follows (.ofSource source) mode file ⟨.ofSource name source mode file, []⟩
      ⟨0, []⟩ := by
    have positive := Reading.length_steps_pos (.ofSource source) mode file
    refine ⟨rfl, rfl, Nat.zero_le _, ?_, by simp, rfl⟩
    simp only [Lexer.stateAt, positive.ne, decide_false]
    rfl
  obtain ⟨replies, follows⟩ := respond_lockstep (Follows (.ofSource source) mode file)
    (fun client pointer request follows => follows.serve request) starts requests
  rw [tokensEq] at replies follows
  have shown := follows.shows rfl
  rw [tokensEq] at shown
  refine ⟨replies, shown, ?_⟩
  exact (Client.errorCount_respond _ requests).trans (Nat.zero_add _)

end Lexis
