/-
This file proves that a lexer always comes to the end of its source, from whatever state a caller
has brought it into. What is preserved by every command, going back to a kept state included, is
that reading stands at an offset of the source with the bytes from there on before it. Every token
before the end takes a byte at least, so a caller who does not go back can count the bytes that are
left, and needs as many requests and one more.

At the end nothing moves any more. The same token of the end is handed out again and again, in
either mode, and only its file follows the lexer, until a kept state is put back.
-/

import Lexis.Proofs.Modes

namespace Lexis

/-! ### Commands -/

/-- What a caller can do with a lexer. -/
inductive Command where
  | request (request : Request)
  | setMode (mode : PositionMode)
  | setFile (file : Nat)
  deriving DecidableEq, Repr

namespace Command

/-- Whether a token is asked for. -/
def asks : Command → Bool
  | request .nextToken | request .next => true
  | _ => false

/-- Whether a kept state is put back. -/
def rewinds : Command → Bool
  | request (.rewind _) => true
  | _ => false

end Command

namespace Client

/-- Carries out a command. There is no token in the reply to a change. -/
def perform (client : Client) : Command → Option Token × Client
  | .request request => client.serve request
  | .setMode mode => (none, { client with lexer := client.lexer.setMode mode })
  | .setFile file => (none, { client with lexer := client.lexer.setFile file })

/-- The client behind a number of commands. -/
def behind (client : Client) (commands : List Command) : Client :=
  commands.foldl (fun client command => (client.perform command).2) client

/-- Whether a command asks for a token and is told that there is none left: it gets the token of
the end, or no token. -/
def tellsEnd (client : Client) (command : Command) : Bool :=
  command.asks && (client.perform command).1.all Token.isEof

end Client

/-! ### Where a lexer can stand -/

/-- A state that stands in a source. That the end has been handed out is remembered only there. -/
structure Lexer.State.StandsIn (source : List UInt8) (state : State) : Prop where
  inside : state.reading.place.offset ≤ source.length
  rest : state.reading.rest = source.drop state.reading.place.offset
  finished : state.finished = true → state.reading.place.offset = source.length

/-- A client whose lexer stands in a source, and whose kept states all stand in it. -/
structure Client.StandsIn (source : List UInt8) (client : Client) : Prop where
  state : client.lexer.state.StandsIn source
  kept : ∀ state ∈ client.kept, state.StandsIn source

/-- Where no byte is left, nothing is skipped. -/
theorem Reading.ended_of_rest {reading : Reading} (empty : reading.rest = [])
    (mode : PositionMode) : reading.ended = true ∧ reading.skipTrivia mode = reading := by
  have nothing : Scan.triviaSize reading.rest = 0 := by
    rw [empty]
    exact Nat.le_zero.mp (Scan.triviaSize_le [])
  constructor
  · rw [ended, empty, List.drop_nil]
    rfl
  · rw [skipTrivia, nothing, skip_zero]

namespace Lexer

variable {source : List UInt8} {lexer : Lexer} {state : State} {place : Position} {errors : Nat}

/-! ### At the end -/

/-- What it means that a lexer has come to the end of its source: no byte is left behind its place,
and the end has been handed out. -/
structure RestsAt (place : Position) (errors : Nat) (lexer : Lexer) : Prop where
  reading : lexer.state.reading = ⟨place, []⟩
  finished : lexer.finished = true
  errorCount : lexer.errorCount = errors

/-- Where nothing is left but what is skipped, the end is handed out without an error. -/
theorem nextToken_of_ended (ended : lexer.state.reading.ended = true) :
    lexer.nextToken.token =
        ⟨.eof, .none, Span.ofPlace lexer.nextToken.lexer.position 0 lexer.file⟩ ∧
      lexer.nextToken.error = none ∧
      lexer.nextToken.lexer.RestsAt lexer.nextToken.lexer.position lexer.errorCount := by
  have empty : (lexer.state.reading.skipTrivia lexer.mode).rest = [] := List.isEmpty_iff.mp ended
  have step : lexer.state.reading.step lexer.mode lexer.file =
      ⟨⟨.eof, .none, Span.ofPlace (lexer.state.reading.skipTrivia lexer.mode).place 0 lexer.file⟩,
        none, lexer.state.reading.skipTrivia lexer.mode⟩ := by
    rw [Reading.step, empty]
    rfl
  have next : lexer.nextToken.lexer.state.reading =
      lexer.state.reading.skipTrivia lexer.mode := congrArg Step.next step
  refine ⟨?_, congrArg Step.error step, ?_, ?_, ?_⟩
  · rw [position, next]
    exact congrArg Step.token step
  · rw [position, next, ← empty]
  · exact (Bool.or_eq_true _ _).mpr (.inr ended)
  · exact congrArg (lexer.errorCount + ·.error.toList.length) step

namespace RestsAt

theorem position (rests : lexer.RestsAt place errors) : lexer.position = place :=
  congrArg Reading.place rests.reading

/-- At the end a request changes nothing, and gets the token of the end. -/
theorem nextToken (rests : lexer.RestsAt place errors) :
    lexer.nextToken.token = ⟨.eof, .none, Span.ofPlace place 0 lexer.file⟩ ∧
      lexer.nextToken.error = none ∧ lexer.nextToken.lexer.RestsAt place errors := by
  obtain ⟨reading, finished, errorCount⟩ := rests
  have empty : lexer.state.reading.rest = [] := congrArg Reading.rest reading
  obtain ⟨ended, skips⟩ := Reading.ended_of_rest empty lexer.mode
  obtain ⟨token, silent, again⟩ := nextToken_of_ended ended
  have stays : lexer.nextToken.lexer.position = place := by
    have step := Reading.next_step lexer.state.reading lexer.mode lexer.file
    rw [skips, empty] at step
    exact (congrArg Reading.place step).trans (congrArg Reading.place reading)
  rw [stays] at token again
  rw [errorCount] at again
  exact ⟨token, silent, again⟩

theorem next? (rests : lexer.RestsAt place errors) : lexer.next? = ⟨none, none, lexer⟩ := by
  rw [Lexer.next?, rests.finished]
  rfl

end RestsAt

/-! ### Requests -/

namespace State.StandsIn

theorem length_rest (stands : state.StandsIn source) :
    state.reading.rest.length = source.length - state.reading.place.offset := by
  rw [stands.rest, List.length_drop]

theorem rest_of_finished (stands : state.StandsIn source) (finished : state.finished = true) :
    state.reading.rest = [] := by
  rw [stands.rest, stands.finished finished, List.drop_length]

end State.StandsIn

/-- A request for a token leads to a state that stands in the source. -/
theorem standsIn_nextToken (stands : lexer.state.StandsIn source) :
    lexer.nextToken.lexer.state.StandsIn source := by
  have stop := Lexeme.first_stop_le lexer.state.reading.rest
  have size := stands.length_rest
  have inside := stands.inside
  have offset : lexer.nextToken.lexer.state.reading.place.offset =
      lexer.state.reading.place.offset + (Lexeme.first lexer.state.reading.rest).stop := by
    rw [reading_nextToken, Reading.place_offset_skip _ _ stop]
  have rest : lexer.nextToken.lexer.state.reading.rest =
      source.drop lexer.nextToken.lexer.state.reading.place.offset := by
    rw [offset, reading_nextToken, Reading.skip, stands.rest, List.drop_drop]
  refine ⟨by omega, rest, fun finished => ?_⟩
  have ended : lexer.state.reading.ended = true := by
    rcases (Bool.or_eq_true _ _).mp finished with before | now
    · exact (Reading.ended_of_rest (stands.rest_of_finished before) lexer.mode).1
    · exact now
  have nothing : lexer.nextToken.lexer.state.reading.rest = [] :=
    congrArg Reading.rest (nextToken_of_ended ended).2.2.reading
  rw [rest, List.drop_eq_nil_iff] at nothing
  omega

theorem standsIn_next? (stands : lexer.state.StandsIn source) :
    lexer.next?.lexer.state.StandsIn source := by
  cases finished : lexer.finished with
  | true => rwa [next?, finished]
  | false =>
    rw [next?_of_unfinished finished]
    exact standsIn_nextToken stands

/-- A request leads to the end of the source, or behind a token with a byte at least. -/
theorem offset_nextToken (stands : lexer.state.StandsIn source) :
    lexer.nextToken.lexer.position.offset = lexer.nextToken.token.span.stop ∧
      if lexer.nextToken.token.isEof then
        lexer.nextToken.lexer.position.offset = source.length
      else lexer.position.offset < lexer.nextToken.token.span.stop := by
  have stop : lexer.nextToken.lexer.position.offset = lexer.nextToken.token.span.stop :=
    Reading.place_offset_next_step _ _ _
  have next := standsIn_nextToken stands
  refine ⟨stop, ?_⟩
  split
  · rename_i eof
    rw [isEof_nextToken] at eof
    have finished : lexer.nextToken.lexer.state.finished = true :=
      (Bool.or_eq_true _ _).mpr (.inr eof)
    exact next.finished finished
  · rename_i inner
    have shorter := rest_nextToken_lt (Bool.eq_false_iff.mpr inner)
    rw [stands.length_rest, next.length_rest] at shorter
    rw [← stop, position, position]
    omega

/-- A lexer hands out no token, or it goes on behind one that is not the end. -/
theorem next?_cases (lexer : Lexer) :
    lexer.next?.token = none ∨
      lexer.next?.token.all Token.isEof = false ∧
        lexer.next?.lexer.state.reading.rest.length < lexer.state.reading.rest.length := by
  cases handed : lexer.next?.token with
  | none => exact .inl rfl
  | some token =>
    obtain ⟨unfinished, inner⟩ := inner_of_next? handed
    rw [next?_of_unfinished unfinished, inner] at handed
    obtain rfl := Option.some.inj handed
    refine .inr ⟨inner, ?_⟩
    rw [next?_of_unfinished unfinished]
    exact rest_nextToken_lt inner

/-- A lexer that hands out no token has come to the end, now or before. -/
theorem restsAt_next? (stands : lexer.state.StandsIn source) (nothing : lexer.next?.token = none) :
    lexer.state.reading.ended = true ∧
      lexer.next?.lexer.RestsAt lexer.nextToken.lexer.position lexer.errorCount := by
  cases finished : lexer.finished with
  | true =>
    have empty := stands.rest_of_finished finished
    have reading : lexer.state.reading = ⟨lexer.position, []⟩ := by
      rw [← empty]
      rfl
    have rests : lexer.RestsAt lexer.position lexer.errorCount := ⟨reading, finished, rfl⟩
    refine ⟨(Reading.ended_of_rest empty lexer.mode).1, ?_⟩
    rw [rests.next?, rests.nextToken.2.2.position]
    exact rests
  | false =>
    rw [next?_of_unfinished finished] at nothing ⊢
    have ended : lexer.state.reading.ended = true := by
      by_contra more
      rw [if_neg (lexer.isEof_nextToken ▸ more)] at nothing
      cases nothing
    exact ⟨ended, (nextToken_of_ended ended).2.2⟩

end Lexer

namespace Client

variable {source : List UInt8} {client : Client} {place : Position} {errors : Nat}

/-! ### Every command stays in the source -/

/-- Every command, whatever it is, leads to a client that stands in the source. -/
theorem StandsIn.perform (stands : client.StandsIn source) (command : Command) :
    (client.perform command).2.StandsIn source := by
  obtain ⟨state, kept⟩ := stands
  match command with
  | .request .nextToken => exact ⟨Lexer.standsIn_nextToken state, kept⟩
  | .request .next => exact ⟨Lexer.standsIn_next? state, kept⟩
  | .request .checkpoint =>
    refine ⟨state, fun other member => ?_⟩
    rcases List.mem_append.mp member with earlier | new
    · exact kept other earlier
    · exact List.mem_singleton.mp new ▸ state
  | .request (.rewind number) =>
    unfold Client.perform Client.serve
    dsimp only
    split
    · rename_i other taken
      exact ⟨kept other (List.mem_of_getElem? taken), kept⟩
    · exact ⟨state, kept⟩
  | .setMode mode => exact ⟨state, kept⟩
  | .setFile file => exact ⟨state, kept⟩

theorem StandsIn.behind (stands : client.StandsIn source) (commands : List Command) :
    (client.behind commands).StandsIn source := by
  induction commands generalizing client with
  | nil => exact stands
  | cons command rest inductionHypothesis => exact inductionHypothesis (stands.perform command)

/-! ### The end is reached -/

/-- A command that does not go back leaves no more bytes than there were, and fewer if it asks for
a token and gets one. -/
theorem length_rest_perform {command : Command} (forward : command.rewinds = false)
    (inner : client.tellsEnd command = false) :
    (client.perform command).2.lexer.state.reading.rest.length +
        (if command.asks then 1 else 0) ≤ client.lexer.state.reading.rest.length := by
  match command with
  | .request .nextToken => exact Lexer.rest_nextToken_lt inner
  | .request .next =>
    have handed : client.lexer.next?.token.all Token.isEof = false := inner
    rcases client.lexer.next?_cases with nothing | ⟨-, shorter⟩
    · rw [nothing] at handed
      cases handed
    · exact shorter
  | .request .checkpoint => exact le_rfl
  | .setMode mode => exact le_rfl
  | .setFile file => exact le_rfl

/-- A caller who does not go back, and asks more often than there are bytes left, is told of the
end. -/
theorem exists_tellsEnd {later : List Command}
    (forward : ∀ command ∈ later, command.rewinds = false)
    (many : client.lexer.state.reading.rest.length < later.countP Command.asks) :
    ∃ earlier ask, earlier ++ [ask] <+: later ∧ (client.behind earlier).tellsEnd ask = true := by
  induction later generalizing client with
  | nil => exact absurd many (Nat.not_lt_zero _)
  | cons command rest inductionHypothesis =>
    obtain ⟨first, others⟩ := List.forall_mem_cons.mp forward
    cases told : client.tellsEnd command with
    | true => exact ⟨[], command, ⟨rest, rfl⟩, told⟩
    | false =>
      have fewer := length_rest_perform first told
      rw [List.countP_cons] at many
      obtain ⟨earlier, ask, asked, ends⟩ :=
        @inductionHypothesis (client.perform command).2 others (by omega)
      exact ⟨command :: earlier, ask, (List.prefix_cons_inj command).mpr asked, ends⟩

/-! ### The end stays -/

/-- A client that is told of the end has a lexer that rests there. -/
theorem restsAt_of_tellsEnd (stands : client.StandsIn source) {ask : Command}
    (told : client.tellsEnd ask = true) :
    client.lexer.state.reading.ended = true ∧
      (client.perform ask).2.lexer.RestsAt client.lexer.nextToken.lexer.position
        client.lexer.errorCount := by
  obtain ⟨asks, replied⟩ := (Bool.and_eq_true _ _).mp told
  match ask with
  | .request .nextToken =>
    have ended := client.lexer.isEof_nextToken.symm.trans replied
    exact ⟨ended, (Lexer.nextToken_of_ended ended).2.2⟩
  | .request .next =>
    have handed : client.lexer.next?.token.all Token.isEof = true := replied
    rcases client.lexer.next?_cases with nothing | ⟨inner, -⟩
    · exact Lexer.restsAt_next? stands.state nothing
    · rw [inner] at handed
      cases handed

/-- At the end no command but going back moves the lexer or reports an error. -/
theorem restsAt_perform (rests : client.lexer.RestsAt place errors) {command : Command}
    (forward : command.rewinds = false) :
    (client.perform command).2.lexer.RestsAt place errors := by
  match command with
  | .request .nextToken => exact rests.nextToken.2.2
  | .request .next =>
    show client.lexer.next?.lexer.RestsAt _ _
    rw [rests.next?]
    exact rests
  | .request .checkpoint => exact rests
  | .setMode mode => exact ⟨rests.reading, rests.finished, rests.errorCount⟩
  | .setFile file => exact ⟨rests.reading, rests.finished, rests.errorCount⟩

theorem restsAt_behind (rests : client.lexer.RestsAt place errors) {later : List Command}
    (forward : ∀ command ∈ later, command.rewinds = false) :
    (client.behind later).lexer.RestsAt place errors := by
  induction later generalizing client with
  | nil => exact rests
  | cons command rest inductionHypothesis =>
    obtain ⟨first, others⟩ := List.forall_mem_cons.mp forward
    exact inductionHypothesis (restsAt_perform rests first) others

/-- Only one command changes the file that tokens are stamped with. -/
theorem file_perform {command : Command} (same : ∀ file, command ≠ .setFile file) :
    (client.perform command).2.lexer.file = client.lexer.file := by
  match command with
  | .request .nextToken => rfl
  | .request .next =>
    show client.lexer.next?.lexer.file = _
    rw [Lexer.next?]
    split <;> rfl
  | .request .checkpoint => rfl
  | .request (.rewind number) =>
    unfold Client.perform Client.serve
    dsimp only
    split <;> rfl
  | .setMode mode => rfl
  | .setFile file => exact absurd rfl (same file)

theorem file_behind {later : List Command} (same : ∀ file, .setFile file ∉ later) :
    (client.behind later).lexer.file = client.lexer.file := by
  induction later generalizing client with
  | nil => rfl
  | cons command rest inductionHypothesis =>
    have first : ∀ file, command ≠ .setFile file := by
      rintro file rfl
      exact same file List.mem_cons_self
    have others : ∀ file, .setFile file ∉ rest := fun file member =>
      same file (List.mem_cons_of_mem command member)
    exact (@inductionHypothesis (client.perform command).2 others).trans (file_perform first)

/-- What it means that a client has been told of the end: it gets the token of the end, stamped
with its file, and no other; it is told of no error and counts none, and does not move. -/
structure Ended (eof : Token) (place : Position) (errors : Nat) (client : Client) : Prop where
  token : client.lexer.nextToken.token = eof.stamp client.lexer.file
  nothing : client.lexer.next?.token = none
  silent : client.lexer.nextToken.error = none ∧ client.lexer.next?.error = none
  errorCount : client.lexer.errorCount = errors
  position : client.lexer.position = place

end Client

/-- A lexer comes to the end of its source from every state that it can be brought into. Whatever
was done with it, it stands in the source. One more request leads to the end of the source, where
the end is handed out, or behind a token that ends further on. If no kept state is put back, then
of more requests than there are bytes left one is told of the end; and from then on, again until a
kept state is put back, every request gets the same token of the end, or none, no error is
reported and the lexer stays where it is. Only the file in the token is that of the lexer. -/
theorem lexer_progress (name : String) (source : List UInt8) (mode : PositionMode) (file : Nat)
    (commands : List Command) :
    let client := Client.behind ⟨.ofSource name source mode file, []⟩ commands
    let answer := client.lexer.nextToken
    client.lexer.position.offset ≤ source.length ∧
      (answer.lexer.position.offset = answer.token.span.stop ∧
        if answer.token.isEof then answer.lexer.position.offset = source.length
        else client.lexer.position.offset < answer.token.span.stop) ∧
      ∀ later, (∀ command ∈ later, command.rewinds = false) →
        (source.length - client.lexer.position.offset < later.countP Command.asks →
          ∃ earlier ask, earlier ++ [ask] <+: later ∧
            (client.behind earlier).tellsEnd ask = true) ∧
        ∀ ask, client.tellsEnd ask = true →
          let last := (client.perform ask).2.behind later
          last.Ended answer.token answer.lexer.position client.lexer.errorCount ∧
            ((∀ file, .setFile file ∉ later) → last.lexer.nextToken.token = answer.token) := by
  intro client answer
  have begins : (Lexer.ofSource name source mode file).state.StandsIn source :=
    ⟨Nat.zero_le _, rfl, nofun⟩
  have stands : client.StandsIn source :=
    Client.StandsIn.behind ⟨begins, by simp⟩ commands
  refine ⟨stands.state.inside, Lexer.offset_nextToken stands.state, fun later forward => ?_⟩
  constructor
  · intro many
    have left := stands.state.length_rest
    exact Client.exists_tellsEnd forward (left.trans_lt many)
  · intro ask told last
    obtain ⟨ended, rests⟩ := Client.restsAt_of_tellsEnd stands told
    have token : answer.token = ⟨.eof, .none, Span.ofPlace answer.lexer.position 0 _⟩ :=
      (Lexer.nextToken_of_ended ended).1
    have stays : last.lexer.RestsAt answer.lexer.position client.lexer.errorCount :=
      Client.restsAt_behind rests forward
    obtain ⟨again, silent, -⟩ := stays.nextToken
    have next := stays.next?
    have stamped : last.lexer.nextToken.token = answer.token.stamp last.lexer.file := by
      rw [again, token]
      rfl
    refine ⟨⟨stamped, ?_, ⟨silent, ?_⟩, stays.errorCount, stays.position⟩, fun same => ?_⟩
    · rw [next]
    · rw [next]
    · have unstamped : ∀ file, .setFile file ∉ ask :: later := by
        intro file member
        rcases List.mem_cons.mp member with rfl | among
        · exact Bool.noConfusion told
        · exact same file among
      have kept : last.lexer.file = client.lexer.file :=
        @Client.file_behind client (ask :: later) unstamped
      rw [stamped, kept, token]
      rfl

/-- A caller goes back to the beginning of a source with a stray byte and an open string, and asks
seven times more in either way. At the end it changes the mode and the file. -/
theorem lexer_progress_rewound :
    let source : List UInt8 := [0x24, 0x2F, 0x2F, 0x0A, 0x22, 0x61]
    let commands : List Command :=
      [.request .checkpoint, .request .next, .request .nextToken, .request .nextToken,
        .setMode .lineColumn, .request (.rewind 0)]
    let later : List Command :=
      .request .next :: .setFile 4 :: List.replicate 6 (.request .nextToken)
    let changes : List Command := [.setMode .columnOnly, .setFile 5, .request .next]
    let client := Client.behind ⟨.ofSource "a.us" source .columnOnly 3, []⟩ commands
    let ended := Client.behind ⟨.ofSource "a.us" source .columnOnly 3, []⟩ (commands ++ later)
    (∀ command ∈ later, command.rewinds = false) ∧
      (∀ command ∈ changes, command.rewinds = false) ∧
      source.length - client.lexer.position.offset < later.countP Command.asks ∧
      ended.tellsEnd (.request .next) = true ∧
      (∃ earlier ask, earlier ++ [ask] <+: later ∧
        (client.behind earlier).tellsEnd ask = true) ∧
      ((ended.perform (.request .next)).2.behind changes).Ended
        ⟨.eof, .none, ⟨6, 6, 2, 3, 4⟩⟩ ⟨6, 2, 3⟩ 4 := by
  intro source commands later changes client ended
  have forward : ∀ command ∈ later, command.rewinds = false := by decide
  have forwardChanges : ∀ command ∈ changes, command.rewinds = false := by decide
  have many : source.length - client.lexer.position.offset < later.countP Command.asks := by
    decide +kernel
  have told : ended.tellsEnd (.request .next) = true := by decide +kernel
  obtain ⟨-, -, goesOn⟩ := lexer_progress "a.us" source .columnOnly 3 commands
  obtain ⟨-, -, stays⟩ := lexer_progress "a.us" source .columnOnly 3 (commands ++ later)
  refine ⟨forward, forwardChanges, many, told, (goesOn later forward).1 many, ?_⟩
  have last := ((stays changes forwardChanges).2 _ told).1
  have token : ended.lexer.nextToken.token = ⟨.eof, .none, ⟨6, 6, 2, 3, 4⟩⟩ := by decide +kernel
  have place : ended.lexer.nextToken.lexer.position = ⟨6, 2, 3⟩ := by decide +kernel
  have errors : ended.lexer.errorCount = 4 := by decide +kernel
  rwa [token, place, errors] at last

end Lexis
