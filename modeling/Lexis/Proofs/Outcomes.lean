/-
This file says how a run ends, for every command line that makes sense. There are three ways.
Without a configuration, or without one of the sources, a run says why and does nothing else.
Otherwise it lists all tokens and shows all errors, and whether it fails hangs on the number of
illegal tokens alone: the errors that are shown are counted by the handler, and there is one for
every illegal token.

Whether a token is illegal is decided by its bytes. So of all that a user can choose, only the
sources, and whether the configuration can be loaded, decide the exit code. Log lines go where
the errors go, but are no part of the outcome.
-/

import Lexis.Proofs.Sessions
import Lexis.Run

namespace Lexis

/-! ### Loading -/

/-- The sources behind paths, in their order. A path that is given twice stands for two. -/
def FileSystem.Holds (files : FileSystem) (paths : List String) (sources : List SourceFile) :
    Prop :=
  List.Forall₂ (fun path source => source.name = path ∧ files.read path = .ok source.content)
    paths sources

/-- Of paths that hold sources none is unreadable. -/
theorem FileSystem.Holds.readable {files : FileSystem} {paths : List String}
    {sources : List SourceFile} (holds : files.Holds paths sources) {path : String}
    (member : path ∈ paths) : ∃ content, files.read path = .ok content := by
  induction holds with
  | nil => exact absurd member List.not_mem_nil
  | cons found rest inductionHypothesis =>
    rcases List.mem_cons.mp member with rfl | later
    · exact ⟨_, found.2⟩
    · exact inductionHypothesis later

/-- Paths that are read alike hold the same sources. -/
theorem FileSystem.Holds.unique {files others : FileSystem} {paths : List String}
    {sources otherSources : List SourceFile} (holds : files.Holds paths sources)
    (otherHolds : others.Holds paths otherSources)
    (alike : ∀ path ∈ paths, others.read path = files.read path) : sources = otherSources := by
  induction holds generalizing otherSources with
  | nil => exact (List.forall₂_nil_left_iff.mp otherHolds).symm
  | @cons path source paths sources found rest inductionHypothesis =>
    obtain ⟨⟨name, content⟩, behind, ⟨sameName, read⟩, otherRest, rfl⟩ :=
      List.forall₂_cons_left_iff.mp otherHolds
    have here := alike path List.mem_cons_self
    have there := inductionHypothesis otherRest fun path member =>
      alike path (List.mem_cons_of_mem _ member)
    rw [found.2, read] at here
    obtain ⟨known, bytes⟩ := source
    obtain rfl : known = path := found.1
    obtain rfl : name = known := sameName
    obtain rfl : content = bytes := Except.ok.inj here
    rw [there]

namespace Session

theorem load_of_holds {files : FileSystem} {paths : List String} {sources : List SourceFile}
    (holds : files.Holds paths sources) (session : Session) :
    session.load files paths = (none, (session.addAll sources).2) := by
  induction holds generalizing session with
  | nil => rfl
  | @cons path source paths sources found rest inductionHypothesis =>
    obtain ⟨name, content⟩ := source
    obtain ⟨rfl, read⟩ := found
    rw [load, read]
    exact inductionHypothesis _

/-- Loading stops at the first path that cannot be read, whatever comes behind it. -/
theorem load_of_unreadable {files : FileSystem} {before : List String} {path : String}
    {cause : FileError} (readable : ∀ earlier ∈ before, ∃ content, files.read earlier = .ok content)
    (failed : files.read path = .error cause) (after : List String) (session : Session) :
    (session.load files (before ++ path :: after)).1 = some ⟨path, cause⟩ := by
  induction before generalizing session with
  | nil => rw [List.nil_append, load, failed]
  | cons first rest inductionHypothesis =>
    obtain ⟨⟨content, read⟩, later⟩ := List.forall_mem_cons.mp readable
    rw [List.cons_append, load, read]
    exact inductionHypothesis later _

end Session

/-- Either all paths hold sources, or one is the first that does not. -/
theorem FileSystem.holds_or_unreadable (files : FileSystem) (paths : List String) :
    (∃ sources, files.Holds paths sources) ∨
      ∃ before path after cause, paths = before ++ path :: after ∧
        (∀ earlier ∈ before, ∃ content, files.read earlier = .ok content) ∧
        files.read path = .error cause := by
  induction paths with
  | nil => exact Or.inl ⟨[], .nil⟩
  | cons path rest inductionHypothesis =>
    cases read : files.read path with
    | error cause => exact Or.inr ⟨[], path, rest, cause, rfl, by simp, read⟩
    | ok content =>
      rcases inductionHypothesis with ⟨sources, holds⟩ | ⟨before, later, after, cause, rfl, facts⟩
      · exact Or.inl ⟨⟨path, content⟩ :: sources, .cons ⟨rfl, read⟩ holds⟩
      · refine Or.inr ⟨path :: before, later, after, cause, rfl, ?_, facts.2⟩
        exact List.forall_mem_cons.mpr ⟨⟨content, read⟩, facts.1⟩

/-! ### Counting -/

/-- How many illegal tokens some sources have together. -/
def illegalCount (mode : PositionMode) (sources : List SourceFile) : Nat :=
  (sources.flatMap fun source => (tokenize source.content mode).tokens).countP Token.isIllegal

/-- Illegal tokens are the same ones, however positions are counted. -/
theorem illegalCount_congr (mode other : PositionMode) (sources : List SourceFile) :
    illegalCount mode sources = illegalCount other sources := by
  induction sources with
  | nil => rfl
  | cons source sources inductionHypothesis =>
    have here := (illegal_sameText source.content mode other).length_eq
    rw [← List.countP_eq_length_filter, ← List.countP_eq_length_filter] at here
    unfold illegalCount at inductionHypothesis ⊢
    rw [List.flatMap_cons, List.flatMap_cons, List.countP_append, List.countP_append, here,
      inductionHypothesis]

/-- Every illegal token has its error. -/
theorem length_errors_tokenize (source : List UInt8) (mode : PositionMode) :
    (tokenize source mode).errors.length =
      (tokenize source mode).tokens.countP Token.isIllegal := by
  have spans := congrArg List.length (spans_errors_tokenize source mode)
  rwa [List.length_map, List.length_map, ← List.countP_eq_length_filter] at spans

/-- As many errors are shown as there are illegal tokens. -/
theorem Session.length_shown (mode : PositionMode) (sources : List SourceFile) :
    (shown mode sources).length = illegalCount mode sources := by
  induction sources with
  | nil => rfl
  | cons source sources inductionHypothesis =>
    unfold shown illegalCount at inductionHypothesis ⊢
    rw [List.flatMap_cons, List.flatMap_cons, List.countP_append, List.length_append,
      List.length_map, length_errors_tokenize, inductionHypothesis]

/-- All that is reported of a source are errors. -/
theorem FileReport.severity_diagnostics {report : FileReport} {sources : SourceMap}
    {diagnostic : Diagnostic} (member : diagnostic ∈ report.diagnostics sources) :
    diagnostic.severity = .error := by
  unfold diagnostics at member
  split at member
  · obtain ⟨error, -, rfl⟩ := List.mem_map.mp member
    unfold LexError.toDiagnosticIn
    split <;> rfl
  · exact absurd member List.not_mem_nil

/-- The handler counts everything that is reported. -/
theorem Session.errorCount_report (session : Session) (reports : List FileReport) :
    (session.report reports).handler.errorCount =
      session.handler.errorCount + (reports.flatMap (·.diagnostics session.sources)).length := by
  rw [report, Handler.errorCount_reportAll]
  refine congrArg (_ + ·) (List.countP_eq_length.mpr fun diagnostic member => ?_)
  obtain ⟨report, -, inside⟩ := List.mem_flatMap.mp member
  exact decide_eq_true (FileReport.severity_diagnostics inside)

/-! ### Ends of runs -/

/-- A run whose sources are loaded lists them all, shows all their errors, and counts them. -/
theorem Run.finish_addAll (options : SessionOptions) (sources : List SourceFile)
    (format : DumpFormat) (quiet : Bool) :
    let count := illegalCount options.mode sources
    finish ((Session.empty options).addAll sources).2 format quiet =
      { code := if 0 < count then 1 else 0
        output := if quiet then "" else
          Dump.write format ⟨sources⟩
            (sources.mapIdx fun number source => .ofContent number source.content options.mode)
        errors := String.join ((Session.shown options.mode sources).map (· ++ "\n")) ++
          if 0 < count then summary count else "" } := by
  intro count
  let reports := sources.mapIdx fun number source =>
    FileReport.ofContent number source.content options.mode
  have loaded : ((Session.empty options).addAll sources).2 = ⟨options, ⟨sources⟩, .empty⟩ := by
    rw [Session.addAll_eq]
    rfl
  have lexed : Session.lex ⟨options, ⟨sources⟩, .empty⟩ = reports := Session.lex_eq _
  have rendered : (Session.report ⟨options, ⟨sources⟩, .empty⟩ reports).render =
      Session.shown options.mode sources :=
    Session.render_diagnostics_eq_shown sources options.mode (fun _ _ found => found)
      fun _ _ found => found
  have counted : (Session.report ⟨options, ⟨sources⟩, .empty⟩ reports).handler.errorCount =
      count := by
    have lengths := congrArg List.length rendered
    rw [Session.length_shown, Session.render, List.length_map] at lengths
    rw [Session.errorCount_report]
    exact (Nat.zero_add _).trans lengths
  rw [loaded, finish, lexed]
  simp only [rendered, counted]
  rfl

/-- The last line that is shown, if there were errors. -/
def Run.abortLine (count : Nat) : String :=
  if count = 0 then ""
  else if count = 1 then "error: aborting due to 1 previous error\n"
  else "error: aborting due to " ++ toString count ++ " previous errors\n"

/-- How a run ends whose arguments make sense. -/
inductive Run.Ends (files : FileSystem) (arguments : Arguments) :
    Except Failure Config → Outcome → Prop
  /-- The configuration cannot be loaded. -/
  | misconfigured (failure : Failure) :
      Ends files arguments (.error failure)
        { code := 1
          output := ""
          errors := "error: could not load configuration: " ++ failure.fullMessage ++ "\n" }
  /-- A source cannot be read, and those named before it can. -/
  | unreadable (config : Config) {before : List String} {path : String} {after : List String}
      {cause : FileError} (split : arguments.files = before ++ path :: after)
      (readable : ∀ earlier ∈ before, ∃ content, files.read earlier = .ok content)
      (failed : files.read path = .error cause) :
      Ends files arguments (.ok config)
        { code := 1
          output := ""
          errors := "error: Failed to read " ++ path ++ ": " ++ cause.message ++ "\n" }
  /-- All sources are read. Their illegal tokens can be counted in either mode. -/
  | finished (config : Config) {sources : List SourceFile} {mode : PositionMode} {count : Nat}
      (holds : files.Holds arguments.files sources)
      (chosen : mode = if arguments.lineColumn then .lineColumn else config.mode)
      (counted : ∀ mode, illegalCount mode sources = count) :
      Ends files arguments (.ok config)
        { code := if 0 < count then 1 else 0
          output := if arguments.quiet then "" else
            Dump.write (arguments.format.getD config.format) ⟨sources⟩
              (sources.mapIdx fun number source => .ofContent number source.content mode)
          errors :=
            String.join ((Session.shown mode sources).map (· ++ "\n")) ++ abortLine count }

namespace Run

theorem summary_eq_abortLine (count : Nat) :
    (if 0 < count then summary count else "") = abortLine count := by
  unfold abortLine summary
  rcases Nat.eq_zero_or_pos count with rfl | some
  · rfl
  · rw [if_pos some, if_neg some.ne']
    split
    · rename_i one
      rw [one]
      decide +kernel
    · rfl

theorem failed_unreadable (path : String) (cause : FileError) :
    failed (Failure.unreadable ⟨path, cause⟩).fullMessage =
      { code := 1
        output := ""
        errors := "error: Failed to read " ++ path ++ ": " ++ cause.message ++ "\n" } := by
  have message : (Failure.unreadable ⟨path, cause⟩).fullMessage =
      "Failed to read " ++ path ++ ": " ++ cause.message := by
    show ": ".intercalate ["Failed to read " ++ path, cause.message] = _
    rw [String.intercalate_cons_cons, String.intercalate_singleton]
  have start : "error: " ++ "Failed to read " = "error: Failed to read " := by decide +kernel
  rw [message, failed, ← start]
  simp only [String.append_assoc]

/-- Every run with arguments that make sense ends in one of the three ways. -/
theorem ends_execute (files : FileSystem) (environment : Environment) (processors : Nat)
    (arguments : Arguments) :
    Ends files arguments (loadConfig files environment processors arguments)
      (execute files environment processors arguments) := by
  unfold execute
  cases loadConfig files environment processors arguments with
  | error failure =>
    have message : failed ("could not load configuration: " ++ failure.fullMessage) =
        ⟨1, "", "error: could not load configuration: " ++ failure.fullMessage ++ "\n"⟩ := by
      have start : "error: " ++ "could not load configuration: " =
          "error: could not load configuration: " := by decide +kernel
      rw [failed, ← start]
      simp only [String.append_assoc]
    show Ends _ _ _ (failed _)
    rw [message]
    exact .misconfigured failure
  | ok config =>
    dsimp only [resolve]
    rcases files.holds_or_unreadable arguments.files with
      ⟨sources, holds⟩ | ⟨before, path, after, cause, split, readable, stopped⟩
    · rw [Session.load_of_holds holds]
      show Ends _ _ _ (finish _ _ _)
      rw [finish_addAll, summary_eq_abortLine]
      exact .finished config holds rfl fun mode => illegalCount_congr mode _ sources
    · have first := fun session => Session.load_of_unreadable readable stopped after session
      rw [split]
      split
      · rename_i source session loaded
        obtain rfl := Option.some.inj ((first _).symm.trans (congrArg Prod.fst loaded))
        rw [failed_unreadable]
        exact .unreadable config split readable stopped
      · rename_i session loaded
        exact nomatch (first _).symm.trans (congrArg Prod.fst loaded)

/-- The exit code hangs on the sources, and on whether there is a configuration. -/
theorem Ends.code_eq {files others : FileSystem} {arguments otherArguments : Arguments}
    {loaded otherLoaded : Except Failure Config} {outcome otherOutcome : Outcome}
    (ends : Ends files arguments loaded outcome)
    (otherEnds : Ends others otherArguments otherLoaded otherOutcome)
    (sameFiles : otherArguments.files = arguments.files)
    (alike : ∀ path ∈ arguments.files, others.read path = files.read path)
    (sameLoaded : otherLoaded.isOk = loaded.isOk) : otherOutcome.code = outcome.code := by
  cases ends with
  | misconfigured failure =>
    cases otherEnds with
    | misconfigured otherFailure => rfl
    | unreadable | finished => exact nomatch sameLoaded
  | @unreadable config before path after cause split readable failed =>
    cases otherEnds with
    | misconfigured => exact nomatch sameLoaded
    | unreadable => rfl
    | finished otherConfig holds =>
      have member : path ∈ arguments.files := by simp [split]
      obtain ⟨content, read⟩ := holds.readable (sameFiles ▸ member)
      rw [alike path member, failed] at read
      exact nomatch read
  | finished config holds chosen counted =>
    cases otherEnds with
    | misconfigured => exact nomatch sameLoaded
    | @unreadable otherConfig before path after cause split readable failed =>
      have member : path ∈ arguments.files := by simp [← sameFiles, split]
      obtain ⟨content, read⟩ := holds.readable member
      rw [← alike path member, failed] at read
      exact nomatch read
    | finished otherConfig otherHolds otherChosen otherCounted =>
      obtain rfl := holds.unique (sameFiles ▸ otherHolds) alike
      rw [← counted .columnOnly, ← otherCounted .columnOnly]

end Run

theorem Arguments.read_eq_ok {environment : Environment} {line : List String}
    {arguments : Arguments} (found : (read environment line).toOption = some arguments) :
    read environment line = .ok arguments := by
  cases answer : read environment line with
  | error stop =>
    rw [answer] at found
    exact nomatch found
  | ok other =>
    rw [answer] at found
    exact congrArg Except.ok (Option.some.inj found)

/-- A command line that makes sense names a file. -/
theorem Arguments.files_ne_nil_of_read {environment : Environment} {line : List String}
    {arguments : Arguments} (accepted : read environment line = .ok arguments) :
    arguments.files ≠ [] := by
  unfold read at accepted
  simp only [bind, Except.bind] at accepted
  split at accepted
  · exact nomatch accepted
  split at accepted
  · exact nomatch accepted
  split at accepted
  · exact nomatch accepted
  · rename_i named
    obtain rfl := Except.ok.inj accepted
    exact fun none => named (List.isEmpty_iff.mpr none)

/-- Every run whose command line makes sense ends in one of the three ways. Of everything around
it only what is read of the sources, and whether there is a configuration, decide its exit code;
so it does not matter for it what is printed, in which form, with how many jobs and with which
positions, be it the command line that asks for them or the configuration. An outcome has no log
lines, and a run reads whether to be verbose and whether to use color and then ignores both; so
nothing is said here of the lines that a verbose run adds to what it writes about errors. -/
theorem run_ends (files : FileSystem) (environment : Environment) (processors : Nat)
    {line : List String} {arguments : Arguments}
    (accepted : Arguments.read environment line = .ok arguments) :
    arguments.files ≠ [] ∧
    Run.Ends files arguments (Run.loadConfig files environment processors arguments)
      (Run.run files environment processors line) ∧
    (∀ quiet format jobs lineColumn,
      (Run.execute files environment processors
        { arguments with quiet, format, jobs, lineColumn }).code =
          (Run.run files environment processors line).code) ∧
    ∀ others otherEnvironment otherProcessors otherLine otherArguments,
      Arguments.read otherEnvironment otherLine = .ok otherArguments →
      otherArguments.files = arguments.files →
      (∀ path ∈ arguments.files, others.read path = files.read path) →
      (Run.loadConfig others otherEnvironment otherProcessors otherArguments).isOk =
        (Run.loadConfig files environment processors arguments).isOk →
      (Run.run others otherEnvironment otherProcessors otherLine).code =
        (Run.run files environment processors line).code := by
  have executed : Run.run files environment processors line =
      Run.execute files environment processors arguments := by
    rw [Run.run, accepted]
  have ends := Run.ends_execute files environment processors arguments
  rw [executed]
  refine ⟨Arguments.files_ne_nil_of_read accepted, ends, ?_, ?_⟩
  · intro quiet format jobs lineColumn
    -- None of the four has a say in which configuration is loaded.
    exact ends.code_eq (Run.ends_execute files environment processors _) rfl (fun _ _ => rfl) rfl
  · intro others otherEnvironment otherProcessors otherLine otherArguments otherAccepted sameFiles
      alike sameLoaded
    rw [Run.run, otherAccepted]
    exact ends.code_eq (Run.ends_execute others otherEnvironment otherProcessors otherArguments)
      sameFiles alike sameLoaded

/-- A source with an illegal token that is named twice, beside one without any: what one run
lists and the other does not is nothing to the exit code. -/
theorem run_ends_strays :
    let files : FileSystem := .ofAnswers [("a.us", .ok [0x31, 0x20, 0x24]), ("b.us", .ok [0x78])]
    let line := ["-q", "a.us", "b.us", "a.us"]
    let otherLine := ["--line-column", "--format", "json", "-j3", "a.us", "b.us", "a.us"]
    (Run.run files ⟨[]⟩ 4 line).code = 1 ∧
      (Run.run files ⟨[]⟩ 8 otherLine).code = (Run.run files ⟨[]⟩ 4 line).code ∧
      Run.Ends files { quiet := true, files := ["a.us", "b.us", "a.us"] } (.ok (Config.default 4))
        (Run.run files ⟨[]⟩ 4 line) := by
  intro files line otherLine
  have accepted : Arguments.read ⟨[]⟩ line =
      .ok { quiet := true, files := ["a.us", "b.us", "a.us"] } :=
    Arguments.read_eq_ok (by decide +kernel)
  have otherAccepted : Arguments.read ⟨[]⟩ otherLine =
      .ok { lineColumn := true, format := some .json, jobs := some 3,
            files := ["a.us", "b.us", "a.us"] } :=
    Arguments.read_eq_ok (by decide +kernel)
  have loaded : ∀ processors arguments, arguments.config = none →
      Run.loadConfig files ⟨[]⟩ processors arguments = .ok (Config.default processors) := by
    intro processors arguments unnamed
    rw [Run.loadConfig, unnamed]
    rfl
  obtain ⟨-, ends, -, same⟩ := run_ends files ⟨[]⟩ 4 accepted
  rw [loaded 4 _ rfl] at ends same
  refine ⟨by decide +kernel, ?_, ends⟩
  exact same files ⟨[]⟩ 8 otherLine _ otherAccepted rfl (fun _ _ => rfl)
    (by rw [loaded 8 _ rfl]; rfl)

end Lexis
