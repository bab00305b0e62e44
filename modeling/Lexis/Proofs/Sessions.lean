/-
This file proves what a session says of its sources. Sources are numbered in the order in which
they are added, and a number keeps naming its source. A report comes of the content of its
source alone, and the number of the source is on everything in it.

Two numbers have to meet for a diagnostic. Its name is looked up by the number on the span of
the error, and its excerpt is cut from the source with the number on the report. Both are the
place of the source among the sources that were there when they were read, and sources that are
added later stand behind these.
-/

import Lexis.Proofs.Modes
import Lexis.Session.Basic

namespace Lexis

/-! ### Reports -/

/-- The report on a source, as it comes of its number and its content. -/
def FileReport.ofContent (number : Nat) (content : List UInt8) (mode : PositionMode) :
    FileReport where
  file := number
  tokens := (tokenize content mode).tokens.dropLast.map (Token.stamp number)
  errors := (tokenize content mode).errors.map (LexError.stamp number)

theorem FileReport.ofSource_eq (number : Nat) (file : SourceFile) (mode : PositionMode) :
    ofSource number file mode = ofContent number file.content mode := by
  obtain ⟨tokensAhead, errorsAhead⟩ := Lexer.ahead_ofSource file.name file.content mode number
  obtain ⟨tokens, errors⟩ := Lexer.drain_eq
    (show (Lexer.ofSource file.name file.content mode number).finished = false from rfl)
  rw [tokensAhead, ← List.map_dropLast] at tokens
  rw [errorsAhead] at errors
  exact congrArg₂ (FileReport.mk number) tokens errors

/-- The number of a source is on everything in its report. -/
theorem FileReport.stamped_ofContent (number : Nat) (content : List UInt8) (mode : PositionMode) :
    (∀ token ∈ (ofContent number content mode).tokens, token.span.file = number) ∧
      ∀ error ∈ (ofContent number content mode).errors, error.span.file = number := by
  constructor
  · intro token member
    obtain ⟨unstamped, -, rfl⟩ := List.mem_map.mp member
    rfl
  · intro error member
    obtain ⟨unstamped, -, rfl⟩ := List.mem_map.mp member
    rfl

/-! ### Diagnostics -/

/-- What the text of a diagnostic has to do with the source and the bytes that it is about: the
name of the source comes first, unless the source has none, and the line of the source where
the bytes begin is shown, with carets under them. -/
structure TellsOf (file : SourceFile) (span : Span) (text : String) : Prop where
  origin : file.name = "" ∨ ∃ rest, text = file.name ++ ":" ++ rest
  excerpt : ∃ snippet before after, Snippet.ofSource? file.content span = some snippet ∧
    text = before ++ "\n" ++ snippet.format ++ after

/-- The diagnostic of an error, as users read it. -/
def LexError.report (error : LexError) (file : SourceFile) : String :=
  (error.toDiagnosticIn file.content).render file.name

/-- The number of the file is not shown. -/
theorem LexError.report_stamp (error : LexError) (number : Nat) (file : SourceFile) :
    (error.stamp number).report file = error.report file := by
  have cut : Snippet.ofSource? file.content (error.stamp number).span =
      Snippet.ofSource? file.content error.span := rfl
  unfold report toDiagnosticIn
  rw [cut]
  cases Snippet.ofSource? file.content error.span with
  | none => rfl
  | some snippet => rfl

/-- Where a span begins and ends decides what is shown of the source. -/
theorem Snippet.ofSource?_congr (source : List UInt8) {first second : Span}
    (same : first.SameText second) : ofSource? source first = ofSource? source second := by
  rw [ofSource?, ofSource?, same.start, same.stop]

theorem TellsOf.of_sameText {file : SourceFile} {first second : Span} {text : String}
    (tells : TellsOf file second text) (same : first.SameText second) :
    TellsOf file first text := by
  obtain ⟨origin, snippet, before, after, cut, shown⟩ := tells
  exact ⟨origin, snippet, before, after, (Snippet.ofSource?_congr _ same).trans cut, shown⟩

/-- An error that lies in its source tells of its source. -/
theorem LexError.tellsOf_report {error : LexError} {file : SourceFile}
    (inside : error.span.start ≤ file.content.length) :
    TellsOf file error.span (error.report file) := by
  obtain ⟨snippet, cut⟩ : ∃ snippet, Snippet.ofSource? file.content error.span = some snippet := by
    rw [← Option.ne_none_iff_exists', ne_eq, Snippet.ofSource?_eq_none_iff]
    exact Nat.not_lt.mpr inside
  have shown : error.report file =
      error.toDiagnostic.headerFrom file.name ++ "\n" ++
        "\n".intercalate (snippet.format ::
          error.toDiagnostic.helps.map (Diagnostic.remark .help)) := by
    unfold report toDiagnosticIn
    rw [cut]
    exact String.intercalate_cons_cons
  have excerpt : ∃ after, "\n".intercalate (snippet.format ::
      error.toDiagnostic.helps.map (Diagnostic.remark .help)) = snippet.format ++ after := by
    cases error.toDiagnostic.helps.map (Diagnostic.remark .help) with
    | nil => exact ⟨"", String.intercalate_singleton.trans String.append_empty.symm⟩
    | cons help rest =>
      rw [String.intercalate_cons_cons, String.append_assoc]
      exact ⟨_, rfl⟩
  obtain ⟨after, excerpt⟩ := excerpt
  rw [excerpt, ← String.append_assoc] at shown
  refine ⟨?_, snippet, _, after, cut, shown⟩
  by_cases unnamed : file.name = ""
  · exact Or.inl unnamed
  · have header : error.toDiagnostic.headerFrom file.name =
        file.name ++ ":" ++ (toString error.span.line ++ ":" ++ toString error.span.column ++
          ": " ++ error.toDiagnostic.header) := by
      rw [Diagnostic.headerFrom, if_neg (by simpa using unnamed)]
      simp only [String.append_assoc]
      rfl
    rw [header] at shown
    exact Or.inr ⟨_, by simpa only [String.append_assoc] using shown⟩

/-! ### Sessions -/

namespace Session

/-- Adds sources one after the other and tells their numbers. -/
def addAll (session : Session) : List SourceFile → List Nat × Session
  | [] => ([], session)
  | file :: rest =>
    let (number, added) := session.add file
    let (numbers, last) := added.addAll rest
    (number :: numbers, last)

/-- The numbers go on from those that were given out, and nothing but the sources changes. -/
theorem addAll_eq (session : Session) (files : List SourceFile) :
    session.addAll files =
      (List.range' session.sources.files.length files.length,
        { session with sources := ⟨session.sources.files ++ files⟩ }) := by
  induction files generalizing session with
  | nil => simp [addAll]
  | cons file rest inductionHypothesis =>
    have added : (session.add file).2.addAll rest = _ := inductionHypothesis _
    simp only [addAll, added]
    simp [add, SourceMap.add, List.range'_succ]

section

variable (session : Session) (files : List SourceFile)

@[simp] theorem numbers_addAll :
    (session.addAll files).1 = List.range' session.sources.files.length files.length := by
  rw [addAll_eq]

@[simp] theorem sources_addAll :
    (session.addAll files).2.sources = ⟨session.sources.files ++ files⟩ := by
  rw [addAll_eq]

@[simp] theorem handler_addAll : (session.addAll files).2.handler = session.handler := by
  rw [addAll_eq]

@[simp] theorem options_addAll : (session.addAll files).2.options = session.options := by
  rw [addAll_eq]

@[simp] theorem sources_report (reports : List FileReport) :
    (session.report reports).sources = session.sources := rfl

@[simp] theorem files_empty (options : SessionOptions) :
    (empty options).sources.files = [] := rfl

/-- The report on a source comes of its number and its content. -/
theorem lex_eq : session.lex = session.sources.files.mapIdx fun number file =>
    FileReport.ofContent number file.content session.options.mode := by
  simp only [lex, FileReport.ofSource_eq]

/-- What is reported first is shown alone, with the names that the sources have by then. -/
theorem render_addAll_report (fresh : session.handler = .empty) (reports : List FileReport) :
    ((session.report reports).addAll files).2.render =
      let named : SourceMap := ⟨session.sources.files ++ files⟩
      (reports.flatMap (·.diagnostics session.sources)).map fun diagnostic =>
        diagnostic.render (named.name diagnostic.span.file) := by
  rw [render, handler_addAll, sources_addAll, sources_report, report, fresh]
  simp only [Handler.reportAll, Handler.empty, List.nil_append]

end

theorem span_toDiagnosticIn (error : LexError) (source : List UInt8) :
    (error.toDiagnosticIn source).span = error.span := by
  unfold LexError.toDiagnosticIn
  cases Snippet.ofSource? source error.span with
  | none => rfl
  | some snippet => rfl

/-- The errors of a report are shown with its source, if its number names the source where the
excerpts are cut and where the names are looked up. -/
theorem render_diagnostics_ofContent {cutFrom named : SourceMap} {number : Nat} {file : SourceFile}
    (cut : cutFrom.get? number = some file) (found : named.get? number = some file)
    (mode : PositionMode) :
    ((FileReport.ofContent number file.content mode).diagnostics cutFrom).map
        (fun diagnostic => diagnostic.render (named.name diagnostic.span.file)) =
      (tokenize file.content mode).errors.map fun error => error.report file := by
  have name : named.name number = file.name := by rw [SourceMap.name, found]
  have errors : (FileReport.ofContent number file.content mode).diagnostics cutFrom =
      ((tokenize file.content mode).errors.map (LexError.stamp number)).map
        (·.toDiagnosticIn file.content) := by
    have source : cutFrom.get? (FileReport.ofContent number file.content mode).file = some file :=
      cut
    rw [FileReport.diagnostics, source]
    rfl
  rw [errors, List.map_map, List.map_map]
  refine List.map_congr_left fun error _ => ?_
  rw [← error.report_stamp number file]
  simp only [Function.comp_apply, span_toDiagnosticIn]
  exact congrArg _ name

/-- What is shown of sources: all their errors, one source behind the other. -/
def shown (mode : PositionMode) (files : List SourceFile) : List String :=
  files.flatMap fun file => (tokenize file.content mode).errors.map fun error => error.report file

/-- The sources that all reports are on are the ones that are shown, if every number names its
source both where the excerpts are cut and where the names are looked up. -/
theorem render_diagnostics_eq_shown (files : List SourceFile) (mode : PositionMode)
    {cutFrom named : SourceMap} (cut : ∀ number file, files[number]? = some file →
      cutFrom.get? number = some file) (found : ∀ number file, files[number]? = some file →
      named.get? number = some file) :
    ((files.mapIdx fun number file => FileReport.ofContent number file.content mode).flatMap
        (·.diagnostics cutFrom)).map
          (fun diagnostic => diagnostic.render (named.name diagnostic.span.file)) =
      shown mode files := by
  have indexed : shown mode files = files.zipIdx.flatMap fun entry =>
      (tokenize entry.1.content mode).errors.map fun error => error.report entry.1 := by
    rw [shown]
    nth_rewrite 1 [← List.zipIdx_map_fst 0 files]
    exact List.flatMap_map _ _ _
  rw [List.map_flatMap, List.mapIdx_eq_zipIdx_map, List.flatMap_map, indexed]
  refine List.flatMap_congr fun entry member => ?_
  have here := List.mem_zipIdx_iff_getElem?.mp member
  exact render_diagnostics_ofContent (cut _ _ here) (found _ _ here) mode

/-- The diagnostics of one source are one for each of its illegal tokens, in their order, and
each tells of the bytes of its token. -/
theorem tellsOf_errors (file : SourceFile) (mode other : PositionMode) :
    List.Forall₂ (fun token text => TellsOf file token.span text)
      ((tokenize file.content other).tokens.filter Token.isIllegal)
      ((tokenize file.content mode).errors.map fun error => error.report file) := by
  have illegal := illegal_sameText file.content other mode
  have spans : List.Forall₂
      (fun token span => token.span.SameText span ∧ span.start ≤ file.content.length)
      ((tokenize file.content other).tokens.filter Token.isIllegal)
      ((tokenize file.content mode).errors.map LexError.span) := by
    rw [spans_errors_tokenize, List.forall₂_map_right_iff]
    refine illegal.imp ?_
    rintro first second ⟨same, inside⟩
    exact ⟨same.span, same.span.start ▸ inside⟩
  rw [List.forall₂_map_right_iff] at spans ⊢
  refine spans.imp ?_
  rintro token error ⟨same, inside⟩
  exact (LexError.tellsOf_report inside).of_sameText same

end Session

/-- A session keeps its sources apart. Sources are added, read, and reported, and others may be
added at any time. The numbers count up from zero, and each keeps naming its source with its
content. There is one report for each source that was there when all were read, in their
order; it comes of the number and the content of its source and of the way of counting alone,
and its number is on everything in it. What is shown in the end are the diagnostics of these
sources, one source behind the other, and for each source there is one for every illegal token,
in their order. Each begins with the name of its source and shows the line of that source in
which the token begins, whichever way positions are counted. -/
theorem session_keeps_sources_apart (options : SessionOptions)
    (first second third : List SourceFile) :
    let loaded := (Session.empty options).addAll first
    let reports := loaded.2.lex
    let grown := loaded.2.addAll second
    let reported := grown.2.report reports
    let last := reported.addAll third
    let files := first ++ second ++ third
    loaded.1 ++ grown.1 ++ last.1 = List.range files.length ∧
      (∀ number file, files[number]? = some file →
        last.2.sources.get? number = some file ∧ last.2.sources.name number = file.name) ∧
      reports = first.mapIdx (fun number file => .ofContent number file.content options.mode) ∧
      (∀ report ∈ reports, (∀ token ∈ report.tokens, token.span.file = report.file) ∧
        ∀ error ∈ report.errors, error.span.file = report.file) ∧
      ∃ texts : List (List String), last.2.render = texts.flatten ∧
        List.Forall₂ (fun file ofFile => ∀ mode, List.Forall₂
          (fun token text => TellsOf file token.span text)
          ((tokenize file.content mode).tokens.filter Token.isIllegal) ofFile) first texts := by
  intro loaded reports grown reported last files
  have sources : last.2.sources = ⟨files⟩ := by simp [last, reported, grown, loaded, files]
  have reportsEq : reports =
      first.mapIdx (fun number file => .ofContent number file.content options.mode) := by
    simp only [reports, Session.lex_eq, loaded, Session.sources_addAll, Session.files_empty,
      Session.options_addAll, List.nil_append]
    rfl
  have names (number : Nat) (file : SourceFile) (found : files[number]? = some file) :
      last.2.sources.get? number = some file := by
    rw [sources]
    exact found
  refine ⟨?_, fun number file found => ⟨names number file found, ?_⟩, reportsEq, ?_, ?_⟩
  · simp only [last, reported, grown, loaded, Session.numbers_addAll, Session.sources_addAll,
      Session.sources_report, Session.files_empty, List.nil_append, List.length_append,
      List.length_nil, files]
    have from0 (count more : Nat) :
        List.range' 0 count ++ List.range' count more = List.range' 0 (count + more) := by
      rw [← List.range'_append_1, Nat.zero_add]
    rw [from0, from0, List.range_eq_range']
  · rw [SourceMap.name, names number file found]
  · intro report member
    rw [reportsEq, List.mem_mapIdx] at member
    obtain ⟨number, inside, rfl⟩ := member
    exact FileReport.stamped_ofContent _ _ _
  · have shown : last.2.render = Session.shown options.mode first := by
      rw [Session.render_addAll_report grown.2 third (by simp [grown, loaded]; rfl), reportsEq]
      have kept (more : List SourceFile) (number : Nat) (file : SourceFile)
          (found : first[number]? = some file) :
          (SourceMap.mk (first ++ more)).get? number = some file :=
        (List.getElem?_append_left (List.getElem?_eq_some_iff.mp found).1).trans found
      refine Session.render_diagnostics_eq_shown first options.mode ?_ ?_
      · simpa [grown, loaded] using kept second
      · simpa [grown, loaded] using kept (second ++ third)
    refine ⟨_, shown, ?_⟩
    rw [List.forall₂_map_right_iff, List.forall₂_same]
    exact fun file _ mode => Session.tellsOf_errors file options.mode mode

/-- Two sources of one name, with a stray byte in the second, and one that is added before the
errors are reported: the one diagnostic tells of the second. -/
theorem session_keeps_sources_apart_twins :
    let first : List SourceFile := [⟨"a.us", [0x78]⟩, ⟨"a.us", [0x31, 0x0A, 0x24]⟩]
    let loaded := (Session.empty ⟨.columnOnly, 2⟩).addAll first
    let grown := loaded.2.addAll [⟨"b.us", [0x24]⟩]
    let last := (grown.2.report loaded.2.lex).addAll []
    loaded.1 ++ grown.1 ++ last.1 = [0, 1, 2] ∧
      last.2.sources.get? 1 = some ⟨"a.us", [0x31, 0x0A, 0x24]⟩ ∧
      ∃ text, last.2.render = [text] ∧
        TellsOf ⟨"a.us", [0x31, 0x0A, 0x24]⟩ ⟨2, 3, 1, 3, 0⟩ text := by
  intro first loaded grown last
  obtain ⟨numbers, names, -, -, texts, rendered, told⟩ :=
    session_keeps_sources_apart ⟨.columnOnly, 2⟩ first [⟨"b.us", [0x24]⟩] []
  refine ⟨numbers, (names 1 ⟨"a.us", [0x31, 0x0A, 0x24]⟩ rfl).1, ?_⟩
  obtain ⟨clean, others, none, later, rfl⟩ := List.forall₂_cons_left_iff.mp told
  obtain ⟨stray, rest, one, empty, rfl⟩ := List.forall₂_cons_left_iff.mp later
  obtain rfl := List.forall₂_nil_left_iff.mp empty
  have strays : (tokenize [0x31, 0x0A, 0x24] .columnOnly).tokens.filter Token.isIllegal =
      [⟨.illegal, .none, ⟨2, 3, 1, 3, 0⟩⟩] := by decide +kernel
  have nothing : (tokenize [0x78] .columnOnly).tokens.filter Token.isIllegal = [] := by
    decide +kernel
  have none := none .columnOnly
  have one := one .columnOnly
  dsimp only at none one
  rw [nothing, List.forall₂_nil_left_iff] at none
  rw [strays, List.forall₂_cons_left_iff] at one
  obtain ⟨text, more, tells, empty, rfl⟩ := one
  obtain rfl := List.forall₂_nil_left_iff.mp empty
  exact ⟨text, by rw [rendered, none]; rfl, tells⟩

end Lexis
