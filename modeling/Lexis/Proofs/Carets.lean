/-
This file tells where the carets under an error stand. A source of ASCII is shown with one
character for each of its bytes, so the two rows of the picture can be compared column by column.
The carets begin under the first byte of the lexeme, and there is one for each of its bytes up to
the end of the line. But the carriage returns at the end of the line count for the carets and are
not shown. No token begins with one, so there is always a caret under something; a literal that is
left open takes them in, and then the last carets stand under nothing.
-/

import Lexis.Proofs.Paths
import Lexis.Proofs.SourceLines

namespace Lexis

/-! ### Texts of ASCII -/

/-- ASCII is shown with a character for each byte. -/
theorem Text.decodeLossy_ascii {bytes : List UInt8} (ascii : ∀ b ∈ bytes, b < 0x80) :
    (decodeLossy bytes).toList = bytes.map fun b => Char.ofNat b.toNat := by
  rw [decodeLossy, String.toList_ofList]
  induction bytes with
  | nil => rfl
  | cons b rest inductionHypothesis =>
    obtain ⟨first, others⟩ := List.forall_mem_cons.mp ascii
    rw [decodeFrom_ascii first, inductionHypothesis others, List.map_cons]

/-- Only the byte of a carriage return is shown as one. -/
theorem Text.eq_of_ofNat_eq_return {b : UInt8} (same : Char.ofNat b.toNat = '\r') : b = 0x0D := by
  have every : ∀ n : Fin 256, Char.ofNat n.val = '\r' → n = 0x0D := by decide +kernel
  exact UInt8.toNat_inj.mp (congrArg Fin.val (every ⟨b.toNat, b.toNat_lt⟩ same))

namespace Snippet

/-! ### The picture -/

/-- What it means that a picture has two rows behind gutters of one width: a text, and under it
carets from some column on. -/
def Underlined (picture : String) (shown : List Char) (indent carets : Nat) : Prop :=
  ∃ gutter margin : List Char, gutter.length = margin.length ∧
    '\n' ∉ gutter ++ shown ∧ '\n' ∉ margin ∧
    picture.toList = gutter ++ shown ++ '\n' ::
      (margin ++ (List.replicate indent ' ' ++ List.replicate carets '^'))

/-- Under one text and from one column on a picture has so many carets and no others. -/
theorem Underlined.unique {picture : String} {shown : List Char} {indent carets other : Nat}
    (first : Underlined picture shown indent carets)
    (second : Underlined picture shown indent other) : carets = other := by
  obtain ⟨gutter, margin, width, row, under, drawn⟩ := first
  obtain ⟨gutter', margin', width', row', under', drawn'⟩ := second
  have marksRow : '\n' ∉ margin ++ (List.replicate indent ' ' ++ List.replicate carets '^') := by
    simp [under]
  obtain ⟨rows, -, rest⟩ :=
    (List.append_cons_inj_of_notMem row marksRow).mp (drawn.symm.trans drawn')
  have upper := congrArg List.length rows
  have lower := congrArg List.length rest
  simp only [List.length_append, List.length_replicate] at upper lower
  omega

theorem length_alignRight (width : Nat) (text : String) :
    (alignRight width text).toList.length = max width text.length := by
  rw [alignRight, String.toList_append, String.toList_ofList, List.length_append,
    List.length_replicate, String.length_toList]
  omega

theorem alignRight_oneLine {text : String} (oneLine : OneLine text) (width : Nat) :
    OneLine (alignRight width text) := by
  refine OneLine.append ?_ oneLine
  rw [OneLine, String.toList_ofList]
  simp

/-- The number of a line fits into the gutter, and the gutter under it is as wide. -/
theorem underlined_format {snippet : Snippet} (oneLine : OneLine snippet.line) :
    Underlined snippet.format snippet.line.toList (snippet.startColumn - 1)
      (max 1 (snippet.endColumn - snippet.startColumn)) := by
  have digits : OneLine (toString snippet.lineNumber) := by
    show '\n' ∉ snippet.lineNumber.repr.toList
    rw [Nat.toList_repr]
    exact Text.toDigits_oneLine (by decide) (by decide) _
  have bar : OneLine " | " := by decide
  have gutter := (alignRight_oneLine digits snippet.gutterWidth).append bar
  have margin : OneLine (alignRight snippet.gutterWidth "" ++ " | ") :=
    (alignRight_oneLine (by decide) snippet.gutterWidth).append bar
  refine ⟨(alignRight snippet.gutterWidth (toString snippet.lineNumber) ++ " | ").toList, _, ?_,
    ?_, margin, ?_⟩
  · have fits : (toString snippet.lineNumber).length ≤ snippet.gutterWidth := Nat.le_max_right _ _
    rw [String.toList_append, String.toList_append, List.length_append, List.length_append,
      length_alignRight, length_alignRight, Nat.max_eq_left fits, String.length_empty, Nat.max_zero]
  · rw [List.mem_append]
    exact fun feed => feed.elim gutter oneLine
  · simp [format, String.toList_append]

/-! ### What is marked -/

/-- What it means that an excerpt shows the bytes of a line column for column, and marks on it the
part of a span that lies before a limit: one caret under each byte, the first under the byte that
the span begins with. -/
structure Marks (source : List UInt8) (span : Span) (line : Stretch) (limit : Nat)
    (snippet : Snippet) : Prop where
  shown : ∀ column < snippet.line.length, snippet.line.toList[column]? =
    source[line.start + column]?.map fun b => Char.ofNat b.toNat
  visible : line.start ≤ span.start ∧ span.start < line.start + snippet.line.length
  underlined : Underlined snippet.format snippet.line.toList (span.start - line.start)
    (min span.stop limit - span.start)

end Snippet

/-- What it means that a span takes in a carriage return at the end of a line: from one of its
bytes on there is nothing else on the line. -/
def Span.TakesReturn (source : List UInt8) (line : Stretch) (span : Span) : Prop :=
  ∃ offset, span.start ≤ offset ∧ offset < span.stop ∧ offset < line.stop ∧
    ∀ later, offset ≤ later → later < line.stop → source[later]? = some 0x0D

namespace Snippet

variable {source : List UInt8} {span : Span} {line : Stretch} {snippet : Snippet}

/-- In ASCII what is shown of a line are its bytes up to where only carriage returns follow. -/
theorem ShowsLine.bytes (shows : snippet.ShowsLine source span line)
    (ascii : ∀ b ∈ source, b < 0x80) (isLine : line.IsLine source) :
    line.start + snippet.line.length ≤ line.stop ∧
      (∀ column < snippet.line.length, snippet.line.toList[column]? =
        source[line.start + column]?.map fun b => Char.ofNat b.toNat) ∧
      ∀ offset, line.start + snippet.line.length ≤ offset → offset < line.stop →
        source[offset]? = some 0x0D := by
  obtain ⟨returns, text⟩ := shows.text
  have decoded := @Text.decodeLossy_ascii (line.text source) fun b member => by
    obtain ⟨offset, -, found⟩ := Stretch.mem_text_iff.mp member
    exact ascii b (List.mem_of_getElem? found)
  rw [decoded] at text
  have size : (line.text source).length = line.stop - line.start := by
    rw [Stretch.text, List.length_drop, List.length_take_of_le isLine.inside]
  have sizes := congrArg List.length text
  have ordered := isLine.ordered
  rw [List.length_map, size, List.length_append, List.length_replicate,
    String.length_toList] at sizes
  have byte {index : Nat} (within : line.start + index < line.stop) :
      (line.text source)[index]? = source[line.start + index]? := by
    rw [Stretch.text, List.getElem?_drop, List.getElem?_take_of_lt within]
  refine ⟨by omega, fun column before => ?_, fun offset behind before => ?_⟩
  · have here := congrArg (·[column]?) text
    simp only [List.getElem?_map] at here
    rw [byte (by omega), List.getElem?_append_left (by rwa [String.length_toList])] at here
    exact here.symm
  · have here := congrArg (·[offset - line.start]?) text
    simp only [List.getElem?_map] at here
    rw [byte (by omega), Nat.add_sub_cancel' (by omega),
      List.getElem?_append_right (by rw [String.length_toList]; omega),
      List.getElem?_replicate_of_lt (by rw [String.length_toList]; omega)] at here
    obtain ⟨b, found, same⟩ := Option.map_eq_some_iff.mp here
    rw [found, Text.eq_of_ofNat_eq_return same]

/-- A span that begins where something is shown takes in a carriage return at the end of the line
just if it goes on behind what is shown. -/
theorem ShowsLine.takesReturn_iff (shows : snippet.ShowsLine source span line)
    (ascii : ∀ b ∈ source, b < 0x80) (isLine : line.IsLineAt source span.start)
    (visible : span.start < line.start + snippet.line.length) :
    span.TakesReturn source line ↔
      line.start + snippet.line.length < min span.stop line.stop := by
  obtain ⟨within, shown, returns⟩ := shows.bytes ascii isLine.toIsLine
  constructor
  · rintro ⟨offset, behind, before, inside, only⟩
    -- The last character that is shown is no carriage return, so it stands before them.
    have beyond : line.start + snippet.line.length ≤ offset := by
      by_contra less
      have start := isLine.start_le
      have last := shown (snippet.line.length - 1) (by omega)
      rw [only (line.start + (snippet.line.length - 1)) (by omega) (by omega)] at last
      refine shows.trimmed ?_
      rw [List.getLast?_eq_getElem?, String.length_toList, last]
      rfl
    omega
  · intro beyond
    exact ⟨line.start + snippet.line.length, visible.le, by omega, by omega, returns⟩

end Snippet

/-! ### Errors -/

/-- An error lies over bytes of the source, and the first of them is no blank. -/
theorem bytes_of_mem_errors {source : List UInt8} {mode : PositionMode} {error : LexError}
    (reported : error ∈ (tokenize source mode).errors) :
    error.span.start < error.span.stop ∧
      ∃ b, source[error.span.start]? = some b ∧ b ≠ lineFeed ∧ b ≠ 0x0D := by
  have spans := List.mem_map_of_mem (f := LexError.span) reported
  rw [spans_errors_tokenize] at spans
  obtain ⟨token, illegal, same⟩ := List.mem_map.mp spans
  obtain ⟨member, faulty⟩ := List.mem_filter.mp illegal
  have inner : token.isEof = false := by
    by_contra eof
    rw [Token.legal_of_isEof (Bool.of_not_eq_false eof)] at faulty
    exact Bool.noConfusion faulty
  obtain ⟨lexeme, lexed, before, start, stop⟩ := exists_lexeme_of_not_isEof member inner
  rw [← same, start, stop]
  refine ⟨(Lexeme.bounds_of_mem lexed).2 before, source[lexeme.offset],
    List.getElem?_eq_getElem before, ?_⟩
  -- Otherwise the first byte would have been skipped.
  have sharp := ((tiled_lexemes source).of_mem lexed).2.2.2 before
  rw [List.drop_eq_getElem_cons before] at sharp
  have visible (blank : source[lexeme.offset] = 0x0A ∨ source[lexeme.offset] = 0x0D) : False :=
    sharp ⟨[source[lexeme.offset]], _, rfl, .blank _ (.inr (.inr blank))⟩
  exact ⟨fun feed => visible (.inl feed), fun cr => visible (.inr cr)⟩

namespace Snippet

variable {source : List UInt8} {span : Span} {line : Stretch} {snippet : Snippet}

/-- A span that begins with a byte which is no blank has a caret under each of its bytes on the
line, and something is shown above the first. -/
theorem ShowsLine.marks (shows : snippet.ShowsLine source span line)
    (ascii : ∀ b ∈ source, b < 0x80) (isLine : line.IsLineAt source span.start)
    (nonempty : span.start < span.stop) {b : UInt8} (first : source[span.start]? = some b)
    (feed : b ≠ lineFeed) (cr : b ≠ 0x0D) : snippet.Marks source span line line.stop := by
  obtain ⟨within, shown, returns⟩ := shows.bytes ascii isLine.toIsLine
  obtain ⟨inside, -⟩ := List.getElem?_eq_some_iff.mp first
  have start := isLine.start_le
  have before : span.start < line.stop := by
    rcases Nat.lt_or_eq_of_le isLine.le_stop with less | same
    · exact less
    · rcases isLine.ends with last | found
      · omega
      · rw [← same, first] at found
        exact absurd (Option.some.inj found) feed
  have visible : span.start < line.start + snippet.line.length := by
    by_contra behind
    have found := returns span.start (by omega) before
    rw [first] at found
    exact cr (Option.some.inj found)
  refine ⟨shown, ⟨start, visible⟩, ?_⟩
  have carets : max 1 (snippet.endColumn - snippet.startColumn) =
      min span.stop line.stop - span.start := by
    have width := shows.width
    omega
  have indent : snippet.startColumn - 1 = span.start - line.start := by
    rw [shows.startColumn, Nat.add_sub_cancel]
  have picture := underlined_format shows.oneLine
  rwa [carets, indent] at picture

/-- The carets keep to what is shown just if the span takes in no carriage return at the end of
the line. -/
theorem Marks.shown_iff (marks : snippet.Marks source span line line.stop)
    (shows : snippet.ShowsLine source span line) (ascii : ∀ b ∈ source, b < 0x80)
    (isLine : line.IsLineAt source span.start) :
    snippet.Marks source span line (line.start + snippet.line.length) ↔
      ¬ span.TakesReturn source line := by
  obtain ⟨within, -, -⟩ := shows.bytes ascii isLine.toIsLine
  obtain ⟨start, visible⟩ := marks.visible
  rw [shows.takesReturn_iff ascii isLine visible, Nat.not_lt]
  constructor
  · intro exactly
    have same := marks.underlined.unique exactly.underlined
    omega
  · intro returns
    have same : min span.stop (line.start + snippet.line.length) = min span.stop line.stop := by
      omega
    exact ⟨marks.shown, marks.visible, same ▸ marks.underlined⟩

end Snippet

/-- In a source of ASCII every error can be shown. Its excerpt has two rows with gutters of one
width: the bytes of its line column for column, and under them one caret for each byte of the
lexeme that lies on the line. So the carets keep to what is shown, but for one case: they go on
behind it just if the lexeme takes in a carriage return at the end of the line. -/
theorem carets_exact_iff (source : List UInt8) (mode : PositionMode)
    (ascii : ∀ b ∈ source, b < 0x80) :
    ∀ error ∈ (tokenize source mode).errors, ∃ (snippet : Snippet) (line : Stretch),
      Snippet.ofSource? source error.span = some snippet ∧
      line.IsLineAt source error.span.start ∧ snippet.ShowsLine source error.span line ∧
      snippet.Marks source error.span line line.stop ∧
      (snippet.Marks source error.span line (line.start + snippet.line.length) ↔
        ¬ error.span.TakesReturn source line) := by
  intro error reported
  obtain ⟨nonempty, b, first, feed, cr⟩ := bytes_of_mem_errors reported
  obtain ⟨inside, -⟩ := List.getElem?_eq_some_iff.mp first
  cases cut : Snippet.ofSource? source error.span with
  | none => exact absurd ((Snippet.ofSource?_eq_none_iff source error.span).mp cut) (by omega)
  | some snippet =>
    obtain ⟨line, isLine, shows⟩ := Snippet.showsLine cut
    have marks := shows.marks ascii isLine nonempty first feed cr
    exact ⟨snippet, line, rfl, isLine, shows, marks, marks.shown_iff shows ascii isLine⟩

/-- The second line, with two carriage returns at its end, has a literal that is closed, and an
unknown byte behind it. -/
theorem carets_exact_iff_unknown :
    let source : List UInt8 := [0x0A, 0x22, 0x5C, 0x71, 0x22, 0x40, 0x0D, 0x0D, 0x0A]
    (∀ b ∈ source, b < 0x80) ∧
      (tokenize source .lineColumn).errors = [⟨.badEscape, ⟨1, 5, 2, 1, 0⟩⟩,
        ⟨.strayByte, ⟨5, 6, 2, 5, 0⟩⟩] ∧
      ∀ error ∈ (tokenize source .lineColumn).errors, ∃ (snippet : Snippet) (line : Stretch),
        Snippet.ofSource? source error.span = some snippet ∧
        line.IsLineAt source error.span.start ∧ snippet.ShowsLine source error.span line ∧
        snippet.Marks source error.span line line.stop ∧
        (snippet.Marks source error.span line (line.start + snippet.line.length) ↔
          ¬ error.span.TakesReturn source line) := by
  intro source
  have ascii : ∀ b ∈ source, b < 0x80 := by decide +kernel
  exact ⟨ascii, by decide +kernel, carets_exact_iff source .lineColumn ascii⟩

/-- A string that is left open before a carriage return has a caret more than it shows. -/
theorem carets_past_line :
    let source : List UInt8 := [0x22, 0x61, 0x0D, 0x0A]
    ¬ ∀ error ∈ (tokenize source .columnOnly).errors, ∃ (snippet : Snippet) (line : Stretch),
      Snippet.ofSource? source error.span = some snippet ∧
      line.IsLineAt source error.span.start ∧
      snippet.Marks source error.span line (line.start + snippet.line.length) := by
  intro source exactly
  have reported : ⟨.openString, ⟨0, 3, 1, 1, 0⟩⟩ ∈ (tokenize source .columnOnly).errors := by
    decide +kernel
  obtain ⟨snippet, line, cut, isLine, marks⟩ := exactly _ reported
  have shown : Snippet.ofSource? source ⟨0, 3, 1, 1, 0⟩ = some ⟨"\"a", 1, 1, 4⟩ := by
    decide +kernel
  obtain rfl := Option.some.inj (cut.symm.trans shown)
  have start : line.start = 0 := Nat.le_zero.mp isLine.start_le
  have drawn := @Snippet.underlined_format ⟨"\"a", 1, 1, 4⟩ (by decide)
  have exact := marks.underlined
  rw [start] at exact
  have same : 3 = 2 := drawn.unique exact
  exact absurd same (by decide)

end Lexis
