/-
This file proves that an excerpt shows the line that its span begins on, wherever the span comes
from. The cut is made without offsets: the text before the span is read back to its last line
feed, and the text behind its beginning is read up to the first. What a line is can be said apart
from this: a piece of the source without a line feed that is part of no larger one. Around every
offset there is just one, also around the offset of a line feed and around the end of the source.

The same cut can be made with offsets, and then slices may lie out of range, differences may be
negative and the bounds of the highlight may be out of order; spans come from callers too, and one
may end before it begins or behind the source. This cut is written out with each such step failing
where it would fail, and it never fails.
-/

import Mathlib.Data.List.DropRight
import Lexis.Proofs.Lines
import Lexis.Proofs.Places

namespace Lexis

/-! ### Lines of a source -/

namespace Stretch

/-- A line of a source: a piece without a line feed that is part of no larger one. -/
structure IsLine (source : List UInt8) (line : Stretch) : Prop where
  ordered : line.start ≤ line.stop
  inside : line.stop ≤ source.length
  oneLine : lineFeed ∉ line.text source
  maximal : ∀ other : Stretch, other.start ≤ line.start → line.stop ≤ other.stop →
    other.stop ≤ source.length → lineFeed ∉ other.text source → other = line

/-- A line that an offset lies on. The offset behind the last byte of a line lies on it too. -/
structure IsLineAt (source : List UInt8) (offset : Nat) (line : Stretch) : Prop extends
    IsLine source line where
  start_le : line.start ≤ offset
  le_stop : offset ≤ line.stop

variable {source : List UInt8} {offset : Nat} {line : Stretch}

theorem mem_text_iff {b : UInt8} :
    b ∈ line.text source ↔ ∃ offset, line.holds offset = true ∧ source[offset]? = some b := by
  simp only [text, holds, List.mem_iff_getElem?, List.getElem?_drop, List.getElem?_take,
    Bool.and_eq_true, decide_eq_true_eq]
  constructor
  · rintro ⟨index, found⟩
    by_cases before : line.start + index < line.stop
    · rw [if_pos before] at found
      exact ⟨line.start + index, ⟨Nat.le_add_right _ _, before⟩, found⟩
    · rw [if_neg before] at found
      cases found
  · rintro ⟨offset, ⟨behind, before⟩, found⟩
    refine ⟨offset - line.start, ?_⟩
    rw [Nat.add_sub_cancel' behind, if_pos before, found]

theorem text_append (above middle below : List UInt8) :
    (mk above.length (above.length + middle.length)).text (above ++ middle ++ below) = middle := by
  rw [text, ← List.length_append, List.take_left, List.drop_left]

/-- What lies between two line feeds, or between one and an end of the source, is a line. -/
theorem isLine_append {above middle below : List UInt8}
    (begins : above = [] ∨ ∃ more, above = more ++ [lineFeed]) (oneLine : lineFeed ∉ middle)
    (ends : below = [] ∨ ∃ more, below = lineFeed :: more) :
    IsLine (above ++ middle ++ below) ⟨above.length, above.length + middle.length⟩ where
  ordered := Nat.le_add_right _ _
  inside := by
    rw [← List.length_append]
    exact (List.prefix_append _ _).length_le
  oneLine := by rwa [text_append]
  maximal := by
    rintro ⟨start, stop⟩ before behind inside whole
    dsimp only at before behind inside
    -- A larger piece would hold the line feed above the line, or the one below it.
    have feedless {feed : Nat} (found : (above ++ middle ++ below)[feed]? = some lineFeed) :
        ¬ (start ≤ feed ∧ feed < stop) := fun held =>
      whole (mem_text_iff.mpr ⟨feed, by simpa [holds] using held, found⟩)
    have first : start = above.length := by
      rcases begins with rfl | ⟨more, rfl⟩
      · exact Nat.le_zero.mp before
      · have outside := @feedless more.length (by simp [List.append_assoc])
        rw [List.length_append, List.length_singleton] at before behind ⊢
        omega
    have last : stop = above.length + middle.length := by
      rcases ends with rfl | ⟨more, rfl⟩
      · rw [List.append_nil, List.length_append] at inside
        omega
      · have outside := @feedless (above ++ middle).length (by simp)
        rw [List.length_append] at outside
        omega
    rw [first, last]

/-- A line stops at the end of the source or at a line feed. -/
theorem IsLine.ends (isLine : IsLine source line) :
    line.stop = source.length ∨ source[line.stop]? = some lineFeed := by
  by_contra neither
  obtain ⟨more, other⟩ := not_or.mp neither
  have before : line.stop < source.length := Nat.lt_of_le_of_ne isLine.inside more
  have longer := isLine.maximal ⟨line.start, line.stop + 1⟩ le_rfl (Nat.le_succ _) before <| by
    intro feed
    obtain ⟨offset, held, found⟩ := mem_text_iff.mp feed
    simp only [holds, Bool.and_eq_true, decide_eq_true_eq] at held
    rcases Nat.lt_or_eq_of_le (Nat.le_of_lt_succ held.2) with inner | rfl
    · exact isLine.oneLine (mem_text_iff.mpr ⟨offset, by simp [holds, held.1, inner], found⟩)
    · exact other found
  exact absurd (congrArg stop longer) (Nat.succ_ne_self _)

/-- No two lines have an offset in common. -/
theorem IsLineAt.unique {other : Stretch} (first : IsLineAt source offset line)
    (second : IsLineAt source offset other) : line = other := by
  let both : Stretch := ⟨min line.start other.start, max line.stop other.stop⟩
  have inside : both.stop ≤ source.length := Nat.max_le.mpr ⟨first.inside, second.inside⟩
  -- What the two hold together is held by one of them on either side of the offset.
  have whole : lineFeed ∉ both.text source := by
    intro feed
    obtain ⟨index, held, found⟩ := mem_text_iff.mp feed
    simp only [holds, both, Bool.and_eq_true, decide_eq_true_eq] at held
    have firstOut : ¬ (line.start ≤ index ∧ index < line.stop) := fun held =>
      first.oneLine (mem_text_iff.mpr ⟨index, by simpa [holds] using held, found⟩)
    have secondOut : ¬ (other.start ≤ index ∧ index < other.stop) := fun held =>
      second.oneLine (mem_text_iff.mpr ⟨index, by simpa [holds] using held, found⟩)
    have := first.start_le
    have := first.le_stop
    have := second.start_le
    have := second.le_stop
    omega
  have isFirst := first.maximal both (Nat.min_le_left _ _) (Nat.le_max_left _ _) inside whole
  have isSecond := second.maximal both (Nat.min_le_right _ _) (Nat.le_max_right _ _) inside whole
  exact isFirst.symm.trans isSecond

end Stretch

/-- The line is read up to its line feed, if it has one. -/
theorem Snippet.firstLine_cases (text : List UInt8) :
    ∃ below, text = firstLine text ++ below ∧ lineFeed ∉ firstLine text ∧
      (below = [] ∨ ∃ more, below = lineFeed :: more) := by
  refine ⟨text.dropWhile (· ≠ lineFeed), ?_, ?_, ?_⟩
  · exact List.takeWhile_append_dropWhile.symm
  · intro member
    exact absurd (List.mem_takeWhile_imp member) (by simp)
  · cases rest : text.dropWhile (· ≠ lineFeed) with
    | nil => exact .inl rfl
    | cons b more =>
      have nonempty : text.dropWhile (· ≠ lineFeed) ≠ [] := rest.symm ▸ List.cons_ne_nil b more
      have feed := List.head_dropWhile_not (· ≠ lineFeed) nonempty
      simp only [rest, List.head_cons, decide_eq_false_iff_not, not_not] at feed
      exact .inr ⟨more, by rw [feed]⟩

/-- A source around an offset: what lies above the line, the line before the offset and behind
it, and what lies below. -/
structure LineSplit (source : List UInt8) (offset : Nat) (above head tail below : List UInt8) :
    Prop where
  before : source.take offset = above ++ head
  behind : source.drop offset = tail ++ below
  begins : above = [] ∨ ∃ more, above = more ++ [lineFeed]
  ends : below = [] ∨ ∃ more, below = lineFeed :: more
  lastLine : Snippet.lastLine (source.take offset) = head
  firstLine : Snippet.firstLine (source.drop offset) = tail
  headOneLine : lineFeed ∉ head
  tailOneLine : lineFeed ∉ tail

theorem exists_lineSplit (source : List UInt8) (offset : Nat) :
    ∃ above head tail below, LineSplit source offset above head tail below := by
  obtain ⟨above, before, begins, head⟩ := Snippet.lastLine_cases (source.take offset)
  obtain ⟨below, behind, tail, ends⟩ := Snippet.firstLine_cases (source.drop offset)
  exact ⟨above, _, _, below, before, behind, begins, ends, rfl, rfl, head, tail⟩

namespace LineSplit

variable {source above head tail below : List UInt8} {offset : Nat}

theorem source_eq (split : LineSplit source offset above head tail below) :
    source = above ++ (head ++ tail) ++ below := by
  rw [← List.take_append_drop offset source, split.before, split.behind]
  simp only [List.append_assoc]

theorem offset_eq (split : LineSplit source offset above head tail below)
    (inside : offset ≤ source.length) : offset = above.length + head.length := by
  rw [← List.length_append, ← split.before, List.length_take_of_le inside]

theorem isLineAt (split : LineSplit source offset above head tail below)
    (inside : offset ≤ source.length) :
    Stretch.IsLineAt source offset ⟨above.length, above.length + (head ++ tail).length⟩ := by
  have oneLine : lineFeed ∉ head ++ tail := fun member =>
    (List.mem_append.mp member).elim split.headOneLine split.tailOneLine
  have isLine := Stretch.isLine_append split.begins oneLine split.ends
  rw [← split.source_eq] at isLine
  have offset_eq := split.offset_eq inside
  refine ⟨isLine, ?_, ?_⟩
  · exact offset_eq ▸ Nat.le_add_right _ _
  · rw [offset_eq, List.length_append]
    exact Nat.add_le_add_left (Nat.le_add_right _ _) _

theorem text_line (split : LineSplit source offset above head tail below) :
    (Stretch.mk above.length (above.length + (head ++ tail).length)).text source =
      head ++ tail := by
  rw [split.source_eq, Stretch.text_append]

end LineSplit

/-! ### Decoding keeps to a line -/

namespace Text

/-- A character that has begun and can only become one beyond ASCII. -/
def PartialChar.Wide (begun : PartialChar) : Prop :=
  2 ≤ begun.bits ∨ 2 ≤ begun.missing ∧ (1 ≤ begun.bits ∨ 0x82 ≤ begun.low.toNat)

instance (begun : PartialChar) : Decidable begun.Wide := inferInstanceAs (Decidable (_ ∨ _))

theorem PartialChar.start?_wide (lead : UInt8) : ∀ begun ∈ start? lead, begun.Wide := by
  have every : ∀ n : Fin 256, ∀ begun ∈ start? (.ofNat n), begun.Wide := by decide +kernel
  have here := every ⟨lead.toNat, lead.toNat_lt⟩
  rwa [UInt8.ofNat_toNat] at here

/-- Only the byte of a line feed is read as one. -/
theorem eq_of_lineFeed_eq_ofNat {code : Nat} (feed : '\n' = Char.ofNat code) : code = 10 := by
  have codes : (Char.ofNat code).toNat = 10 := (congrArg Char.toNat feed).symm
  by_cases valid : code.isValidChar
  · rw [Char.ofNat, dif_pos valid] at codes
    exact codes
  · rw [Char.ofNat, dif_neg valid] at codes
    exact absurd codes (by decide)

theorem decodeFirst_feed (b : UInt8) :
    ('\n' ∈ (decodeFirst b).1 → b = lineFeed) ∧ ∀ begun ∈ (decodeFirst b).2, begun.Wide := by
  unfold decodeFirst
  split
  · refine ⟨fun feed => ?_, nofun⟩
    have code := eq_of_lineFeed_eq_ofNat (List.mem_singleton.mp feed)
    exact UInt8.toNat_inj.mp code
  · have wide := PartialChar.start?_wide b
    split
    · rename_i begun starts
      refine ⟨nofun, ?_⟩
      rintro _ ⟨⟩
      exact wide begun starts
    · exact ⟨fun feed => absurd feed (by decide), nofun⟩

/-- A byte completes a line feed only if it is one, and what it begins or goes on with cannot
become one. -/
theorem decodeByte_feed {state : Option PartialChar} (wide : ∀ begun ∈ state, begun.Wide)
    (b : UInt8) :
    ('\n' ∈ (decodeByte state b).1 → b = lineFeed) ∧
      ∀ begun ∈ (decodeByte state b).2, begun.Wide := by
  cases state with
  | none => exact decodeFirst_feed b
  | some begun =>
    have bits := wide begun rfl
    unfold PartialChar.Wide at bits
    unfold decodeByte
    dsimp only
    split
    · rename_i continues
      rw [Bool.and_eq_true, decide_eq_true_eq, UInt8.le_iff_toNat_le] at continues
      split
      · refine ⟨fun feed => ?_, nofun⟩
        have code := eq_of_lineFeed_eq_ofNat (List.mem_singleton.mp feed)
        omega
      · refine ⟨fun feed => absurd feed List.not_mem_nil, ?_⟩
        intro next goesOn
        rw [Option.mem_some_iff] at goesOn
        subst goesOn
        have grown : 2 ≤ begun.bits * 64 + (b.toNat - 0x80) := by omega
        exact .inl grown
    · obtain ⟨feeds, later⟩ := decodeFirst_feed b
      refine ⟨fun feed => feeds ?_, later⟩
      exact (List.mem_cons.mp feed).resolve_left (by decide)

/-- The text of bytes without a line feed is on one line, whatever else the bytes are. -/
theorem decodeFrom_feed {state : Option PartialChar} (wide : ∀ begun ∈ state, begun.Wide)
    {bytes : List UInt8} (feed : '\n' ∈ decodeFrom state bytes) : lineFeed ∈ bytes := by
  induction bytes generalizing state with
  | nil =>
    cases state with
    | none => exact nomatch feed
    | some begun => exact absurd feed (by simp [decodeFrom, replacement])
  | cons b rest inductionHypothesis =>
    obtain ⟨feeds, later⟩ := decodeByte_feed wide b
    rw [decodeFrom, List.mem_append] at feed
    rcases feed with here | behind
    · rw [feeds here]
      exact List.mem_cons_self
    · exact List.mem_cons_of_mem b (inductionHypothesis later behind)

theorem decodeLossy_oneLine {bytes : List UInt8} (oneLine : lineFeed ∉ bytes) :
    OneLine (decodeLossy bytes) := by
  rw [OneLine, decodeLossy, String.toList_ofList]
  exact fun feed => oneLine (decodeFrom_feed (by simp) feed)

end Text

namespace Snippet

/-! ### The end of the line -/

/-- Only carriage returns are taken off the end, and all of them. -/
theorem trimReturns_cases (text : String) :
    (∃ returns, text.toList = (trimReturns text).toList ++ List.replicate returns '\r') ∧
      (trimReturns text).toList.getLast? ≠ some '\r' := by
  have trimmed : (trimReturns text).toList = text.toList.rdropWhile (· = '\r') :=
    String.toList_ofList
  rw [trimmed]
  constructor
  · refine ⟨(text.toList.rtakeWhile (· = '\r')).length, ?_⟩
    have returns : text.toList.rtakeWhile (· = '\r') = List.replicate _ '\r' :=
      List.eq_replicate_of_mem fun c member => by simpa using List.mem_rtakeWhile_imp member
    rw [← returns, List.rdropWhile_append_rtakeWhile]
  · intro last
    obtain ⟨before, split⟩ := List.getLast?_eq_some_iff.mp last
    have nonempty : text.toList.rdropWhile (· = '\r') ≠ [] := by simp [split]
    exact List.rdropWhile_last_not (· = '\r') text.toList nonempty (by simp [split])

/-! ### The cut with offsets -/

/-- The bytes between two offsets, if these are in order and in range. -/
def slice? (bytes : List UInt8) (start stop : Nat) : Option (List UInt8) :=
  if start ≤ stop ∧ stop ≤ bytes.length then some ((Stretch.mk start stop).text bytes) else none

/-- A difference, if it is not negative. -/
def minus? (n m : Nat) : Option Nat := if m ≤ n then some (n - m) else none

/-- A number moved between two bounds, if these are in order. -/
def clamp? (n low high : Nat) : Option Nat :=
  if low ≤ high then some (max low (min n high)) else none

def firstFeed? (bytes : List UInt8) : Option Nat := bytes.findIdx? (· = lineFeed)

def lastFeed? (bytes : List UInt8) : Option Nat :=
  (bytes.reverse.findIdx? (· = lineFeed)).map (bytes.length - 1 - ·)

/-- The snippet for a span of a source, cut with offsets. There is no answer where one of the
steps fails. -/
def cut? (source : List UInt8) (span : Span) : Option (Option Snippet) :=
  if source.length < span.start then some none
  else do
    let before ← slice? source 0 span.start
    let behind ← slice? source span.start source.length
    let start := (lastFeed? before).elim 0 (· + 1)
    let stop := (firstFeed? behind).elim source.length (span.start + ·)
    let above ← slice? source 0 start
    let line ← slice? source start stop
    let indent ← minus? span.start start
    let reached ← clamp? span.stop span.start stop
    let width ← minus? reached start
    some (some
      { line := trimReturns (Text.decodeLossy line)
        lineNumber := above.count lineFeed + 1
        startColumn := indent + 1
        endColumn := width + 1 })

theorem slice?_of_le {bytes : List UInt8} {start stop : Nat} (ordered : start ≤ stop)
    (inside : stop ≤ bytes.length) :
    slice? bytes start stop = some ((Stretch.mk start stop).text bytes) :=
  if_pos ⟨ordered, inside⟩

theorem findIdx?_feed {text : List UInt8} (oneLine : lineFeed ∉ text) :
    text.findIdx? (· = lineFeed) = none ∧
      ∀ more, (text ++ lineFeed :: more).findIdx? (· = lineFeed) = some text.length := by
  have nowhere : text.findIdx? (· = lineFeed) = none :=
    List.findIdx?_eq_none_iff.mpr fun b member =>
      decide_eq_false fun feed => oneLine (feed ▸ member)
  refine ⟨nowhere, fun more => ?_⟩
  rw [List.findIdx?_append, nowhere, List.findIdx?_cons, if_pos (by simp)]
  simp

/-- Behind the last line feed lies the line. -/
theorem lastFeed?_append {above head : List UInt8}
    (begins : above = [] ∨ ∃ more, above = more ++ [lineFeed]) (oneLine : lineFeed ∉ head) :
    (lastFeed? (above ++ head)).elim 0 (· + 1) = above.length := by
  obtain ⟨nowhere, found⟩ := findIdx?_feed (fun member => oneLine (List.mem_reverse.mp member))
  unfold lastFeed?
  rcases begins with rfl | ⟨more, rfl⟩
  · rw [List.nil_append, nowhere]
    rfl
  · rw [List.reverse_append, List.reverse_append, List.reverse_singleton, List.singleton_append,
      found]
    simp only [Option.map_some, Option.elim_some, List.length_append, List.length_singleton,
      List.length_reverse]
    omega

/-- Up to the first line feed goes the line. -/
theorem firstFeed?_append {tail below : List UInt8} (oneLine : lineFeed ∉ tail)
    (ends : below = [] ∨ ∃ more, below = lineFeed :: more) (offset : Nat) :
    (firstFeed? (tail ++ below)).elim (offset + (tail ++ below).length) (offset + ·) =
      offset + tail.length := by
  obtain ⟨nowhere, found⟩ := findIdx?_feed oneLine
  unfold firstFeed?
  rcases ends with rfl | ⟨more, rfl⟩
  · rw [List.append_nil, nowhere]
    rfl
  · rw [found]
    rfl

end Snippet

namespace LineSplit

variable {source above head tail below : List UInt8} {offset : Nat}

/-- The searches of the cut find the two ends of the line. -/
theorem searches (split : LineSplit source offset above head tail below)
    (inside : offset ≤ source.length) :
    (Snippet.lastFeed? (source.take offset)).elim 0 (· + 1) = above.length ∧
      (Snippet.firstFeed? (source.drop offset)).elim source.length (offset + ·) =
        above.length + (head ++ tail).length := by
  have size : offset + (tail ++ below).length = source.length := by
    rw [← split.behind, List.length_drop, Nat.add_sub_cancel' inside]
  constructor
  · rw [split.before]
    exact Snippet.lastFeed?_append split.begins split.headOneLine
  · have stop := Snippet.firstFeed?_append split.tailOneLine split.ends offset
    rw [size, ← split.behind] at stop
    rw [stop, split.offset_eq inside, List.length_append, Nat.add_assoc]

/-- The slices of the cut are the parts that the source is split into. -/
theorem slices (split : LineSplit source offset above head tail below)
    (inside : offset ≤ source.length) :
    Snippet.slice? source 0 offset = some (source.take offset) ∧
      Snippet.slice? source offset source.length = some (source.drop offset) ∧
      Snippet.slice? source 0 above.length = some above ∧
      Snippet.slice? source above.length (above.length + (head ++ tail).length) =
        some (head ++ tail) := by
  have line := split.isLineAt inside
  refine ⟨Snippet.slice?_of_le (Nat.zero_le _) inside, ?_, ?_, ?_⟩
  · rw [Snippet.slice?_of_le inside le_rfl, Stretch.text, List.take_length]
  · rw [Snippet.slice?_of_le (Nat.zero_le _) (line.start_le.trans inside), split.source_eq,
      List.append_assoc, Stretch.text, List.take_left, List.drop_zero]
  · rw [Snippet.slice?_of_le line.ordered line.inside, split.text_line]

theorem count_above (split : LineSplit source offset above head tail below) :
    above.count lineFeed = (source.take offset).count lineFeed := by
  rw [split.before, List.count_append, List.count_eq_zero.mpr split.headOneLine, Nat.add_zero]

end LineSplit

/-- No step of the cut with offsets fails, whatever the span is, and it gives the same. -/
theorem Snippet.cut?_eq (source : List UInt8) (span : Span) :
    cut? source span = some (ofSource? source span) := by
  unfold cut? ofSource?
  by_cases beyond : source.length < span.start
  · rw [if_pos beyond, if_pos beyond]
  · have inside := Nat.le_of_not_lt beyond
    obtain ⟨above, head, tail, below, split⟩ := exists_lineSplit source span.start
    obtain ⟨start, stop⟩ := split.searches inside
    obtain ⟨before, behind, aboveLine, line⟩ := split.slices inside
    have offset := split.offset_eq inside
    have size : (head ++ tail).length = head.length + tail.length := List.length_append
    -- The highlight lies between the beginning of the span and the end of the line.
    let reached := max span.start (min span.stop (above.length + (head ++ tail).length))
    have indent : minus? span.start above.length = some head.length := by
      rw [minus?, if_pos (by omega), offset, Nat.add_sub_cancel_left]
    have clamped : clamp? span.stop span.start (above.length + (head ++ tail).length) =
        some reached := if_pos (by omega)
    have width : minus? reached above.length = some (reached - above.length) :=
      if_pos (by omega)
    have highlight : reached - above.length + 1 =
        head.length + 1 + min (span.stop - span.start) tail.length := by omega
    rw [if_neg beyond, if_neg beyond, before, behind]
    simp only [Option.bind_eq_bind, Option.bind_some, start, stop, aboveLine, line, indent, clamped,
      width, split.count_above, split.lastLine, split.firstLine, highlight]

/-! ### Excerpts -/

/-- What it means that an excerpt shows a line of a source with a span highlighted on it. -/
structure Snippet.ShowsLine (source : List UInt8) (span : Span) (line : Stretch)
    (snippet : Snippet) : Prop where
  /-- The text is that of the line, without the carriage returns at its end. -/
  text : ∃ returns, (Text.decodeLossy (line.text source)).toList =
    snippet.line.toList ++ List.replicate returns '\r'
  trimmed : snippet.line.toList.getLast? ≠ some '\r'
  oneLine : OneLine snippet.line
  number : snippet.lineNumber = 1 + (source.take span.start).count lineFeed
  startColumn : snippet.startColumn = span.start - line.start + 1
  /-- The highlight goes on to the end of the span or of the line, and never backwards. -/
  width : (snippet.endColumn : Int) - snippet.startColumn =
    max 0 (min (span.stop : Int) line.stop - span.start)

theorem Snippet.showsLine {source : List UInt8} {span : Span} {snippet : Snippet}
    (cut : ofSource? source span = some snippet) :
    ∃ line : Stretch, line.IsLineAt source span.start ∧ snippet.ShowsLine source span line := by
  unfold ofSource? at cut
  split at cut
  · exact nomatch cut
  · rename_i beyond
    have inside := Nat.le_of_not_lt beyond
    obtain ⟨above, head, tail, below, split⟩ := exists_lineSplit source span.start
    have offset := split.offset_eq inside
    have size : (head ++ tail).length = head.length + tail.length := List.length_append
    have oneLine : lineFeed ∉ head ++ tail := fun member =>
      (List.mem_append.mp member).elim split.headOneLine split.tailOneLine
    obtain rfl := Option.some.inj cut
    rw [split.lastLine, split.firstLine]
    obtain ⟨⟨returns, decoded⟩, trimmed⟩ := trimReturns_cases (Text.decodeLossy (head ++ tail))
    refine ⟨_, split.isLineAt inside, ?_, trimmed, ?_, Nat.add_comm _ _, ?_, ?_⟩
    · exact ⟨returns, by rw [split.text_line, decoded]⟩
    · have shown := Text.decodeLossy_oneLine oneLine
      rw [OneLine, decoded, List.mem_append] at shown
      exact fun feed => shown (.inl feed)
    · dsimp only
      omega
    · dsimp only
      omega

/-- An excerpt shows the line that its span begins on, for any bytes and for any span. The cut
with offsets never fails and gives the same excerpt. There is none just if the span begins
behind the source; and otherwise the offset at which it begins lies on one line and no other,
and this line is shown. -/
theorem excerpt_shows_line (source : List UInt8) (span : Span) :
    Snippet.cut? source span = some (Snippet.ofSource? source span) ∧
      (Snippet.ofSource? source span = none ↔ source.length < span.start) ∧
      ∀ snippet, Snippet.ofSource? source span = some snippet →
        ∃ line : Stretch, (∀ other, Stretch.IsLineAt source span.start other ↔ other = line) ∧
          (line.stop = source.length ∨ source[line.stop]? = some lineFeed) ∧
          snippet.ShowsLine source span line := by
  refine ⟨Snippet.cut?_eq source span, Snippet.ofSource?_eq_none_iff source span, ?_⟩
  intro snippet cut
  obtain ⟨line, isLineAt, shows⟩ := Snippet.showsLine cut
  refine ⟨line, fun other => ⟨fun isOther => isOther.unique isLineAt, ?_⟩, isLineAt.ends, shows⟩
  rintro rfl
  exact isLineAt

/-- A span that begins on the second of two carriage returns and ends before it, on a line with
half of a character. -/
theorem excerpt_shows_line_backwards :
    let source : List UInt8 := [0x61, 0x0A, 0x62, 0xC3, 0x0D, 0x0D, 0x0A, 0x63]
    let span : Span := ⟨5, 3, 1, 6, 0⟩
    let snippet : Snippet := ⟨"b\uFFFD", 2, 4, 4⟩
    Snippet.ofSource? source span = some snippet ∧
      ∃ line : Stretch, (∀ other, Stretch.IsLineAt source span.start other ↔ other = line) ∧
        (line.stop = source.length ∨ source[line.stop]? = some lineFeed) ∧
        snippet.ShowsLine source span line := by
  intro source span snippet
  have cut : Snippet.ofSource? source span = some snippet := by decide +kernel
  exact ⟨cut, (excerpt_shows_line source span).2.2 snippet cut⟩

end Lexis
