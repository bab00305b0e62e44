/-
This file proves that lexing loses nothing. The lexemes of a source lie side by side from
its beginning to its end with nothing but trivia between them, and none of them begins
where trivia could still be skipped. Read off the spans of the tokens this says that every
byte of the source is in exactly one token or in exactly one of the gaps.

The argument has one induction over the lexemes. It builds `Tiled`, which speaks of the
lexemes from any offset on; everything that is said of the tokens is then an induction
over `Tiled`.
-/

import Lexis.Proofs.Lexemes
import Lexis.Proofs.Trivia

namespace Lexis

/-! ### Stretches of a source -/

/-- The bytes of a source from one offset up to before another. -/
structure Stretch where
  start : Nat
  stop : Nat
  deriving DecidableEq, Repr

def Stretch.holds (stretch : Stretch) (offset : Nat) : Bool :=
  stretch.start ≤ offset && offset < stretch.stop

def Stretch.text (stretch : Stretch) (source : List UInt8) : List UInt8 :=
  (source.take stretch.stop).drop stretch.start

/-- What lies before each of the stretches, from an offset on. -/
def gaps (begin : Nat) : List Stretch → List Stretch
  | [] => []
  | stretch :: rest => ⟨begin, stretch.start⟩ :: gaps stretch.stop rest

/-- How many of the stretches, and of the gaps before them, hold an offset. -/
def coverage (begin : Nat) (stretches : List Stretch) (offset : Nat) : Nat :=
  (stretches ++ gaps begin stretches).countP (·.holds offset)

def Token.stretch (token : Token) : Stretch := ⟨token.span.start, token.span.stop⟩

def Lexeme.stretch (lexeme : Lexeme) : Stretch := ⟨lexeme.offset, lexeme.stop⟩

theorem coverage_cons (begin : Nat) (stretch : Stretch) (rest : List Stretch) (offset : Nat) :
    coverage begin (stretch :: rest) offset =
      coverage stretch.stop rest offset +
        ((if begin ≤ offset ∧ offset < stretch.start then 1 else 0) +
          (if stretch.start ≤ offset ∧ offset < stretch.stop then 1 else 0)) := by
  simp only [coverage, gaps, List.cons_append, List.countP_cons, List.countP_append,
    Stretch.holds, Bool.and_eq_true, decide_eq_true_eq]
  omega

/-! ### Lexemes side by side -/

/-- The lexemes of a source from an offset on, with only trivia before each of them. -/
inductive Tiled (source : List UInt8) : Nat → List Lexeme → Prop
  | stop {begin : Nat} (inside : begin ≤ source.length)
      (trivia : Scan.Trivia (source.drop begin) []) :
      Tiled source begin [⟨source.length, Scan.front []⟩]
  | lexeme {begin : Nat} {lexeme : Lexeme} {rest : List Lexeme} (after : begin ≤ lexeme.offset)
      (inside : lexeme.offset < source.length)
      (found : lexeme.found = Scan.front (source.drop lexeme.offset))
      (trivia : Scan.Trivia ((Stretch.mk begin lexeme.offset).text source)
        (source.drop lexeme.offset))
      (sharp : ¬ Scan.BeginsElement (source.drop lexeme.offset))
      (tail : Tiled source lexeme.stop rest) : Tiled source begin (lexeme :: rest)

theorem tiled_lexemes_drop (source : List UInt8) {begin : Nat} (inside : begin ≤ source.length) :
    Tiled source begin ((lexemes (source.drop begin)).map (Lexeme.shift begin)) := by
  generalize left : source.drop begin = bytes
  have sizes : begin + bytes.length = source.length := by
    rw [← left, List.length_drop]
    omega
  have later (size : Nat) : source.drop (begin + size) = bytes.drop size := by
    rw [← left, List.drop_drop]
  fun_induction lexemes bytes generalizing begin with
  | case1 bytes nothing =>
    have skipped := Scan.trivia_take_triviaSize bytes
    have all : Scan.triviaSize bytes = bytes.length := by
      have reaches := List.drop_eq_nil_iff.mp (List.isEmpty_iff.mp nothing)
      have bound := Scan.triviaSize_le bytes
      omega
    have last : (Lexeme.first bytes).shift begin = ⟨source.length, Scan.front []⟩ := by
      rw [Lexeme.shift, Lexeme.first, List.isEmpty_iff.mp nothing, all, sizes]
    rw [List.map_singleton, last]
    refine .stop inside ?_
    rwa [List.isEmpty_iff.mp nothing, all, List.take_length, ← left] at skipped
  | case2 bytes more inductionHypothesis =>
    have bound := Lexeme.first_stop_le bytes
    have skipped := Scan.trivia_take_triviaSize bytes
    have nonempty : Scan.triviaSize bytes < bytes.length := by simpa using more
    rw [List.map_cons, List.map_map]
    refine .lexeme ?_ ?_ ?_ ?_ ?_ ?_
    · exact Nat.le_add_right begin _
    · show begin + Scan.triviaSize bytes < source.length
      omega
    · show Scan.front _ = Scan.front (source.drop (begin + Scan.triviaSize bytes))
      rw [later]
    · show Scan.Trivia ((source.take (begin + Scan.triviaSize bytes)).drop begin)
        (source.drop (begin + Scan.triviaSize bytes))
      rw [later, List.drop_take, Nat.add_sub_cancel_left, left]
      exact skipped
    · show ¬ Scan.BeginsElement (source.drop (begin + Scan.triviaSize bytes))
      rw [later]
      exact Scan.not_beginsElement_drop_triviaSize bytes
    · rw [Lexeme.shift_stop]
      have reaches : begin + (Lexeme.first bytes).stop ≤ source.length := by omega
      have tail := inductionHypothesis reaches (later _) (by rw [List.length_drop]; omega)
        (fun size => by rw [Nat.add_assoc, later, List.drop_drop])
      have shifts : Lexeme.shift begin ∘ Lexeme.shift (Lexeme.first bytes).stop =
          Lexeme.shift (begin + (Lexeme.first bytes).stop) :=
        funext fun lexeme => lexeme.shift_shift begin _
      rwa [shifts]

theorem tiled_lexemes (source : List UInt8) : Tiled source 0 (lexemes source) := by
  have tiled := tiled_lexemes_drop source (Nat.zero_le _)
  have unmoved : Lexeme.shift 0 = id := by
    funext lexeme
    rw [Lexeme.shift, Nat.zero_add]
    rfl
  rwa [List.drop_zero, unmoved, List.map_id] at tiled

namespace Tiled

variable {source : List UInt8} {begin : Nat} {tiles : List Lexeme}

/-- What a lexeme of a tiling is: it begins no element, and it was read where it lies. -/
theorem of_mem (tiled : Tiled source begin tiles) {lexeme : Lexeme} (member : lexeme ∈ tiles) :
    begin ≤ lexeme.offset ∧ lexeme.offset ≤ source.length ∧
      lexeme.found = Scan.front (source.drop lexeme.offset) ∧
      (lexeme.offset < source.length → ¬ Scan.BeginsElement (source.drop lexeme.offset)) := by
  induction tiled with
  | stop inside trivia =>
    obtain rfl := List.mem_singleton.mp member
    refine ⟨inside, le_rfl, ?_, fun less => absurd less (lt_irrefl _)⟩
    rw [List.drop_length]
  | @lexeme begin first rest after inside found trivia sharp tail inductionHypothesis =>
    rcases List.mem_cons.mp member with rfl | later
    · exact ⟨after, inside.le, found, fun _ => sharp⟩
    · obtain ⟨behind, facts⟩ := inductionHypothesis later
      exact ⟨(after.trans (Nat.le_add_right _ _)).trans behind, facts⟩

theorem ordered (tiled : Tiled source begin tiles) :
    tiles.Pairwise fun first second => first.stop ≤ second.offset := by
  induction tiled with
  | stop inside trivia => exact List.pairwise_singleton _ _
  | lexeme after inside found trivia sharp tail inductionHypothesis =>
    exact List.pairwise_cons.mpr ⟨fun second later => (tail.of_mem later).1, inductionHypothesis⟩

/-- The lexemes end with the end of the source, which none of the others is. -/
theorem ends (tiled : Tiled source begin tiles) :
    ∃ before, tiles = before ++ [⟨source.length, Scan.front []⟩] ∧
      ∀ lexeme ∈ before, lexeme.offset < source.length := by
  induction tiled with
  | stop inside trivia => exact ⟨[], rfl, by simp⟩
  | @lexeme begin first rest after inside found trivia sharp tail inductionHypothesis =>
    obtain ⟨before, rfl, early⟩ := inductionHypothesis
    exact ⟨first :: before, rfl, List.forall_mem_cons.mpr ⟨inside, early⟩⟩

theorem gaps_trivia (tiled : Tiled source begin tiles) :
    ∀ gap ∈ gaps begin (tiles.map Lexeme.stretch),
      gap.start ≤ gap.stop ∧ Scan.Trivia (gap.text source) (source.drop gap.stop) := by
  induction tiled with
  | stop inside trivia =>
    intro gap member
    obtain rfl := List.mem_singleton.mp member
    refine ⟨inside, ?_⟩
    simpa [Stretch.text, Lexeme.stretch] using trivia
  | lexeme after inside found trivia sharp tail inductionHypothesis =>
    intro gap member
    rcases List.mem_cons.mp member with rfl | later
    · exact ⟨after, trivia⟩
    · exact inductionHypothesis gap later

/-- From its beginning on a tiling holds every offset of the source once, and before its
beginning none. -/
theorem coverage_eq (tiled : Tiled source begin tiles) {offset : Nat}
    (inside : offset < source.length) :
    coverage begin (tiles.map Lexeme.stretch) offset = if begin ≤ offset then 1 else 0 := by
  induction tiled with
  | stop begins trivia =>
    rw [List.map_singleton, coverage_cons]
    simp only [Lexeme.stretch, Lexeme.stop, coverage, gaps, List.append_nil, List.countP_nil]
    grind
  | @lexeme begin first rest after within found trivia sharp tail inductionHypothesis =>
    have grows : first.offset ≤ first.stop := Nat.le_add_right _ _
    rw [List.map_cons, coverage_cons]
    simp only [Lexeme.stretch] at inductionHypothesis ⊢
    rw [inductionHypothesis]
    grind

end Tiled

/-! ### Tokens side by side -/

/-- What it means that the tokens of a source leave nothing out. -/
structure Lossless (source : List UInt8) (tokens : List Token) : Prop where
  /-- The last token and no other is the end of the source, and it is empty. -/
  ends : ∃ before last, tokens = before ++ [last] ∧
    (∀ token ∈ before, token.isEof = false) ∧ last.isEof = true ∧
    last.span.start = source.length ∧ last.span.stop = source.length
  /-- Every other token has bytes of the source. -/
  inside : ∀ token ∈ tokens, token.isEof = false →
    token.span.start < token.span.stop ∧ token.span.stop ≤ source.length
  /-- Of two tokens the first ends before the second begins. -/
  ordered : tokens.Pairwise fun first second => first.span.stop ≤ second.span.start
  /-- Before each token, the end of the source included, there are only trivia. -/
  gaps : ∀ gap ∈ gaps 0 (tokens.map Token.stretch),
    gap.start ≤ gap.stop ∧ Scan.Trivia (gap.text source) (source.drop gap.stop)
  /-- No token begins where trivia could still be skipped. -/
  sharp : ∀ token ∈ tokens, token.isEof = false →
    ¬ Scan.BeginsElement (source.drop token.span.start)
  /-- Every byte is in one token and no gap, or in one gap and no token. -/
  once : ∀ offset < source.length, coverage 0 (tokens.map Token.stretch) offset = 1

theorem mem_lexemes {source : List UInt8} {lexeme : Lexeme} (member : lexeme ∈ lexemes source) :
    lexeme.offset ≤ source.length ∧ lexeme.found = Scan.front (source.drop lexeme.offset) := by
  obtain ⟨-, inside, found, -⟩ := (tiled_lexemes source).of_mem member
  exact ⟨inside, found⟩

/-- A lexeme lies inside its source, and only the last has no bytes. -/
theorem Lexeme.bounds_of_mem {source : List UInt8} {lexeme : Lexeme}
    (member : lexeme ∈ lexemes source) :
    lexeme.stop ≤ source.length ∧
      (lexeme.offset < source.length → lexeme.offset < lexeme.stop) := by
  obtain ⟨inside, found⟩ := mem_lexemes member
  have bound := Scan.front_size_le (source.drop lexeme.offset)
  rw [List.length_drop] at bound
  rw [stop, found]
  refine ⟨by omega, fun before => ?_⟩
  have positive : 0 < (Scan.front (source.drop lexeme.offset)).size :=
    Scan.front_size_pos (List.drop_eq_nil_iff.not.mpr (by omega))
  omega

/-- Lexemes up to another do not reach further than that one. -/
theorem Lexeme.stop_le_of_mem_take {source : List UInt8} {index : Nat} {lexeme earlier : Lexeme}
    (found : (lexemes source)[index]? = some lexeme)
    (member : earlier ∈ (lexemes source).take (index + 1)) : earlier.stop ≤ lexeme.stop := by
  have ordered := (tiled_lexemes source).ordered
  rw [List.take_add_one, found, Option.toList_some, List.mem_append,
    List.mem_singleton] at member
  rcases member with before | rfl
  · obtain ⟨inside, rfl⟩ := List.getElem?_eq_some_iff.mp found
    rw [← List.take_append_drop index (lexemes source), List.pairwise_append] at ordered
    have apart := ordered.2.2 earlier before _
      (List.drop_eq_getElem_cons inside ▸ List.mem_cons_self)
    exact apart.trans (Nat.le_add_right _ _)
  · exact le_rfl

/-! ### The spans of tokens -/

theorem Lexeme.span_ofSource_start {source : List UInt8} {lexeme : Lexeme} (mode : PositionMode)
    (file : Nat) (inside : lexeme.offset ≤ source.length) :
    (lexeme.span (.ofSource source) mode file).start = lexeme.offset := by
  rw [span, Span.ofPlace, Reading.place_offset_skip _ _ inside]
  exact Nat.zero_add _

theorem Lexeme.span_ofSource_stop {source : List UInt8} {lexeme : Lexeme} (mode : PositionMode)
    (file : Nat) (inside : lexeme.offset ≤ source.length) :
    (lexeme.span (.ofSource source) mode file).stop = lexeme.stop := by
  rw [span, Span.ofPlace, Reading.place_offset_skip _ _ inside, stop]
  exact congrArg (· + lexeme.found.size) (Nat.zero_add _)

theorem Lexeme.stretch_token {source : List UInt8} {lexeme : Lexeme} (mode : PositionMode)
    (file : Nat) (inside : lexeme.offset ≤ source.length) :
    (lexeme.token (.ofSource source) mode file).stretch = lexeme.stretch := by
  rw [Token.stretch, token, span_ofSource_start mode file inside,
    span_ofSource_stop mode file inside, stretch]

/-- A token is the end of the source just if it was read where the source ends. -/
theorem Lexeme.isEof_token_iff {source : List UInt8} {lexeme : Lexeme}
    (member : lexeme ∈ lexemes source) (reading : Reading) (mode : PositionMode) (file : Nat) :
    (lexeme.token reading mode file).isEof = true ↔ lexeme.offset = source.length := by
  obtain ⟨inside, found⟩ := mem_lexemes member
  have eof := Scan.front_kind_eq_eof_iff (source.drop lexeme.offset)
  rw [Token.isEof, token, found, decide_eq_true_eq, eof, List.drop_eq_nil_iff]
  omega

theorem stretches_tokenize (source : List UInt8) (mode : PositionMode) :
    (tokenize source mode).tokens.map Token.stretch = (lexemes source).map Lexeme.stretch := by
  rw [tokens_tokenize, List.map_map]
  exact List.map_congr_left fun lexeme member =>
    lexeme.stretch_token mode 0 (mem_lexemes member).1

/-- Every token of a source comes from the lexeme at its index, whose offsets are those of
its span. -/
theorem exists_lexeme_of_getElem? {source : List UInt8} {mode : PositionMode} {index : Nat}
    {token : Token} (found : (tokenize source mode).tokens[index]? = some token) :
    ∃ lexeme, (lexemes source)[index]? = some lexeme ∧
      token = lexeme.token (.ofSource source) mode 0 ∧
      token.span.start = lexeme.offset ∧ token.span.stop = lexeme.stop ∧
      (token.isEof = false → lexeme.offset < source.length) := by
  rw [tokens_tokenize, List.getElem?_map] at found
  obtain ⟨lexeme, lexed, rfl⟩ := Option.map_eq_some_iff.mp found
  have member := List.mem_of_getElem? lexed
  have inside := (mem_lexemes member).1
  refine ⟨lexeme, lexed, rfl, lexeme.span_ofSource_start mode 0 inside,
    lexeme.span_ofSource_stop mode 0 inside, fun inner => ?_⟩
  have notLast : lexeme.offset ≠ source.length := fun last => by
    rw [(Lexeme.isEof_token_iff member _ _ _).mpr last] at inner
    exact Bool.noConfusion inner
  omega

/-- The same without the index, for a token before the end of the source. -/
theorem exists_lexeme_of_not_isEof {source : List UInt8} {mode : PositionMode} {token : Token}
    (member : token ∈ (tokenize source mode).tokens) (inner : token.isEof = false) :
    ∃ lexeme ∈ lexemes source, lexeme.offset < source.length ∧
      token.span.start = lexeme.offset ∧ token.span.stop = lexeme.stop := by
  obtain ⟨index, found⟩ := List.getElem?_of_mem member
  obtain ⟨lexeme, lexed, -, start, stop, before⟩ := exists_lexeme_of_getElem? found
  exact ⟨lexeme, List.mem_of_getElem? lexed, before inner, start, stop⟩

theorem ends_tokenize (source : List UInt8) (mode : PositionMode) :
    ∃ before last, (tokenize source mode).tokens = before ++ [last] ∧
      (∀ token ∈ before, token.isEof = false) ∧ last.isEof = true ∧
      last.span.start = source.length ∧ last.span.stop = source.length := by
  obtain ⟨before, split, early⟩ := (tiled_lexemes source).ends
  have lexed (lexeme : Lexeme) (member : lexeme ∈ before ++ [⟨source.length, Scan.front []⟩]) :
      lexeme ∈ lexemes source := split ▸ member
  refine ⟨before.map fun lexeme => lexeme.token (.ofSource source) mode 0,
    Lexeme.token ⟨source.length, Scan.front []⟩ (.ofSource source) mode 0, ?_, ?_, rfl,
    Lexeme.span_ofSource_start mode 0 le_rfl, Lexeme.span_ofSource_stop mode 0 le_rfl⟩
  · rw [tokens_tokenize, split, List.map_append, List.map_singleton]
  · intro token member
    obtain ⟨lexeme, earlier, rfl⟩ := List.mem_map.mp member
    have here := early lexeme earlier
    rw [Bool.eq_false_iff, ne_eq,
      Lexeme.isEof_token_iff (lexed lexeme (List.mem_append_left _ earlier))]
    omega

theorem ordered_tokenize (source : List UInt8) (mode : PositionMode) :
    (tokenize source mode).tokens.Pairwise fun first second =>
      first.span.stop ≤ second.span.start := by
  have ordered := (tiled_lexemes source).ordered
  rw [tokens_tokenize, List.pairwise_map]
  refine ordered.imp_of_mem fun {first second} firstLexed secondLexed behind => ?_
  rwa [Lexeme.token, Lexeme.token, Lexeme.span_ofSource_stop mode 0 (mem_lexemes firstLexed).1,
    Lexeme.span_ofSource_start mode 0 (mem_lexemes secondLexed).1]

/-- Lexing loses nothing, whatever the bytes are and however positions are counted. -/
theorem tokenize_lossless (source : List UInt8) (mode : PositionMode) :
    Lossless source (tokenize source mode).tokens where
  ends := ends_tokenize source mode
  inside := by
    intro token member inner
    obtain ⟨lexeme, lexed, before, start, stop⟩ := exists_lexeme_of_not_isEof member inner
    have bounds := Lexeme.bounds_of_mem lexed
    rw [start, stop]
    exact ⟨bounds.2 before, bounds.1⟩
  ordered := ordered_tokenize source mode
  gaps := by
    rw [stretches_tokenize]
    exact (tiled_lexemes source).gaps_trivia
  sharp := by
    intro token member inner
    obtain ⟨lexeme, lexed, before, start, -⟩ := exists_lexeme_of_not_isEof member inner
    rw [start]
    exact ((tiled_lexemes source).of_mem lexed).2.2.2 before
  once := by
    intro offset inside
    rw [stretches_tokenize, (tiled_lexemes source).coverage_eq inside, if_pos (Nat.zero_le _)]

end Lexis
