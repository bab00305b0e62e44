/-
This file tells which tokens of a text cut one of its characters in two. A source is read byte
by byte, but where it is the UTF-8 of a text nearly everything that is read ends behind an ASCII
byte, or before a byte that continues no character; and either is a place between characters.
The exception is a character literal with a wide character in it: the scanner takes one byte for
the literal, and then misses the closing quote.

Which offsets lie between characters is first told by looking at one byte. Then each scanner is
asked how it ends, which its grammar tells, and an induction over the lexemes carries the
answer from one to the next: each begins between characters as long as all before it end there.
-/

import Lexis.Proofs.Spellings

namespace Lexis

/-! ### Between characters -/

namespace Text

open String (utf8EncodeChar)
open Scan (isContinuation)

/-- The offsets between the characters of a text, in bytes. -/
def Boundary (text : String) (offset : Nat) : Prop :=
  ∃ before behind : String, text = before ++ behind ∧ offset = (utf8 before).length

theorem isContinuation_iff (b : UInt8) :
    isContinuation b = true ↔ 0x80 ≤ b.toNat ∧ b.toNat < 0xC0 := by
  rw [isContinuation, Bool.and_eq_true, decide_eq_true_eq, decide_eq_true_eq,
    UInt8.le_iff_toNat_le, UInt8.lt_iff_toNat_lt]
  exact Iff.rfl

/-- An ASCII byte continues no character. -/
theorem isContinuation_ascii {b : UInt8} (ascii : b < 0x80) : isContinuation b = false := by
  rw [Bool.eq_false_iff, ne_eq, isContinuation_iff]
  have bound : b.toNat < 0x80 := UInt8.lt_iff_toNat_lt.mp ascii
  omega

/-- A character is a byte that continues no other, and behind it bytes that do; there are none
behind just the ASCII bytes. -/
theorem utf8EncodeChar_shape (c : Char) :
    ∃ lead tail, utf8EncodeChar c = lead :: tail ∧ isContinuation lead = false ∧
      (∀ b ∈ tail, isContinuation b = true) ∧ (tail = [] ↔ lead < 0x80) := by
  have byte {n : Nat} (bound : n < 256) : (UInt8.ofNat n).toNat = n :=
    UInt8.toNat_ofNat_of_lt' bound
  have continues (n : Nat) : isContinuation (.ofNat (n % 64 + 128)) = true := by
    rw [isContinuation_iff, byte (by omega)]
    omega
  have tail (places : List Nat) :
      ∀ b ∈ places.map fun n => UInt8.ofNat (n % 64 + 128), isContinuation b = true :=
    List.forall_mem_map.mpr fun n _ => continues n
  have leads {n : Nat} (least : 0xC0 ≤ n) (bound : n < 256) :
      isContinuation (.ofNat n) = false ∧ ¬ UInt8.ofNat n < 0x80 := by
    rw [Bool.eq_false_iff, ne_eq, isContinuation_iff, UInt8.lt_iff_toNat_lt, byte bound]
    simp only [UInt8.reduceToNat]
    omega
  unfold utf8EncodeChar
  rw [show c.val.toNat = c.toNat from rfl]
  dsimp only
  split
  · have ascii : UInt8.ofNat c.toNat < 0x80 := by
      rw [UInt8.lt_iff_toNat_lt, byte (by omega)]
      simp only [UInt8.reduceToNat]
      omega
    exact ⟨_, [], rfl, isContinuation_ascii ascii, List.forall_mem_nil _, iff_of_true rfl ascii⟩
  · split
    · obtain ⟨lead, wide⟩ := @leads (c.toNat / 64 % 32 + 192) (by omega) (by omega)
      exact ⟨_, _, rfl, lead, tail [c.toNat], iff_of_false (List.cons_ne_nil _ _) wide⟩
    · split
      · obtain ⟨lead, wide⟩ := @leads (c.toNat / 4096 % 16 + 224) (by omega) (by omega)
        exact ⟨_, _, rfl, lead, tail [c.toNat / 64, c.toNat],
          iff_of_false (List.cons_ne_nil _ _) wide⟩
      · obtain ⟨lead, wide⟩ := @leads (c.toNat / 262144 % 8 + 240) (by omega) (by omega)
        exact ⟨_, _, rfl, lead, tail [c.toNat / 4096, c.toNat / 64, c.toNat],
          iff_of_false (List.cons_ne_nil _ _) wide⟩

/-- What lies behind a boundary is a text again. -/
theorem Boundary.exists_drop {text : String} {offset : Nat} (boundary : Boundary text offset) :
    ∃ behind, (utf8 text).drop offset = utf8 behind ∧
      ∀ size, Boundary behind size → Boundary text (offset + size) := by
  obtain ⟨before, behind, rfl, rfl⟩ := boundary
  refine ⟨behind, ?_, ?_⟩
  · rw [utf8_append, List.drop_left]
  · rintro _ ⟨inner, rest, rfl, rfl⟩
    refine ⟨before ++ inner, rest, String.append_assoc.symm, ?_⟩
    rw [utf8_append, List.length_append]

theorem boundary_zero (text : String) : Boundary text 0 :=
  ⟨"", text, String.empty_append.symm, rfl⟩

/-- A text is empty, or it has a first character. -/
theorem boundary_cases (text : String) :
    utf8 text = [] ∨ ∃ lead tail behind, utf8 text = lead :: (tail ++ behind) ∧
      isContinuation lead = false ∧ (∀ b ∈ tail, isContinuation b = true) ∧
      (tail = [] ↔ lead < 0x80) ∧ Boundary text (1 + tail.length) := by
  cases chars : text.toList with
  | nil => exact .inl (by rw [utf8, chars, List.flatMap_nil])
  | cons c others =>
    obtain ⟨lead, tail, encodes, begins, continues, wide⟩ := utf8EncodeChar_shape c
    have split : text = String.ofList [c] ++ String.ofList others := by
      rw [← String.ofList_append, List.singleton_append, ← chars, String.ofList_toList]
    have first : utf8 (String.ofList [c]) = lead :: tail := by
      rw [utf8, String.toList_ofList, List.flatMap_singleton, encodes]
    refine .inr ⟨lead, tail, utf8 (String.ofList others), ?_, begins, continues, wide,
      String.ofList [c], String.ofList others, split, ?_⟩
    · rw [split, utf8_append, first, List.cons_append]
    · rw [first, List.length_cons, Nat.add_comm]

/-- A text begins with no byte that continues a character. -/
theorem head_utf8 (text : String) : ∀ b ∈ (utf8 text).head?, isContinuation b = false := by
  rcases boundary_cases text with nothing | ⟨lead, tail, rest, bytes, begins, -⟩
  · rw [nothing]
    exact nofun
  · rw [bytes]
    rintro _ ⟨⟩
    exact begins

/-- An offset lies between characters just if the byte there continues none. -/
theorem boundary_iff {text : String} {offset : Nat} (inside : offset ≤ (utf8 text).length) :
    Boundary text offset ↔ ∀ b ∈ ((utf8 text).drop offset).head?, isContinuation b = false := by
  constructor
  · intro boundary
    obtain ⟨behind, drop, -⟩ := boundary.exists_drop
    rw [drop]
    exact head_utf8 behind
  · intro sharp
    induction offset using Nat.strongRecOn generalizing text with
    | ind offset inductionHypothesis =>
    rcases Nat.eq_zero_or_pos offset with rfl | positive
    · exact boundary_zero text
    rcases boundary_cases text with nothing | ⟨lead, tail, behind, bytes, -, continues, -, next⟩
    · rw [nothing, List.length_nil] at inside
      omega
    rcases Nat.lt_or_ge offset (1 + tail.length) with within | beyond
    · -- Inside of the first character there are only bytes that continue it.
      obtain ⟨place, rfl⟩ := Nat.exists_eq_add_of_le positive
      have member : tail[place] ∈ tail := List.getElem_mem (by omega)
      have head : ((utf8 text).drop (1 + place)).head? = some tail[place] := by
        rw [bytes, Nat.add_comm, List.drop_succ_cons, List.head?_drop,
          List.getElem?_append_left (by omega), List.getElem?_eq_getElem]
      exact absurd (continues _ member) (Bool.eq_false_iff.mp (sharp _ head))
    · obtain ⟨more, rfl⟩ := Nat.exists_eq_add_of_le beyond
      obtain ⟨rest, drop, compose⟩ := next.exists_drop
      rw [← List.drop_drop, drop] at sharp
      have sizes := congrArg List.length drop
      rw [List.length_drop] at sizes
      exact compose more (inductionHypothesis more (by omega) (by omega) sharp)

/-- Behind an ASCII byte there is a boundary. -/
theorem Boundary.succ {text : String} {offset : Nat} {b : UInt8} {behind : List UInt8}
    (bytes : (utf8 text).drop offset = b :: behind) (ascii : b < 0x80) :
    Boundary text (offset + 1) := by
  have inside : offset < (utf8 text).length := by
    have := congrArg List.length bytes
    rw [List.length_drop, List.length_cons] at this
    omega
  have here : Boundary text offset := by
    refine (boundary_iff inside.le).mpr ?_
    rw [bytes]
    rintro _ ⟨⟩
    exact isContinuation_ascii ascii
  obtain ⟨rest, drop, compose⟩ := here.exists_drop
  rcases boundary_cases rest with nothing | ⟨lead, tail, more, first, -, -, wide, next⟩
  · rw [drop, nothing] at bytes
    exact nomatch bytes
  · rw [drop, first] at bytes
    obtain ⟨rfl, -⟩ := List.cons.inj bytes
    rw [wide.mpr ascii] at next
    exact compose _ next

/-- Behind the first byte of a wide character there is none. -/
theorem Boundary.exists_continuation {text : String} {offset : Nat} {b : UInt8}
    {behind : List UInt8} (boundary : Boundary text offset)
    (bytes : (utf8 text).drop offset = b :: behind) (wide : ¬ b < 0x80) :
    ∃ next more, behind = next :: more ∧ isContinuation next = true := by
  obtain ⟨rest, drop, -⟩ := boundary.exists_drop
  rcases boundary_cases rest with nothing | ⟨lead, tail, more, first, -, continues, narrow, -⟩
  · rw [drop, nothing] at bytes
    exact nomatch bytes
  · rw [drop, first] at bytes
    obtain ⟨rfl, rfl⟩ := List.cons.inj bytes
    cases tail with
    | nil => exact absurd (narrow.mp rfl) wide
    | cons next others => exact ⟨next, others ++ more, rfl, continues next List.mem_cons_self⟩

/-! ### How pieces of text end -/

/-- A piece that ends with an ASCII byte, or before a byte that continues no character. -/
def Sharp (piece behind : List UInt8) : Prop :=
  (∀ b ∈ piece.getLast?, b < 0x80) ∨ ∀ b ∈ behind.head?, isContinuation b = false

theorem Sharp.of_ascii {piece : List UInt8} (ascii : ∀ b ∈ piece, b < 0x80)
    (behind : List UInt8) : Sharp piece behind :=
  .inl fun b last => ascii b (List.mem_of_getLast? last)

theorem Sharp.concat (first : List UInt8) {b : UInt8} (ascii : b < 0x80)
    (behind : List UInt8) : Sharp (first ++ [b]) behind := by
  refine .inl ?_
  rw [List.getLast?_concat]
  rintro _ ⟨⟩
  exact ascii

theorem Sharp.of_nil (piece : List UInt8) : Sharp piece [] := .inr nofun

/-- A sharp piece that begins between characters ends there. -/
theorem Boundary.sharp {text : String} {offset : Nat} {piece behind : List UInt8}
    (boundary : Boundary text offset) (bytes : (utf8 text).drop offset = piece ++ behind)
    (sharp : Sharp piece behind) : Boundary text (offset + piece.length) := by
  cases piece using List.reverseRecOn with
  | nil => exact boundary
  | append_singleton first b _ =>
    have later (size : Nat) :
        (utf8 text).drop (offset + size) = (first ++ [b] ++ behind).drop size := by
      rw [← bytes, List.drop_drop]
    rcases sharp with ascii | sharp
    · rw [List.length_append, List.length_singleton, ← Nat.add_assoc]
      have last : (utf8 text).drop (offset + first.length) = b :: behind := by
        rw [later, List.append_assoc, List.drop_left, List.singleton_append]
      exact Boundary.succ last (ascii b List.getLast?_concat)
    · have sizes := congrArg List.length bytes
      rw [List.length_drop, List.length_append] at sizes
      have filled : 0 < (first ++ [b]).length := by simp
      refine (boundary_iff (by omega)).mpr ?_
      rwa [later, List.drop_left]

end Text

/-! ### Spans of whole characters -/

/-- What it means that a span cuts no character: it is the place of a part of the text. -/
def Span.Whole (text : String) (span : Span) : Prop :=
  ∃ before inner behind : String, text = before ++ inner ++ behind ∧
    span.start = (Text.utf8 before).length ∧ span.stop = (Text.utf8 (before ++ inner)).length

theorem Span.whole_iff {text : String} {span : Span} (ordered : span.start ≤ span.stop)
    (inside : span.stop ≤ (Text.utf8 text).length) :
    span.Whole text ↔ Text.Boundary text span.start ∧ Text.Boundary text span.stop := by
  constructor
  · rintro ⟨before, inner, behind, split, start, stop⟩
    exact ⟨⟨before, inner ++ behind, split.trans String.append_assoc, start⟩,
      before ++ inner, behind, split, stop⟩
  · rintro ⟨⟨before, rest, rfl, start⟩, second⟩
    have bytes := Text.utf8_append before rest
    have sharp := (Text.boundary_iff inside).mp second
    rw [bytes, List.length_append] at inside
    rw [bytes, ← Nat.add_sub_cancel' ordered, start, List.drop_length_add_append] at sharp
    obtain ⟨inner, behind, rfl, size⟩ := (Text.boundary_iff (by omega)).mpr sharp
    refine ⟨before, inner, behind, String.append_assoc.symm, start, ?_⟩
    rw [Text.utf8_append, List.length_append]
    omega

namespace Scan

open Text (Sharp)

/-! ### How the scanners end -/

/-- What lies between tokens ends sharply. -/
theorem Element.sharp {text behind : List UInt8} (element : Element text behind) :
    Sharp text behind := by
  cases element with
  | blank behind blank =>
    refine .of_ascii (List.forall_mem_singleton.mpr ?_) behind
    rcases blank with rfl | rfl | rfl | rfl <;> decide
  | @line text behind sameLine =>
    exact .concat (slash :: slash :: text) (by decide) behind
  | openLine sameLine => exact .of_nil _
  | @block text behind unclosed =>
    rw [show slash :: star :: (text ++ [star, slash]) =
      (slash :: star :: (text ++ [star])) ++ [slash] by simp]
    exact .concat _ (by decide) behind
  | openBlock unclosed => exact .of_nil _

theorem Trivia.sharp {text behind : List UInt8} (trivia : Trivia text behind) :
    Sharp text behind := by
  induction trivia with
  | nil behind => exact .of_ascii (List.forall_mem_nil _) behind
  | @cons text more behind element rest inductionHypothesis =>
    cases more using List.reverseRecOn with
    | nil => exact (List.append_nil text).symm ▸ element.sharp
    | append_singleton first b _ =>
      refine inductionHypothesis.imp_left fun ascii => ?_
      rw [← List.append_assoc, List.getLast?_concat]
      rwa [List.getLast?_concat] at ascii

/-- How a scanner ends: with bytes that are a sharp piece. -/
def EndsSharp (bytes : List UInt8) (size : Nat) : Prop :=
  ∃ piece behind, bytes = piece ++ behind ∧ piece.length = size ∧ Sharp piece behind

theorem EndsSharp.concat (first : List UInt8) {b : UInt8} (ascii : b < 0x80)
    (behind : List UInt8) : EndsSharp (first ++ b :: behind) (1 + first.length) := by
  refine ⟨first ++ [b], behind, ?_, ?_, .concat first ascii behind⟩
  · rw [List.append_assoc, List.singleton_append]
  · rw [List.length_append, List.length_singleton, Nat.add_comm]

theorem EndsSharp.before (piece : List UInt8) {behind : List UInt8}
    (stops : ∀ b ∈ behind.head?, isContinuation b = false) :
    EndsSharp (piece ++ behind) piece.length :=
  ⟨piece, behind, rfl, rfl, .inr stops⟩

theorem isDigitOrSeparator_ascii {b : UInt8} (inner : isDigitOrSeparator b = true) :
    b < 0x80 := by
  have every : ∀ d : UInt8, isDigitOrSeparator d = true → d < 0x80 := by decide +kernel
  exact every b inner

theorem WordRead.endsSharp {bytes : List UInt8} {outcome : Except Fault (Kind × Value)}
    {size : Nat} (read : WordRead bytes outcome size) : EndsSharp bytes size := by
  cases read with
  | @named name kind behind spelled known cut =>
    exact ⟨Text.utf8 name, behind, rfl, rfl,
      .of_ascii (fun b member => isWordByte_ascii (cut.all b member)) _⟩

theorem NumberRead.endsSharp {bytes : List UInt8} {outcome : Except Fault (Kind × Value)}
    {size : Nat} (read : NumberRead bytes outcome size) : EndsSharp bytes size := by
  cases read with
  | @marked mark radix run behind outcome named cut read =>
    refine ⟨0x30 :: mark :: run, behind, rfl, Nat.add_comm run.length 2, .of_ascii ?_ _⟩
    have ascii : mark < 0x80 := by
      cases named <;> decide
    rw [List.forall_mem_cons, List.forall_mem_cons]
    exact ⟨by decide, ascii, fun b member => isWordByte_ascii (cut.all b member)⟩
  | @plain run behind outcome unmarked cut pointless read =>
    exact ⟨run, behind, rfl, rfl,
      .of_ascii (fun b member => isDigitOrSeparator_ascii (cut.all b member)) _⟩
  | @pointed whole fraction behind outcome unmarked before cut read =>
    refine ⟨whole ++ dot :: fraction, behind, by simp, by simp; omega, .of_ascii ?_ _⟩
    rw [List.forall_mem_append, List.forall_mem_cons]
    exact ⟨fun b member => isDigitOrSeparator_ascii (before b member), by decide,
      fun b member => isDigitOrSeparator_ascii (cut.all b member)⟩

theorem StringRead.endsSharp {bytes : List UInt8} {outcome : Except Fault (Kind × Value)}
    {size : Nat} (read : StringRead bytes outcome size) : EndsSharp (quote :: bytes) size := by
  have ascii : quote < 0x80 ∧ Source.backslash < 0x80 := by decide
  have closes (items : List Item) (rest : List UInt8) :
      EndsSharp (quote :: (spelling items ++ quote :: rest)) (1 + (spelling items).length + 1) :=
    Nat.add_assoc 1 _ 1 ▸ .concat (quote :: spelling items) ascii.1 rest
  cases read with
  | closed rest inner reads => exact closes _ rest
  | badEscape rest inner bad => exact closes _ rest
  | @openString items behind size inner breaks =>
    rw [Nat.add_comm 1]
    cases breaks with
    | stop => exact .before (quote :: spelling items) nofun
    | line rest =>
      refine .before (quote :: spelling items) ?_
      rintro _ ⟨⟩
      rfl
    | escapedStop =>
      rw [Nat.add_comm _ 1]
      exact .concat (quote :: spelling items) ascii.2 []
    | escapedLine rest =>
      rw [Nat.add_comm _ 1]
      exact .concat (quote :: spelling items) ascii.2 (lineFeed :: rest)

/-- The beginning of a character literal whose byte, or whose byte behind a backslash, begins a
wide character. -/
inductive OpensWide : List UInt8 → Prop
  | plain {b : UInt8} (wide : ¬ b < 0x80) (behind : List UInt8) :
      OpensWide (apostrophe :: b :: behind)
  | escaped {b : UInt8} (wide : ¬ b < 0x80) (behind : List UInt8) :
      OpensWide (apostrophe :: Source.backslash :: b :: behind)

theorem CharRead.endsSharp {bytes : List UInt8} {outcome : Except Fault (Kind × Value)}
    {size : Nat} (read : CharRead bytes outcome size)
    (narrow : ¬ OpensWide (apostrophe :: bytes)) : EndsSharp (apostrophe :: bytes) size := by
  have ascii : apostrophe < 0x80 ∧ Source.backslash < 0x80 := by decide
  cases read with
  | @plain b filled noEscape rest => exact .concat [apostrophe, b] ascii.1 rest
  | @escape c value known rest =>
    exact .concat [apostrophe, Source.backslash, c] ascii.1 rest
  | @badEscape c unknown rest =>
    exact .concat [apostrophe, Source.backslash, c] ascii.1 rest
  | stop => exact .concat [] ascii.1 []
  | empty rest => exact .concat [apostrophe] ascii.1 rest
  | @openByte b filled noEscape rest unclosed =>
    have inner : b < 0x80 := not_not.mp fun wide => narrow (.plain wide rest)
    exact .concat [apostrophe] inner rest
  | escapedStop => exact .concat [apostrophe] ascii.2 []
  | @openEscape c rest unclosed =>
    have inner : c < 0x80 := not_not.mp fun wide => narrow (.escaped wide rest)
    exact .concat [apostrophe, Source.backslash] inner rest

theorem SymbolRead.endsSharp {bytes : List UInt8} {outcome : Except Fault (Kind × Value)}
    {size : Nat} (read : SymbolRead bytes outcome size)
    (leads : ∀ b ∈ bytes.head?, isContinuation b = false) : EndsSharp bytes size := by
  cases read with
  | @spelled kind behind longest =>
    have ascii : ∀ k ∈ Kind.symbols, (Text.utf8 k.text).all (· < 0x80) = true := by decide
    refine ⟨Text.utf8 kind.text, behind, rfl, rfl, .of_ascii (fun b inner => ?_) _⟩
    exact of_decide_eq_true (List.all_eq_true.mp (ascii kind longest.member) b inner)
  | @stray b run behind noSymbol cut =>
    cases cut with
    | byte single =>
      have ascii : b < 0x80 := by
        have lead := leads b rfl
        rw [Bool.eq_false_iff, ne_eq, Text.isContinuation_iff] at lead
        rw [UInt8.lt_iff_toNat_lt] at single ⊢
        simp only [UInt8.reduceToNat] at single ⊢
        omega
      exact .concat [] ascii behind
    | char wide cut =>
      rw [Nat.add_comm]
      exact .before (b :: run) cut.ends

/-- Where no character literal opens wide, every token ends sharply. -/
theorem TokenRead.endsSharp {bytes : List UInt8} {outcome : Except Fault (Kind × Value)}
    {size : Nat} (read : TokenRead bytes outcome size)
    (leads : ∀ b ∈ bytes.head?, isContinuation b = false) (narrow : ¬ OpensWide bytes) :
    EndsSharp bytes size := by
  cases read with
  | stop => exact ⟨[], [], rfl, rfl, .of_nil _⟩
  | word begins read => exact read.endsSharp
  | number begins read => exact read.endsSharp
  | char read => exact read.endsSharp narrow
  | string read => exact read.endsSharp
  | symbol begins read => exact read.endsSharp leads

theorem front_endsSharp {bytes : List UInt8}
    (leads : ∀ b ∈ bytes.head?, isContinuation b = false) (narrow : ¬ OpensWide bytes) :
    EndsSharp bytes (front bytes).size := by
  obtain ⟨outcome, size, read⟩ := exists_tokenRead bytes
  rw [read.scanned]
  exact read.endsSharp leads narrow

end Scan

section

open Text (Boundary)

variable {text : String}

/-- A character literal with a wide character in it ends inside of that character. -/
theorem not_boundary_of_opensWide {offset : Nat}
    (opens : Scan.OpensWide ((Text.utf8 text).drop offset)) :
    ¬ Boundary text (offset + (Scan.front ((Text.utf8 text).drop offset)).size) := by
  -- Where the literal ends there is a byte that continues the character.
  have cuts {size : Nat} {next : UInt8} {more : List UInt8}
      (bytes : (Text.utf8 text).drop (offset + size) = next :: more)
      (continues : Scan.isContinuation next = true) : ¬ Boundary text (offset + size) := by
    intro here
    obtain ⟨behind, drop, -⟩ := here.exists_drop
    have sharp := Text.head_utf8 behind next (by rw [← drop, bytes]; rfl)
    exact Bool.false_ne_true (sharp.symm.trans continues)
  have unclosed {next : UInt8} {more : List UInt8}
      (continues : Scan.isContinuation next = true) :
      (next :: more).head? ≠ some Scan.apostrophe := by
    rintro ⟨⟩
    exact Bool.false_ne_true continues
  generalize bytes : (Text.utf8 text).drop offset = source at opens
  have later (size : Nat) : (Text.utf8 text).drop (offset + size) = source.drop size := by
    rw [← bytes, List.drop_drop]
  cases opens with
  | @plain b wide behind =>
    have inner : Boundary text (offset + 1) := Text.Boundary.succ bytes (by decide)
    obtain ⟨next, more, rfl, continues⟩ := inner.exists_continuation (later 1) wide
    have read : Scan.CharRead (b :: next :: more) (.error .badChar) 2 := by
      refine .openByte ?_ ?_ (unclosed continues)
      · rintro rfl
        exact wide (by decide)
      · rintro rfl
        exact wide (by decide)
    rw [Scan.front_apostrophe, read.scanned]
    exact cuts (later 2) continues
  | @escaped b wide behind =>
    have first : Boundary text (offset + 1) := Text.Boundary.succ bytes (by decide)
    have inner : Boundary text (offset + 1 + 1) := Text.Boundary.succ (later 1) (by decide)
    obtain ⟨next, more, rfl, continues⟩ := inner.exists_continuation (later 2) wide
    have read : Scan.CharRead (Source.backslash :: b :: next :: more) (.error .badChar) 3 :=
      .openEscape b (unclosed continues)
    rw [Scan.front_apostrophe, read.scanned]
    exact cuts (later 3) continues

/-- A token that begins between characters ends there, if it does not open wide. -/
theorem boundary_front_iff {offset : Nat} (boundary : Boundary text offset) :
    Boundary text (offset + (Scan.front ((Text.utf8 text).drop offset)).size) ↔
      ¬ Scan.OpensWide ((Text.utf8 text).drop offset) := by
  refine ⟨fun here opens => not_boundary_of_opensWide opens here, fun narrow => ?_⟩
  obtain ⟨behind, drop, -⟩ := boundary.exists_drop
  have leads := Text.head_utf8 behind
  rw [← drop] at leads
  obtain ⟨piece, more, bytes, size, sharp⟩ := Scan.front_endsSharp leads narrow
  rw [← size]
  exact boundary.sharp bytes sharp

/-- Of lexemes side by side the first lie between characters just as long as none opens
wide. -/
theorem Tiled.boundaries_iff {begin : Nat} {tiles : List Lexeme}
    (tiled : Tiled (Text.utf8 text) begin tiles) (boundary : Boundary text begin) (count : Nat) :
    (∀ lexeme ∈ tiles.take count, Boundary text lexeme.offset ∧ Boundary text lexeme.stop) ↔
      ∀ lexeme ∈ tiles.take count, ¬ Scan.OpensWide ((Text.utf8 text).drop lexeme.offset) := by
  induction tiled generalizing count with
  | stop inside trivia =>
    have last : Boundary text (Text.utf8 text).length := ⟨text, "", String.append_empty.symm, rfl⟩
    cases count with
    | zero => exact iff_of_true (List.forall_mem_nil _) (List.forall_mem_nil _)
    | succ count =>
      rw [List.take_succ_cons, List.take_nil, List.forall_mem_singleton,
        List.forall_mem_singleton, List.drop_length]
      exact iff_of_true ⟨last, last⟩ nofun
  | @lexeme begin first rest after inside found trivia sharp tail inductionHypothesis =>
    cases count with
    | zero => exact iff_of_true (List.forall_mem_nil _) (List.forall_mem_nil _)
    | succ count =>
      have skipped : (Text.utf8 text).drop begin =
          (Stretch.mk begin first.offset).text (Text.utf8 text) ++
            (Text.utf8 text).drop first.offset := by
        rw [Stretch.text, List.drop_take, ← Nat.add_sub_cancel' after, ← List.drop_drop,
          Nat.add_sub_cancel_left, List.take_append_drop]
      have size : begin + ((Stretch.mk begin first.offset).text (Text.utf8 text)).length =
          first.offset := by
        simp only [Stretch.text, List.length_drop, List.length_take]
        omega
      have here : Boundary text first.offset := size ▸ boundary.sharp skipped trivia.sharp
      have ends : Boundary text first.stop ↔
          ¬ Scan.OpensWide ((Text.utf8 text).drop first.offset) := by
        rw [Lexeme.stop, found]
        exact boundary_front_iff here
      rw [List.take_succ_cons, List.forall_mem_cons, List.forall_mem_cons, and_iff_right here,
        ends]
      exact and_congr_right fun narrow => inductionHypothesis (ends.mpr narrow) count

/-- A lexeme is the place of a part of a text if it begins and ends between characters. -/
theorem Lexeme.whole_iff {lexeme : Lexeme} (member : lexeme ∈ lexemes (Text.utf8 text))
    (mode : PositionMode) (file : Nat) :
    (lexeme.span (.ofSource (Text.utf8 text)) mode file).Whole text ↔
      Boundary text lexeme.offset ∧ Boundary text lexeme.stop := by
  have inside := (mem_lexemes member).1
  have grows : lexeme.offset ≤ lexeme.stop := Nat.le_add_right _ _
  rw [Span.whole_iff, lexeme.span_ofSource_start mode file inside,
    lexeme.span_ofSource_stop mode file inside]
  · rwa [lexeme.span_ofSource_start mode file inside,
      lexeme.span_ofSource_stop mode file inside]
  · rw [lexeme.span_ofSource_stop mode file inside]
    exact (Lexeme.bounds_of_mem member).1

end

/-! ### Tokens and errors -/

/-- Just the character literals with a wide character in them cut characters. In any text, the
first tokens and their errors have spans of whole characters, which are places of parts of the
text, if and only if none of these tokens begins with an apostrophe and a wide character behind
it or behind a backslash. -/
theorem spans_whole_iff (text : String) (mode : PositionMode) (count : Nat) :
    let source := Text.utf8 text
    let result := tokenize source mode
    ((∀ token ∈ result.tokens.take count, token.span.Whole text) ∧
        ∀ error ∈ result.errorsUpTo count, error.span.Whole text) ↔
      ∀ token ∈ result.tokens.take count, ¬ Scan.OpensWide (source.drop token.span.start) := by
  intro source result
  have tokens : result.tokens.take count =
      ((lexemes source).take count).map fun lexeme => lexeme.token (.ofSource source) mode 0 := by
    rw [tokens_tokenize, List.map_take]
  have members : ∀ lexeme ∈ (lexemes source).take count, lexeme ∈ lexemes source :=
    fun _ => List.mem_of_mem_take
  have errors : (∀ token ∈ result.tokens.take count, token.span.Whole text) →
      ∀ error ∈ result.errorsUpTo count, error.span.Whole text := by
    intro whole error reported
    have span := List.mem_map_of_mem (f := LexError.span) reported
    rw [spans_errorsUpTo] at span
    obtain ⟨token, illegal, same⟩ := List.mem_map.mp span
    exact same ▸ whole token (List.mem_of_mem_filter illegal)
  rw [and_iff_left_of_imp errors, tokens, List.forall_mem_map, List.forall_mem_map]
  refine Iff.trans (forall₂_congr fun lexeme member => ?_)
    (((tiled_lexemes source).boundaries_iff (Text.boundary_zero text) count).trans
      (forall₂_congr fun lexeme member => ?_))
  · exact lexeme.whole_iff (members lexeme member) mode 0
  · have start : (lexeme.token (.ofSource source) mode 0).span.start = lexeme.offset :=
      lexeme.span_ofSource_start mode 0 (mem_lexemes (members lexeme member)).1
    rw [start]

/-- The character in quotes is cut into the end of one illegal token and a second. -/
theorem spans_cut_wide_char :
    ¬ ∀ token ∈ (tokenize (Text.utf8 "'\u00E9'") .columnOnly).tokens,
      token.span.Whole "'\u00E9'" := by
  intro whole
  have member : (⟨.illegal, .none, ⟨0, 2, 1, 1, 0⟩⟩ : Token) ∈
      (tokenize (Text.utf8 "'\u00E9'") .columnOnly).tokens := by decide +kernel
  have bounds := (Span.whole_iff (by decide) (by decide)).mp (whole _ member)
  have sharp := (Text.boundary_iff (by decide)).mp bounds.2 0xA9 (by decide)
  exact absurd sharp (by decide)

end Lexis
