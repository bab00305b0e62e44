/-
This file gives the grammar of string and character literals and proves that the scanners read
it. The grammar sees the bytes behind an opening quote as items, each a byte that is no backslash
or a backslash with the byte behind it, and it says of all bytes what they give and how far the
literal reaches. It is not a definition of the scanners over again: a string is cut into all its
items at once, and only then is it asked what they stand for.

That both agree rests on the grammar leaving nothing out. What it derives the scanner finds, by
induction over the items; and since it derives something of any bytes, the scanner finds nothing
else.
-/

import Lexis.Proofs.Findings
import Lexis.Proofs.Printing

namespace Lexis

namespace Scan

/-! ### Items -/

/-- The escapes: what may follow a backslash, and the byte that it then stands for. -/
inductive Escape : UInt8 → UInt8 → Prop
  | newLine : Escape 0x6E 0x0A
  | carriageReturn : Escape 0x72 0x0D
  | tab : Escape 0x74 0x09
  | backslash : Escape 0x5C 0x5C
  | apostrophe : Escape 0x27 0x27
  | quote : Escape 0x22 0x22
  | nul : Escape 0x30 0x00

/-- The table of the scanner has just these escapes. -/
theorem unescape?_eq_some_iff {c value : UInt8} :
    Source.unescape? c = some value ↔ Escape c value := by
  constructor
  · unfold Source.unescape?
    intro known
    repeat' split at known
    all_goals
      first
      | obtain rfl := Option.some_inj.mp known
        subst c
        constructor
      | exact nomatch known
  · intro known
    cases known <;> rfl

theorem unescape?_eq_none_iff {c : UInt8} :
    Source.unescape? c = none ↔ ∀ value, ¬ Escape c value := by
  rw [Option.eq_none_iff_forall_ne_some]
  exact forall_congr' fun value => not_congr unescape?_eq_some_iff

/-- What the inside of a literal is made of. -/
inductive Item where
  | plain (b : UInt8)
  | escape (c : UInt8)

namespace Item

def bytes : Item → List UInt8
  | plain b => [b]
  | escape c => [Source.backslash, c]

/-- The items that do not end a string. -/
inductive Inner : Item → Prop
  | plain {b : UInt8} (unclosed : b ≠ quote) (sameLine : b ≠ lineFeed)
      (noEscape : b ≠ Source.backslash) : Inner (.plain b)
  | escape {c : UInt8} (sameLine : c ≠ lineFeed) : Inner (.escape c)

/-- The byte that an item stands for, if it stands for one. -/
inductive Reads : Item → UInt8 → Prop
  | plain (b : UInt8) : Reads (.plain b) b
  | escape {c value : UInt8} (known : Escape c value) : Reads (.escape c) value

end Item

/-- The bytes of items side by side. -/
def spelling (items : List Item) : List UInt8 := items.flatMap Item.bytes

theorem spelling_cons (item : Item) (items : List Item) :
    spelling (item :: items) = item.bytes ++ spelling items := List.flatMap_cons

/-! ### The grammar of strings -/

/-- What breaks a string off, and how many bytes of it still belong to the string: none of the
end of the source or of the line, but a backslash before either. -/
inductive Breaks : List UInt8 → Nat → Prop
  | stop : Breaks [] 0
  | line (rest : List UInt8) : Breaks (lineFeed :: rest) 0
  | escapedStop : Breaks [Source.backslash] 1
  | escapedLine (rest : List UInt8) : Breaks (Source.backslash :: lineFeed :: rest) 1

/-- What the bytes behind an opening quote give, and how many bytes the string takes up. -/
inductive StringRead : List UInt8 → Except Fault (Kind × Value) → Nat → Prop
  | closed {items : List Item} {values : List UInt8} (rest : List UInt8)
      (inner : ∀ item ∈ items, item.Inner) (reads : List.Forall₂ Item.Reads items values) :
      StringRead (spelling items ++ quote :: rest) (.ok (.str, .str (Text.decodeLossy values)))
        (1 + (spelling items).length + 1)
  | badEscape {items : List Item} (rest : List UInt8) (inner : ∀ item ∈ items, item.Inner)
      (bad : ∃ item ∈ items, ∀ value, ¬ item.Reads value) :
      StringRead (spelling items ++ quote :: rest) (.error .badEscape)
        (1 + (spelling items).length + 1)
  | openString {items : List Item} {behind : List UInt8} {size : Nat}
      (inner : ∀ item ∈ items, item.Inner) (breaks : Breaks behind size) :
      StringRead (spelling items ++ behind) (.error .openString)
        (1 + (spelling items).length + size)

/-- A string is read on behind an item that stands for a byte. -/
theorem stringBody_reads {item : Item} {value : UInt8} (inner : item.Inner)
    (reads : item.Reads value) (rest : List UInt8) :
    stringBody (item.bytes ++ rest) = (stringBody rest).push value item.bytes.length := by
  cases reads with
  | plain b =>
    cases inner with
    | plain unclosed sameLine noEscape => exact stringBody_plain unclosed sameLine noEscape rest
  | escape known => exact stringBody_escape (unescape?_eq_some_iff.mpr known) rest

/-- Behind an item that stands for none it is read on too, and has a bad escape. -/
theorem stringBody_unreadable {item : Item} (inner : item.Inner)
    (unreadable : ∀ value, ¬ item.Reads value) (rest : List UInt8) :
    ∃ value, stringBody (item.bytes ++ rest) =
      ((stringBody rest).push value item.bytes.length).spoil := by
  cases inner with
  | @plain b unclosed sameLine noEscape => exact absurd (.plain b) (unreadable b)
  | @escape c sameLine =>
    have unknown : Source.unescape? c = none :=
      unescape?_eq_none_iff.mpr fun value known => unreadable value (.escape known)
    exact ⟨c, stringBody_badEscape unknown sameLine rest⟩

/-- Items that all stand for bytes give these bytes. -/
theorem stringBody_spelling {items : List Item} {values : List UInt8}
    (inner : ∀ item ∈ items, item.Inner) (reads : List.Forall₂ Item.Reads items values)
    (rest : List UInt8) :
    stringBody (spelling items ++ rest) =
      (stringBody rest).ahead values (spelling items).length := by
  induction reads with
  | nil => exact (StringBody.ahead_nil _).symm
  | cons here later inductionHypothesis =>
    obtain ⟨first, others⟩ := List.forall_mem_cons.mp inner
    rw [spelling_cons, List.append_assoc, stringBody_reads first here,
      inductionHypothesis others, StringBody.push_eq_ahead, StringBody.ahead_ahead,
      List.singleton_append, List.length_append]

/-- How far a string reaches and whether it is closed does not depend on what its items stand
for; one that stands for nothing is a bad escape. -/
theorem stringBody_inner {items : List Item} (inner : ∀ item ∈ items, item.Inner)
    (rest : List UInt8) :
    (stringBody (spelling items ++ rest)).closed = (stringBody rest).closed ∧
      (stringBody (spelling items ++ rest)).size =
        (spelling items).length + (stringBody rest).size ∧
      ((∃ item ∈ items, ∀ value, ¬ item.Reads value) →
        (stringBody (spelling items ++ rest)).badEscape = true) := by
  induction items with
  | nil => exact ⟨rfl, (Nat.zero_add _).symm, fun ⟨_, member, _⟩ => nomatch member⟩
  | cons item items inductionHypothesis =>
    obtain ⟨first, others⟩ := List.forall_mem_cons.mp inner
    obtain ⟨closed, size, bad⟩ := inductionHypothesis others
    rw [spelling_cons, List.append_assoc, List.length_append, Nat.add_assoc, ← size, ← closed,
      List.exists_mem_cons_iff]
    by_cases readable : ∃ value, item.Reads value
    · obtain ⟨value, reads⟩ := readable
      rw [stringBody_reads first reads]
      refine ⟨rfl, rfl, fun some => bad (some.resolve_left fun unreadable => ?_)⟩
      exact unreadable value reads
    · obtain ⟨value, read⟩ := stringBody_unreadable first (not_exists.mp readable)
        (spelling items ++ rest)
      rw [read]
      exact ⟨rfl, rfl, fun _ => rfl⟩

theorem stringBody_breaks {behind : List UInt8} {size : Nat} (breaks : Breaks behind size) :
    (stringBody behind).closed = false ∧ (stringBody behind).size = size := by
  cases breaks with
  | stop => exact ⟨rfl, rfl⟩
  | line rest => rw [stringBody_lineFeed]; exact ⟨rfl, rfl⟩
  | escapedStop => rw [stringBody_backslash]; exact ⟨rfl, rfl⟩
  | escapedLine rest => rw [stringBody_escapedLineFeed]; exact ⟨rfl, rfl⟩

/-- What the grammar derives the scanner finds. -/
theorem StringRead.scanned {bytes : List UInt8} {outcome : Except Fault (Kind × Value)}
    {size : Nat} (read : StringRead bytes outcome size) :
    stringLiteral (quote :: bytes) = ⟨outcome, size⟩ := by
  unfold stringLiteral
  rw [List.drop_succ_cons, List.drop_zero]
  dsimp only
  cases read with
  | closed rest inner reads =>
    rw [stringBody_spelling inner reads, stringBody_quote]
    simp only [StringBody.ahead, Bool.not_true, Bool.false_eq_true, if_false, List.append_nil,
      ← Nat.add_assoc]
    rfl
  | badEscape rest inner bad =>
    obtain ⟨closed, size, spoiled⟩ := stringBody_inner inner (quote :: rest)
    rw [stringBody_quote] at closed size
    rw [closed, size, spoiled bad, ← Nat.add_assoc]
    rfl
  | openString inner breaks =>
    obtain ⟨closed, size, -⟩ := stringBody_inner inner _
    obtain ⟨unclosed, left⟩ := stringBody_breaks breaks
    rw [unclosed] at closed
    rw [left] at size
    rw [closed, size, ← Nat.add_assoc]
    rfl

/-- Bytes that are items up to a closing quote, or up to what breaks a string off. -/
def Itemized (bytes : List UInt8) : Prop :=
  ∃ items behind, (∀ item ∈ items, item.Inner) ∧ bytes = spelling items ++ behind ∧
    ((∃ rest, behind = quote :: rest) ∨ ∃ size, Breaks behind size)

theorem Itemized.none {behind : List UInt8}
    (ends : (∃ rest, behind = quote :: rest) ∨ ∃ size, Breaks behind size) : Itemized behind :=
  ⟨[], behind, List.forall_mem_nil _, rfl, ends⟩

theorem Itemized.more {item : Item} (inner : item.Inner) {rest : List UInt8}
    (itemized : Itemized rest) : Itemized (item.bytes ++ rest) := by
  obtain ⟨items, behind, others, rfl, ends⟩ := itemized
  refine ⟨item :: items, behind, List.forall_mem_cons.mpr ⟨inner, others⟩, ?_, ends⟩
  rw [spelling_cons, List.append_assoc]

theorem itemized (bytes : List UInt8) : Itemized bytes := by
  fun_induction stringBody bytes with
  | case1 => exact .none (.inr ⟨0, .stop⟩)
  | case2 rest => exact .none (.inl ⟨rest, rfl⟩)
  | case3 rest => exact .none (.inr ⟨0, .line rest⟩)
  | case4 => exact .none (.inr ⟨1, .escapedStop⟩)
  | case5 c rest value known _ _ inductionHypothesis =>
    have inner : (Item.escape c).Inner := by
      refine .escape ?_
      rintro rfl
      exact Option.some_ne_none value (known.symm.trans Source.unescape?_lineFeed)
    exact .more inner inductionHypothesis
  | case6 rest => exact .none (.inr ⟨1, .escapedLine rest⟩)
  | case7 c rest unknown sameLine _ _ inductionHypothesis =>
    have inner : (Item.escape c).Inner := .escape sameLine
    exact .more inner inductionHypothesis
  | case8 b rest unclosed sameLine noEscape inductionHypothesis =>
    have inner : (Item.plain b).Inner := .plain unclosed sameLine noEscape
    exact .more inner inductionHypothesis

theorem exists_reads {items : List Item} (each : ∀ item ∈ items, ∃ value, item.Reads value) :
    ∃ values, List.Forall₂ Item.Reads items values := by
  induction items with
  | nil => exact ⟨[], .nil⟩
  | cons item items inductionHypothesis =>
    obtain ⟨⟨value, reads⟩, others⟩ := List.forall_mem_cons.mp each
    obtain ⟨values, later⟩ := inductionHypothesis others
    exact ⟨value :: values, .cons reads later⟩

/-- The grammar derives something of any bytes. -/
theorem exists_stringRead (bytes : List UInt8) :
    ∃ outcome size, StringRead bytes outcome size := by
  obtain ⟨items, behind, inner, rfl, ⟨rest, rfl⟩ | ⟨size, breaks⟩⟩ := itemized bytes
  · by_cases bad : ∃ item ∈ items, ∀ value, ¬ item.Reads value
    · exact ⟨_, _, .badEscape rest inner bad⟩
    · obtain ⟨values, reads⟩ := exists_reads fun item member => by
        by_contra unreadable
        exact bad ⟨item, member, not_exists.mp unreadable⟩
      exact ⟨_, _, .closed rest inner reads⟩
  · exact ⟨_, _, .openString inner breaks⟩

theorem stringLiteral_iff (bytes : List UInt8) (outcome : Except Fault (Kind × Value))
    (size : Nat) :
    stringLiteral (quote :: bytes) = ⟨outcome, size⟩ ↔ StringRead bytes outcome size :=
  Scanned.eq_iff_of_derives (fun _ _ read => read.scanned) (exists_stringRead bytes) outcome size

/-! ### The grammar of characters -/

/-- What the bytes behind an opening apostrophe give, and how many bytes the literal takes up. -/
inductive CharRead : List UInt8 → Except Fault (Kind × Value) → Nat → Prop
  | plain {b : UInt8} (filled : b ≠ apostrophe) (noEscape : b ≠ Source.backslash)
      (rest : List UInt8) : CharRead (b :: apostrophe :: rest) (.ok (.char, .char b)) 3
  | escape {c value : UInt8} (known : Escape c value) (rest : List UInt8) :
      CharRead (Source.backslash :: c :: apostrophe :: rest) (.ok (.char, .char value)) 4
  | badEscape {c : UInt8} (unknown : ∀ value, ¬ Escape c value) (rest : List UInt8) :
      CharRead (Source.backslash :: c :: apostrophe :: rest) (.error .badEscape) 4
  | stop : CharRead [] (.error .badChar) 1
  | empty (rest : List UInt8) : CharRead (apostrophe :: rest) (.error .badChar) 2
  | openByte {b : UInt8} (filled : b ≠ apostrophe) (noEscape : b ≠ Source.backslash)
      {rest : List UInt8} (unclosed : rest.head? ≠ some apostrophe) :
      CharRead (b :: rest) (.error .badChar) 2
  | escapedStop : CharRead [Source.backslash] (.error .badChar) 2
  | openEscape (c : UInt8) {rest : List UInt8} (unclosed : rest.head? ≠ some apostrophe) :
      CharRead (Source.backslash :: c :: rest) (.error .badChar) 3

/-- What the grammar derives the scanner finds. -/
theorem CharRead.scanned {bytes : List UInt8} {outcome : Except Fault (Kind × Value)}
    {size : Nat} (read : CharRead bytes outcome size) :
    charLiteral (apostrophe :: bytes) = ⟨outcome, size⟩ := by
  have escapes : Source.backslash ≠ apostrophe := by decide
  cases read with
  | plain filled noEscape rest => exact charLiteral_plain filled noEscape rest
  | escape known rest => exact charLiteral_escape (unescape?_eq_some_iff.mpr known) rest
  | badEscape unknown rest =>
    simp [charLiteral, escapes, closesChar, unescape?_eq_none_iff.mpr unknown, Scanned.fault]
  | stop => rfl
  | empty rest => rfl
  | openByte filled noEscape unclosed =>
    simp [charLiteral, filled, noEscape, closesChar, unclosed, Scanned.fault]
  | escapedStop => rfl
  | openEscape c unclosed =>
    simp [charLiteral, escapes, closesChar, unclosed, Scanned.fault]

/-- The grammar derives something of any bytes. -/
theorem exists_charRead (bytes : List UInt8) : ∃ outcome size, CharRead bytes outcome size := by
  match bytes with
  | [] => exact ⟨_, _, .stop⟩
  | b :: rest =>
    by_cases empty : b = apostrophe
    · subst empty
      exact ⟨_, _, .empty rest⟩
    by_cases escaped : b = Source.backslash
    · subst escaped
      match rest with
      | [] => exact ⟨_, _, .escapedStop⟩
      | c :: behind =>
        by_cases closes : behind.head? = some apostrophe
        · obtain ⟨more, rfl⟩ := List.head?_eq_some_iff.mp closes
          by_cases known : ∃ value, Escape c value
          · obtain ⟨value, known⟩ := known
            exact ⟨_, _, .escape known more⟩
          · exact ⟨_, _, .badEscape (not_exists.mp known) more⟩
        · exact ⟨_, _, .openEscape c closes⟩
    · by_cases closes : rest.head? = some apostrophe
      · obtain ⟨more, rfl⟩ := List.head?_eq_some_iff.mp closes
        exact ⟨_, _, .plain empty escaped more⟩
      · exact ⟨_, _, .openByte empty escaped closes⟩

theorem charLiteral_iff (bytes : List UInt8) (outcome : Except Fault (Kind × Value))
    (size : Nat) :
    charLiteral (apostrophe :: bytes) = ⟨outcome, size⟩ ↔ CharRead bytes outcome size :=
  Scanned.eq_iff_of_derives (fun _ _ read => read.scanned) (exists_charRead bytes) outcome size

theorem front_quote (bytes : List UInt8) :
    front (quote :: bytes) = stringLiteral (quote :: bytes) := rfl

theorem front_apostrophe (bytes : List UInt8) :
    front (apostrophe :: bytes) = charLiteral (apostrophe :: bytes) := rfl

end Scan

/-! ### The tokens of literals -/

/-- String and character literals are read by their grammar. In any source, what is told of a
token that begins with a quote or an apostrophe, and where it ends, is what the grammar derives
of the bytes behind, and it is all that the grammar derives of them. -/
theorem quoted_tokens_exact {source : List UInt8} {mode : PositionMode} {token : Token}
    (member : token ∈ (tokenize source mode).tokens) (behind : List UInt8)
    (outcome : Except Fault (Kind × Value)) (size : Nat) :
    let result := tokenize source mode
    let told := result.Gives token outcome ∧ token.span.stop = token.span.start + size
    (source.drop token.span.start = Scan.quote :: behind →
        (told ↔ Scan.StringRead behind outcome size)) ∧
      (source.drop token.span.start = Scan.apostrophe :: behind →
        (told ↔ Scan.CharRead behind outcome size)) := by
  intro result told
  have found : told ↔ Scan.front (source.drop token.span.start) = ⟨outcome, size⟩ :=
    gives_iff member outcome size
  refine ⟨fun starts => ?_, fun starts => ?_⟩
  · rw [found, starts, Scan.front_quote]
    exact Scan.stringLiteral_iff behind outcome size
  · rw [found, starts, Scan.front_apostrophe]
    exact Scan.charLiteral_iff behind outcome size

/-- A string with an escaped quote and half of a character in it, and directly behind it a
character literal with a bad escape. -/
theorem quoted_tokens_exact_pair :
    let source : List UInt8 := [0x22, 0x5C, 0x22, 0xC3, 0x22, 0x27, 0x5C, 0x71, 0x27]
    let result := tokenize source .lineColumn
    (∃ string ∈ result.tokens, string.span.start = 0 ∧ string.span.stop = 5 ∧
        result.Gives string (.ok (.str, .str "\"\uFFFD"))) ∧
      ∃ char ∈ result.tokens, char.span.start = 5 ∧ char.span.stop = 9 ∧
        result.Gives char (.error .badEscape) := by
  intro source result
  constructor
  · have member : ⟨.str, .str "\"\uFFFD", ⟨0, 5, 1, 1, 0⟩⟩ ∈ result.tokens := by decide +kernel
    have inner : ∀ item ∈ [Scan.Item.escape 0x22, .plain 0xC3], item.Inner := by
      rw [List.forall_mem_cons, List.forall_mem_singleton]
      exact ⟨.escape (by decide), .plain (by decide) (by decide) (by decide)⟩
    have reads : List.Forall₂ Scan.Item.Reads [.escape 0x22, .plain 0xC3] [0x22, 0xC3] :=
      .cons (.escape .quote) (.cons (.plain 0xC3) .nil)
    have text : Text.decodeLossy [0x22, 0xC3] = "\"\uFFFD" := by decide +kernel
    have read := Scan.StringRead.closed [0x27, 0x5C, 0x71, 0x27] inner reads
    rw [text] at read
    have told := ((quoted_tokens_exact member _ _ 5).1 rfl).mpr read
    exact ⟨_, member, rfl, told.2, told.1⟩
  · have member : ⟨.illegal, .none, ⟨5, 9, 1, 6, 0⟩⟩ ∈ result.tokens := by decide +kernel
    have unknown : ∀ value, ¬ Scan.Escape 0x71 value := Scan.unescape?_eq_none_iff.mp rfl
    have told := ((quoted_tokens_exact member _ _ 4).2 rfl).mpr (.badEscape unknown [])
    exact ⟨_, member, rfl, told.2, told.1⟩

end Lexis
