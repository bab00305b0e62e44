/-
This file proves that string literals lose nothing of a text. The scanner collects a byte for
each item between the quotes, and only at the end it makes a text of them, with U+FFFD for
whatever is no UTF-8. In a text nothing is: a literal is cut from it at its quotes, and an escape
at both of its bytes, and at an ASCII byte any text is cut into texts. It does not matter what
was read before the literal, nor whether that was cut well.
-/

import Lexis.Proofs.Boundaries

namespace Lexis

namespace Text

/-! ### Cutting texts at ASCII bytes -/

/-- The text of one ASCII byte. -/
def ofByte (b : UInt8) : String := String.ofList [Char.ofNat b.toNat]

theorem utf8_ofByte {b : UInt8} (ascii : b < 0x80) : utf8 (ofByte b) = [b] := by
  rw [ofByte, utf8_ofList, List.flatMap_singleton, utf8EncodeChar_byte ascii]

/-- How often a text has the character that stands for what could not be read. -/
def replacements (text : String) : Nat := text.toList.count replacement

theorem replacements_append (first second : String) :
    replacements (first ++ second) = replacements first + replacements second := by
  rw [replacements, String.toList_append, List.count_append]
  rfl

theorem replacements_ofByte {b : UInt8} (ascii : b < 0x80) : replacements (ofByte b) = 0 := by
  have other : Char.ofNat b.toNat ≠ replacement := by
    intro same
    have sizes := congrArg List.length (utf8EncodeChar_byte ascii)
    rw [same, List.length_singleton] at sizes
    exact absurd sizes (by decide)
  rw [replacements, ofByte, String.toList_ofList, List.count_eq_zero, List.mem_singleton]
  exact other.symm

/-- At an ASCII byte a text is cut into texts. -/
theorem exists_split {text : String} {before behind : List UInt8} {b : UInt8}
    (bytes : utf8 text = before ++ b :: behind) (ascii : b < 0x80) :
    ∃ first last, utf8 first = before ∧ utf8 last = behind ∧
      text = first ++ ofByte b ++ last := by
  have inside : before.length ≤ (utf8 text).length := by
    rw [bytes, List.length_append]
    exact Nat.le_add_right _ _
  have drop : (utf8 text).drop before.length = b :: behind := by rw [bytes, List.drop_left]
  obtain ⟨first, rest, rfl, size⟩ : Boundary text before.length := by
    refine (boundary_iff inside).mpr ?_
    rw [drop]
    rintro _ ⟨⟩
    exact isContinuation_ascii ascii
  obtain ⟨whole, last, split, next⟩ := Boundary.succ drop ascii
  have front : utf8 first = before := by
    rw [utf8_append] at bytes
    exact List.append_inj_left bytes size.symm
  have back : utf8 last = behind := by
    rw [split, utf8_append, List.append_cons] at bytes
    refine List.append_inj_right bytes ?_
    rw [List.length_append, List.length_singleton, next]
  refine ⟨first, last, front, back, utf8_injective ?_⟩
  rw [bytes, utf8_append, utf8_append, front, back, utf8_ofByte ascii, List.append_assoc,
    List.singleton_append]

/-- Behind an ASCII byte that it begins with, a text goes on with a text. -/
theorem exists_tail {text : String} {behind : List UInt8} {b : UInt8}
    (bytes : utf8 text = b :: behind) (ascii : b < 0x80) :
    ∃ last, utf8 last = behind ∧ text = ofByte b ++ last := by
  obtain ⟨first, last, nothing, back, rfl⟩ :=
    exists_split (bytes.trans (List.nil_append _).symm) ascii
  obtain rfl : first = "" := utf8_injective nothing
  exact ⟨last, back, congrArg (· ++ last) String.empty_append⟩

end Text

namespace Scan

open Text (replacements)

/-! ### What the inside of a literal stands for -/

/-- The escapes and what they stand for are ASCII. -/
theorem Escape.ascii {c value : UInt8} (known : Escape c value) : c < 0x80 ∧ value < 0x80 := by
  cases known <;> decide

/-- Where items are a part of a text, there is a text with what they stand for in their place. It
has no character replaced that was not replaced in the first one. -/
theorem exists_content {items : List Item} {values : List UInt8}
    (reads : List.Forall₂ Item.Reads items values) {before : List UInt8} {text : String}
    (bytes : Text.utf8 text = before ++ spelling items) :
    ∃ content, Text.utf8 content = before ++ values ∧
      replacements content = replacements text := by
  induction reads generalizing before text with
  | nil => exact ⟨text, bytes, rfl⟩
  | @cons item value items values here later inductionHypothesis =>
    rw [spelling_cons] at bytes
    cases here with
    | plain b =>
      -- The byte may be a part of a wide character, so it goes with the bytes before it.
      rw [← List.append_assoc] at bytes
      obtain ⟨content, read, same⟩ := inductionHypothesis bytes
      exact ⟨content, by rw [read, List.append_cons]; rfl, same⟩
    | @escape c value known =>
      obtain ⟨narrow, narrowValue⟩ := known.ascii
      have narrowMark : Source.backslash < 0x80 := by decide
      obtain ⟨first, rest, front, pair, rfl⟩ := Text.exists_split bytes narrowMark
      obtain ⟨last, back, rfl⟩ := Text.exists_tail pair narrow
      obtain ⟨content, read, same⟩ := inductionHypothesis (back.trans (List.nil_append _).symm)
      refine ⟨first ++ Text.ofByte value ++ content, ?_, ?_⟩
      · rw [Text.utf8_append, Text.utf8_append, front, read, Text.utf8_ofByte narrowValue,
          List.append_assoc]
        rfl
      · simp only [Text.replacements_append, Text.replacements_ofByte narrow,
          Text.replacements_ofByte narrowMark, Text.replacements_ofByte narrowValue, same]
        omega

/-- What it means that bytes are the inside of a literal that stands for others: each escape is
replaced by the byte that it stands for, and every other byte is kept. -/
def Resolves (body content : List UInt8) : Prop :=
  ∃ items, body = spelling items ∧ (∀ item ∈ items, item.Inner) ∧
    List.Forall₂ Item.Reads items content

/-- A string was read as its bytes between two quotes. -/
theorem TokenRead.closed {bytes : List UInt8} {value : Value} {size : Nat}
    (read : TokenRead bytes (.ok (.str, value)) size) :
    ∃ body content rest, bytes = quote :: (body ++ quote :: rest) ∧ Resolves body content ∧
      value = .str (Text.decodeLossy content) ∧ size = 1 + body.length + 1 := by
  cases read with
  | word begins read =>
    cases read with
    | named spelled known cut => cases known
  | number begins read => simpa using read.content
  | char read => simpa using read.content
  | string read =>
    cases read with
    | @closed items values rest inner reads =>
      exact ⟨_, values, rest, rfl, ⟨items, rfl, inner, reads⟩, rfl, rfl⟩
  | symbol begins read =>
    cases read with
    | spelled longest => exact absurd longest.member (by decide)

end Scan

/-! ### The contents of strings -/

/-- String literals lose nothing. In a text, a string token stands for the text whose UTF-8 are the
bytes between its quotes, each escape replaced by the byte it stands for and every other byte
kept. No character of it is replaced that was not replaced in the source. -/
theorem string_contents_lossless {text : String} {mode : PositionMode} {token : Token}
    (member : token ∈ (tokenize (Text.utf8 text) mode).tokens) (string : token.kind = .str) :
    ∃ body content, token.value = .str content ∧
      token.stretch.text (Text.utf8 text) =
        Scan.quote :: (Text.utf8 body ++ [Scan.quote]) ∧
      Scan.Resolves (Text.utf8 body) (Text.utf8 content) ∧
      Text.replacements content = Text.replacements body := by
  have legal : token.kind ≠ .illegal := by
    rw [string]
    exact nofun
  obtain ⟨size, read, stop⟩ := exists_tokenRead_of_legal member legal
  rw [string] at read
  obtain ⟨inside, values, rest, bytes, resolves, stands, rfl⟩ := read.closed
  have narrow : Scan.quote < 0x80 := by decide
  -- The literal is cut from the text at its quotes.
  have all := List.take_append_drop token.span.start (Text.utf8 text)
  rw [bytes] at all
  obtain ⟨-, behind, -, opened, -⟩ := Text.exists_split all.symm narrow
  obtain ⟨body, -, rfl, -, -⟩ := Text.exists_split opened narrow
  have ⟨items, spelled, inner, reads⟩ := resolves
  obtain ⟨content, rfl, same⟩ :=
    Scan.exists_content reads (spelled.trans (List.nil_append _).symm)
  have pieces : (Text.utf8 text).drop token.span.start =
      Scan.quote :: (Text.utf8 body ++ [Scan.quote]) ++ rest := by
    rw [bytes, List.cons_append, List.append_assoc, List.singleton_append]
  have sizes : token.span.stop =
      token.span.start + (Scan.quote :: (Text.utf8 body ++ [Scan.quote])).length := by
    rw [stop, List.length_cons, List.length_append, List.length_singleton]
    omega
  refine ⟨body, content, ?_, (text_of_stop pieces sizes).1, resolves, same⟩
  rw [stands, Text.decodeLossy_utf8]

/-- A string with an escape between a wide character and the replacement itself, behind a
character literal that was cut in the midst of its character. -/
theorem string_contents_lossless_miscut :
    let text := "'\u00E9' \"\u00E9\\n\uFFFD\""
    ∃ token ∈ (tokenize (Text.utf8 text) .lineColumn).tokens, token.kind = .str ∧
      ∃ body, token.stretch.text (Text.utf8 text) =
          Scan.quote :: (Text.utf8 body ++ [Scan.quote]) ∧
        Scan.Resolves (Text.utf8 body) (Text.utf8 "\u00E9\n\uFFFD") ∧
        Text.replacements body = 1 := by
  intro text
  have member : ⟨.str, .str "\u00E9\n\uFFFD", ⟨5, 14, 1, 6, 0⟩⟩ ∈
      (tokenize (Text.utf8 text) .lineColumn).tokens := by decide +kernel
  obtain ⟨body, content, value, lexeme, resolves, same⟩ := string_contents_lossless member rfl
  obtain rfl := Value.str.inj value
  exact ⟨_, member, rfl, body, lexeme, resolves, same.symm.trans (by decide +kernel)⟩

end Lexis
