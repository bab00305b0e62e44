/-
This file proves that what is printed is read back. A token is printed as its kind is
spelled, or as its value is shown if the kind says nothing of it, and tokens are written
one behind the other with a space between them. Three tables have to agree for this: the
spellings, the escapes that quoted text is written with, and the escapes that the scanner
knows. What the scanner finds at the front of a printed token alone is all that has to be
looked at, since such a text stands alone.

Not every token can be read back. A fraction may be shown in more digits than were
written, a character that is shown by its number has no escape in the language, and there
are no negative literals.
-/

import Mathlib.Data.FinEnum
import Lexis.Proofs.Encoding
import Lexis.Proofs.Respacing

namespace Lexis

open String (utf8EncodeChar)

/-! ### What can be printed -/

/-- A character that a name may begin with. -/
def isNameStart (c : Char) : Bool := c.isAlpha || c = '_'

/-- A character that a name may go on with. -/
def isNameChar (c : Char) : Bool := c.isAlphanum || c = '_'

/-- Whether a text is spelled like a name, be it a keyword or not. -/
def isName (text : String) : Bool :=
  match text.toList with
  | [] => false
  | c :: rest => isNameStart c && rest.all isNameChar

/-- A character that is shown as itself or behind a backslash, and not by its number. -/
def isShown (c : Char) : Prop := ¬ ['\\', 'u', '\x7b'] <+: Text.escapeChar c

instance (c : Char) : Decidable (isShown c) :=
  inferInstanceAs (Decidable (¬ ['\\', 'u', '\x7b'] <+: Text.escapeChar c))

/-- A byte that is shown as itself or behind a backslash, and not by its number. -/
def isShownByte (b : UInt8) : Prop := b = 0x09 ∨ b = 0x0A ∨ b = 0x0D ∨ 0x20 ≤ b ∧ b ≤ 0x7E

instance (b : UInt8) : Decidable (isShownByte b) :=
  inferInstanceAs (Decidable (b = 0x09 ∨ b = 0x0A ∨ b = 0x0D ∨ 0x20 ≤ b ∧ b ≤ 0x7E))

/-- The kinds and values that can be printed and read back. -/
inductive Printable : Kind × Value → Prop
  | keyword (keyword : Keyword) : Printable (.keyword keyword, .ofName keyword.spelling)
  | operator (operator : Operator) : Printable (.operator operator, .none)
  | delimiter (delimiter : Delimiter) : Printable (.delimiter delimiter, .none)
  | ident (name : String) (spelled : isName name = true)
      (free : ∀ keyword : Keyword, keyword.spelling ≠ name) : Printable (.ident, .ofName name)
  | int (n : Int64) (nonnegative : 0 ≤ n) : Printable (.int, .int n)
  | char (b : UInt8) (shown : isShownByte b) : Printable (.char, .char b)
  | str (text : String) (shown : ∀ c ∈ text.toList, isShown c) : Printable (.str, .str text)

/-- A token as it is printed. -/
def printed (content : Kind × Value) : String :=
  if content.1.isLiteral then content.2.text else content.1.text

theorem printed_of_literal {kind : Kind} (literal : kind.isLiteral = true) (value : Value) :
    printed (kind, value) = value.text :=
  if_pos literal

theorem printed_of_spelled {kind : Kind} (spelled : kind.isLiteral = false) (value : Value) :
    printed (kind, value) = kind.text :=
  if_neg (Bool.eq_false_iff.mp spelled)

namespace Scan

/-- A text that is read whole stands alone. -/
theorem alone_of_front {text : List UInt8} {kind : Kind} {value : Value} (nonempty : text ≠ [])
    (sharp : elementSize text = 0) (whole : front text = .token kind value text.length) :
    Alone text (.token kind value text.length) := by
  have alone := alone_front nonempty sharp (by rw [whole]; rfl)
  rw [whole] at alone
  rwa [show (Scanned.token kind value text.length).size = text.length from rfl,
    List.take_length] at alone

/-- A byte that is neither blank nor a slash begins no element. -/
theorem elementSize_of_visible {b : UInt8} (visible : isBlank b = false) (plain : b ≠ slash)
    (rest : List UInt8) : elementSize (b :: rest) = 0 := by
  simp [elementSize, visible, plain]

/-! ### Words -/

theorem narrow_of_isNameChar {c : Char} (spelled : isNameChar c = true) : c.toNat < 128 := by
  delta isNameChar Char.isAlphanum Char.isAlpha Char.isUpper Char.isLower Char.isDigit at spelled
  simp only [Bool.or_eq_true, Bool.and_eq_true, decide_eq_true_eq, UInt32.le_iff_toNat_le]
    at spelled
  rcases spelled with ((⟨-, upper⟩ | ⟨-, upper⟩) | ⟨-, upper⟩) | rfl
  · exact Nat.lt_of_le_of_lt upper (by decide)
  · exact Nat.lt_of_le_of_lt upper (by decide)
  · exact Nat.lt_of_le_of_lt upper (by decide)
  · decide

/-- The characters of names are the bytes of words. -/
theorem utf8EncodeChar_nameChar {c : Char} (spelled : isNameChar c = true) :
    ∃ b, utf8EncodeChar c = [b] ∧ isWordByte b = true ∧ isWordStart b = isNameStart c := by
  have narrow := narrow_of_isNameChar spelled
  have classes := Text.forall_ascii
    (fun c => isNameChar c = true → isWordByte (UInt8.ofNat c.toNat) = true ∧
      isWordStart (UInt8.ofNat c.toNat) = isNameStart c) (by decide +kernel) narrow
  exact ⟨_, Text.utf8EncodeChar_ascii narrow, classes spelled⟩

theorem isNameChar_of_isNameStart {c : Char} (begins : isNameStart c = true) :
    isNameChar c = true := by
  simp only [isNameStart, isNameChar, Char.isAlphanum, Bool.or_eq_true] at begins ⊢
  exact begins.imp_left Or.inl

theorem utf8_name {name : String} (spelled : isName name = true) :
    ∃ b rest, Text.utf8 name = b :: rest ∧ isWordStart b = true ∧
      ∀ d ∈ Text.utf8 name, isWordByte d = true := by
  unfold isName at spelled
  unfold Text.utf8
  match shape : name.toList with
  | [] =>
    rw [shape] at spelled
    exact absurd spelled Bool.false_ne_true
  | c :: chars =>
    rw [shape] at spelled
    obtain ⟨begins, goesOn⟩ := (Bool.and_eq_true _ _).mp spelled
    obtain ⟨b, encoded, -, start⟩ := utf8EncodeChar_nameChar (isNameChar_of_isNameStart begins)
    refine ⟨b, chars.flatMap utf8EncodeChar, by rw [List.flatMap_cons, encoded]; rfl,
      start.trans begins, fun d member => ?_⟩
    obtain ⟨e, char, inside⟩ := List.mem_flatMap.mp member
    have nameChar : isNameChar e = true := by
      rcases List.mem_cons.mp char with rfl | later
      · exact isNameChar_of_isNameStart begins
      · exact List.all_eq_true.mp goesOn e later
    obtain ⟨a, encoded, wordByte, -⟩ := utf8EncodeChar_nameChar nameChar
    rw [encoded, List.mem_singleton] at inside
    rwa [inside]

/-- A name is read as a word, whether it is a keyword or not. -/
theorem alone_name {name : String} (spelled : isName name = true) :
    Alone (Text.utf8 name) (.token (wordKind name) (.ofName name) (Text.utf8 name).length) := by
  obtain ⟨b, rest, shape, begins, all⟩ := utf8_name spelled
  have classes : ∀ d : UInt8, isWordStart d = true → isBlank d = false ∧ d ≠ slash := by
    decide +kernel
  obtain ⟨visible, plain⟩ := classes b begins
  refine alone_of_front (by simp [shape]) (shape ▸ elementSize_of_visible visible plain rest) ?_
  have whole : (Text.utf8 name).takeWhile isWordByte = Text.utf8 name :=
    List.takeWhile_eq_self_iff.mpr all
  have chosen : front (Text.utf8 name) = word (Text.utf8 name) := by
    rw [shape]
    exact if_pos begins
  rw [chosen, word, whole, Text.decodeLossy_utf8]

theorem wordKind_spelling (keyword : Keyword) : wordKind keyword.spelling = .keyword keyword := by
  rw [wordKind, Keyword.ofSpelling?_spelling]

theorem isName_spelling (keyword : Keyword) : isName keyword.spelling = true := by
  cases keyword <;> decide

theorem wordKind_of_free {name : String} (free : ∀ keyword : Keyword, keyword.spelling ≠ name) :
    wordKind name = .ident := by
  cases found : Keyword.ofSpelling? name with
  | none => rw [wordKind, found]
  | some keyword => exact absurd (Keyword.spelling_of_ofSpelling? found) (free keyword)

/-! ### Symbols -/

/-- Whether the bytes begin like no other token and like no element. -/
def beginsSymbol : List UInt8 → Bool
  | [] => false
  | b :: rest =>
    !isWordStart b && !(isDigit b || (b = dot && beginsWithDigit 10 rest)) && b ≠ apostrophe &&
      b ≠ quote && elementSize (b :: rest) = 0

/-- A symbol is read as itself. No symbol begins like a word, a number, a literal or a
comment. -/
theorem alone_symbol {kind : Kind} (member : kind ∈ Kind.symbols) :
    Alone (Text.utf8 kind.text) (.token kind .none (Text.utf8 kind.text).length) := by
  -- That no spelling begins like another token is read off the table of spellings.
  have every : ∀ k ∈ Kind.symbols, beginsSymbol (Text.utf8 k.text) = true := by decide +kernel
  have begins := every kind member
  have longest := longest_append_blank member blankAhead_nil
  rw [List.append_nil] at longest
  have read := longest.symbol_eq
  match shape : Text.utf8 kind.text with
  | [] =>
    rw [shape] at begins
    exact absurd begins Bool.false_ne_true
  | b :: rest =>
    rw [shape] at begins read
    simp only [beginsSymbol, Bool.and_eq_true, Bool.not_eq_true', decide_eq_true_eq] at begins
    obtain ⟨⟨⟨⟨noWord, noNumber⟩, noChar⟩, noString⟩, sharp⟩ := begins
    refine alone_of_front (List.cons_ne_nil b rest) sharp ?_
    rw [front, noWord, noNumber, if_neg noChar, if_neg noString]
    exact read

/-! ### Integers -/

theorem isDigit_of_mem_toDigits {n : Nat} {c : Char} (member : c ∈ Nat.toDigits 10 n) :
    c.isDigit = true :=
  Nat.isDigit_of_mem_toDigits (by decide) (by decide) member

/-- Only zero begins with the digit zero. -/
theorem head_toDigits_ne_zero {n : Nat} (positive : 0 < n) :
    (Nat.toDigits 10 n).head? ≠ some '0' := by
  induction n using Nat.strongRecOn with
  | ind n inductionHypothesis =>
    rw [Nat.toDigits_eq_if (by decide)]
    split
    · rename_i small
      interval_cases n <;> decide
    · rw [List.head?_append_of_ne_nil _ Nat.toDigits_ne_nil]
      exact inductionHypothesis (n / 10) (by omega) (by omega)

/-- A decimal digit is written with one byte, and that is a digit of the same value. -/
theorem utf8EncodeChar_digit {c : Char} (digit : c.isDigit = true) :
    ∃ b, utf8EncodeChar c = [b] ∧ isDigit b = true ∧ b ≠ underscore ∧
      digit? 10 b = some (c.toNat - '0'.toNat) ∧ (b = 0x30 → c = '0') := by
  have narrow : c.toNat < 128 := by
    refine narrow_of_isNameChar ?_
    rw [isNameChar, Char.isAlphanum, digit, Bool.or_true, Bool.true_or]
  have values := Text.forall_ascii
    (fun c => c.isDigit = true → isDigit (UInt8.ofNat c.toNat) = true ∧
      UInt8.ofNat c.toNat ≠ underscore ∧
      digit? 10 (UInt8.ofNat c.toNat) = some (c.toNat - '0'.toNat) ∧
      (UInt8.ofNat c.toNat = 0x30 → c = '0')) (by decide +kernel) narrow
  exact ⟨_, Text.utf8EncodeChar_ascii narrow, values digit⟩

variable {digits : List Char}

theorem isDigit_of_mem_digits (decimal : ∀ c ∈ digits, c.isDigit = true) :
    ∀ b ∈ digits.flatMap utf8EncodeChar, isDigit b = true := by
  intro b member
  obtain ⟨c, inside, encodes⟩ := List.mem_flatMap.mp member
  obtain ⟨d, encoded, digit, -⟩ := utf8EncodeChar_digit (decimal c inside)
  rw [encoded, List.mem_singleton] at encodes
  rwa [encodes]

theorem readDigits_digits (decimal : ∀ c ∈ digits, c.isDigit = true) (separable : Bool) :
    readDigits 10 separable (digits.flatMap utf8EncodeChar) =
      some (digits.map fun c => c.toNat - '0'.toNat) := by
  induction digits generalizing separable with
  | nil => rfl
  | cons c rest inductionHypothesis =>
    obtain ⟨here, later⟩ := List.forall_mem_cons.mp decimal
    obtain ⟨b, encoded, -, noSeparator, value, -⟩ := utf8EncodeChar_digit here
    rw [List.flatMap_cons, encoded, List.singleton_append, readDigits, if_neg noSeparator, value,
      List.map_cons]
    dsimp only
    rw [inductionHypothesis later]
    rfl

theorem positional_digits (digits : List Char) :
    positional 10 (digits.map fun c => c.toNat - '0'.toNat) = Nat.ofDigitChars 10 digits 0 := by
  rw [positional, Nat.ofDigitChars, List.foldl_map]
  simp only [Nat.mul_comm]

/-- Digits carry no mark of a radix. -/
theorem markedRadix?_digits {bytes : List UInt8} (all : ∀ b ∈ bytes, isDigit b = true) :
    markedRadix? bytes = none := by
  match bytes with
  | [] | [_] => rfl
  | b :: mark :: rest =>
    have every : ∀ d : UInt8, isDigit d = true → radixOfMark? d = none := by decide +kernel
    have noMark := every mark (all mark (List.mem_cons_of_mem b List.mem_cons_self))
    simp [markedRadix?, noMark]

/-- The digits of a number are read as decimal ones: a zero in front of others would make
them octal. -/
theorem plainRadix_toDigits (n : Nat) :
    plainRadix ((Nat.toDigits 10 n).flatMap utf8EncodeChar) = 10 := by
  rcases Nat.eq_zero_or_pos n with rfl | positive
  · rfl
  · have noZero := head_toDigits_ne_zero positive
    obtain ⟨c, rest, shape⟩ := List.exists_cons_of_ne_nil (Nat.toDigits_ne_nil (n := n) (b := 10))
    obtain ⟨b, encoded, -, -, -, zero⟩ :=
      utf8EncodeChar_digit (isDigit_of_mem_toDigits (shape ▸ List.mem_cons_self))
    rw [shape] at noZero ⊢
    have noOctal : b ≠ 0x30 := fun octal => noZero (congrArg some (zero octal))
    simp [plainRadix, encoded, noOctal]

/-- Digits that need no separator and no radix are read as the number they show. -/
theorem number_toDigits {n : Nat} (bound : n < integerBound) :
    let bytes := (Nat.toDigits 10 n).flatMap utf8EncodeChar
    number bytes = .token .int (.int (Int64.ofNat n)) bytes.length := by
  intro bytes
  have decimal : ∀ c ∈ Nat.toDigits 10 n, c.isDigit = true := fun _ => isDigit_of_mem_toDigits
  have all := isDigit_of_mem_digits decimal
  have whole : bytes.takeWhile isDigitOrSeparator = bytes := by
    refine List.takeWhile_eq_self_iff.mpr fun b member => ?_
    rw [isDigitOrSeparator, all b member, Bool.true_or]
  have read := readDigits_digits decimal false
  have nonempty : (Nat.toDigits 10 n).map (fun c => c.toNat - '0'.toNat) ≠ [] :=
    List.map_eq_nil_iff.not.mpr Nat.toDigits_ne_nil
  have value : positional 10 ((Nat.toDigits 10 n).map fun c => c.toNat - '0'.toNat) = n := by
    rw [positional_digits, Nat.ofDigitChars_ten_toDigits]
  have integral : integer 10 false bytes = .ok (.int, .int (Int64.ofNat n)) := by
    obtain ⟨d, more, shape⟩ := List.exists_cons_of_ne_nil nonempty
    rw [integer, read, shape]
    dsimp only
    rw [← shape, value, if_pos bound]
  unfold number
  rw [markedRadix?_digits all]
  dsimp only
  rw [whole, List.drop_length, List.head?_nil, if_neg (Option.some_ne_none dot).symm,
    plainRadix_toDigits, integral]
  rfl

/-- An integer that is not negative is printed as its digits. -/
theorem utf8_text_int {n : Int64} (nonnegative : 0 ≤ n) :
    Text.utf8 (Value.int n).text = (Nat.toDigits 10 n.toNatClampNeg).flatMap utf8EncodeChar := by
  have least : 0 ≤ n.toInt := Int64.le_iff_toInt_le.mp nonnegative
  have digits : (Value.int n).text = toString n.toNatClampNeg := by
    rw [Value.text, ← Int.toNat_of_nonneg least]
    rfl
  rw [digits, Nat.toString_eq_ofList_toDigits, Text.utf8_ofList]

theorem alone_int {n : Int64} (nonnegative : 0 ≤ n) :
    Alone (Text.utf8 (Value.int n).text)
      (.token .int (.int n) (Text.utf8 (Value.int n).text).length) := by
  have read := number_toDigits (n := n.toNatClampNeg) n.toNatClampNeg_lt
  rw [Int64.ofNat_toNatClampNeg n nonnegative, ← utf8_text_int nonnegative] at read
  obtain ⟨c, rest, shape⟩ :=
    List.exists_cons_of_ne_nil (Nat.toDigits_ne_nil (n := n.toNatClampNeg) (b := 10))
  obtain ⟨b, encoded, digit, -⟩ :=
    utf8EncodeChar_digit (isDigit_of_mem_toDigits (shape ▸ List.mem_cons_self))
  have begins : Text.utf8 (Value.int n).text = b :: rest.flatMap utf8EncodeChar := by
    rw [utf8_text_int nonnegative, shape, List.flatMap_cons, encoded, List.singleton_append]
  have classes : ∀ d : UInt8, isDigit d = true →
      isWordStart d = false ∧ isBlank d = false ∧ d ≠ slash := by decide +kernel
  obtain ⟨noWord, visible, plain⟩ := classes b digit
  have sharp := elementSize_of_visible visible plain (rest.flatMap utf8EncodeChar)
  have chosen : front (Text.utf8 (Value.int n).text) = number (Text.utf8 (Value.int n).text) := by
    rw [begins, front, noWord, digit]
    rfl
  exact alone_of_front (by simp [begins]) (begins ▸ sharp) (chosen.trans read)

/-! ### Literals between quotes -/

/-- A byte is printed as itself or behind a backslash, and then as it can be read. -/
theorem escapeByte_cases {b : UInt8} (shown : isShownByte b) :
    ((Text.escapeByte b).flatMap utf8EncodeChar = [b] ∧ b ≠ apostrophe ∧
        b ≠ Source.backslash) ∨
      ∃ c, (Text.escapeByte b).flatMap utf8EncodeChar = [Source.backslash, c] ∧
        Source.unescape? c = some b := by
  have plain : ∀ d : UInt8, 0x20 ≤ d → d ≤ 0x7E → d ≠ quote → d ≠ apostrophe →
      d ≠ Source.backslash → (Text.escapeByte d).flatMap utf8EncodeChar = [d] := by
    decide +kernel
  rcases shown with rfl | rfl | rfl | ⟨least, most⟩
  · exact Or.inr ⟨0x74, rfl, rfl⟩
  · exact Or.inr ⟨0x6E, rfl, rfl⟩
  · exact Or.inr ⟨0x72, rfl, rfl⟩
  · by_cases quoted : b = quote
    · subst quoted
      exact Or.inr ⟨quote, rfl, rfl⟩
    by_cases closing : b = apostrophe
    · subst closing
      exact Or.inr ⟨apostrophe, rfl, rfl⟩
    by_cases escape : b = Source.backslash
    · subst escape
      exact Or.inr ⟨Source.backslash, rfl, rfl⟩
    exact Or.inl ⟨plain b least most quoted closing escape, closing, escape⟩

theorem alone_quoteByte {b : UInt8} (shown : isShownByte b) :
    Alone (Text.utf8 (Text.quoteByte b))
      (.token .char (.char b) (Text.utf8 (Text.quoteByte b)).length) := by
  have quotes : Text.utf8 (Text.quoteByte b) =
      apostrophe :: ((Text.escapeByte b).flatMap utf8EncodeChar ++ [apostrophe]) := by
    rw [Text.quoteByte, Text.utf8_ofList, List.cons_append, List.flatMap_cons,
      List.flatMap_append]
    rfl
  rw [quotes]
  refine alone_of_front (List.cons_ne_nil _ _) rfl ?_
  have chosen (rest : List UInt8) : front (apostrophe :: rest) = charLiteral (apostrophe :: rest) :=
    rfl
  rw [chosen]
  rcases escapeByte_cases shown with ⟨plain, filled, noEscape⟩ | ⟨c, escaped, known⟩
  · rw [plain]
    exact charLiteral_plain filled noEscape []
  · rw [escaped]
    exact charLiteral_escape known []

namespace StringBody

/-- The body behind items that stand for these bytes. -/
def ahead (body : StringBody) (bytes : List UInt8) (size : Nat) : StringBody :=
  { body with bytes := bytes ++ body.bytes, size := size + body.size }

theorem ahead_nil (body : StringBody) : body.ahead [] 0 = body := by
  rw [ahead, List.nil_append, Nat.zero_add]

theorem push_eq_ahead (body : StringBody) (b : UInt8) (size : Nat) :
    body.push b size = body.ahead [b] size := rfl

theorem ahead_ahead (body : StringBody) (first second : List UInt8) (size more : Nat) :
    (body.ahead second more).ahead first size = body.ahead (first ++ second) (size + more) := by
  rw [ahead, ahead, ahead, List.append_assoc, Nat.add_assoc]

end StringBody

/-- Bytes that are no quote, no line feed and no backslash stand for themselves. -/
theorem stringBody_run {bytes : List UInt8}
    (plain : ∀ b ∈ bytes, b ≠ quote ∧ b ≠ lineFeed ∧ b ≠ Source.backslash) (rest : List UInt8) :
    stringBody (bytes ++ rest) = (stringBody rest).ahead bytes bytes.length := by
  induction bytes with
  | nil => exact (StringBody.ahead_nil _).symm
  | cons b more inductionHypothesis =>
    obtain ⟨⟨unclosed, sameLine, noEscape⟩, later⟩ := List.forall_mem_cons.mp plain
    rw [List.cons_append, stringBody_plain unclosed sameLine noEscape, inductionHypothesis later,
      StringBody.push_eq_ahead, StringBody.ahead_ahead, List.singleton_append, List.length_cons,
      Nat.add_comm 1]

/-- Only a quote, a line feed and a backslash are written with their bytes. -/
theorem utf8EncodeChar_plain {c : Char} (unclosed : c ≠ '"') (sameLine : c ≠ '\n')
    (noEscape : c ≠ '\\') :
    ∀ b ∈ utf8EncodeChar c, b ≠ quote ∧ b ≠ lineFeed ∧ b ≠ Source.backslash := by
  by_cases narrow : c.toNat < 128
  · have classes := Text.forall_ascii
      (fun c => c ≠ '"' → c ≠ '\n' → c ≠ '\\' → UInt8.ofNat c.toNat ≠ quote ∧
        UInt8.ofNat c.toNat ≠ lineFeed ∧ UInt8.ofNat c.toNat ≠ Source.backslash)
      (by decide +kernel) narrow
    rw [Text.utf8EncodeChar_ascii narrow, List.forall_mem_singleton]
    exact classes unclosed sameLine noEscape
  · intro b member
    have high := Text.utf8EncodeChar_wide (Nat.le_of_not_lt narrow) member
    refine ⟨?_, ?_, ?_⟩ <;> rintro rfl <;> exact absurd high (by decide)

/-- A character that is shown is read back, behind a backslash or as itself. -/
theorem stringBody_escapeChar {c : Char} (shown : isShown c) (rest : List UInt8) :
    stringBody ((Text.escapeChar c).flatMap utf8EncodeChar ++ rest) =
      (stringBody rest).ahead (utf8EncodeChar c)
        ((Text.escapeChar c).flatMap utf8EncodeChar).length := by
  unfold isShown at shown
  revert shown
  unfold Text.escapeChar
  split
  -- Six characters have an escape of their own, and the scanner knows it.
  · exact fun _ => stringBody_escape (c := 0x30) rfl rest
  · exact fun _ => stringBody_escape (c := 0x74) rfl rest
  · exact fun _ => stringBody_escape (c := 0x6E) rfl rest
  · exact fun _ => stringBody_escape (c := 0x72) rfl rest
  · exact fun _ => stringBody_escape (c := 0x22) rfl rest
  · exact fun _ => stringBody_escape (c := 0x5C) rfl rest
  · rename_i noNul noTab sameLine noReturn unclosed noEscape
    split
    · -- What has no form is written by its number, and that is not shown.
      intro shown
      exact absurd ⟨_, (List.append_assoc _ _ _).symm⟩ shown
    · intro _
      rw [List.flatMap_singleton]
      exact stringBody_run (utf8EncodeChar_plain unclosed sameLine noEscape) rest

theorem stringBody_escaped {chars : List Char} (shown : ∀ c ∈ chars, isShown c)
    (rest : List UInt8) :
    stringBody ((chars.flatMap Text.escapeChar).flatMap utf8EncodeChar ++ rest) =
      (stringBody rest).ahead (chars.flatMap utf8EncodeChar)
        ((chars.flatMap Text.escapeChar).flatMap utf8EncodeChar).length := by
  induction chars with
  | nil => exact (StringBody.ahead_nil _).symm
  | cons c more inductionHypothesis =>
    obtain ⟨here, later⟩ := List.forall_mem_cons.mp shown
    rw [List.flatMap_cons, List.flatMap_append, List.append_assoc, stringBody_escapeChar here,
      inductionHypothesis later, StringBody.ahead_ahead, List.length_append, List.flatMap_cons]

theorem alone_quoteText {text : String} (shown : ∀ c ∈ text.toList, isShown c) :
    Alone (Text.utf8 (Text.quoteText text))
      (.token .str (.str text) (Text.utf8 (Text.quoteText text)).length) := by
  have quotes : Text.utf8 (Text.quoteText text) =
      quote :: ((text.toList.flatMap Text.escapeChar).flatMap utf8EncodeChar ++ [quote]) := by
    rw [Text.quoteText, Text.utf8_ofList, List.cons_append, List.flatMap_cons,
      List.flatMap_append]
    rfl
  have body := stringBody_escaped shown [quote]
  rw [stringBody_quote] at body
  have content : Text.decodeLossy (text.toList.flatMap utf8EncodeChar) = text :=
    Text.decodeLossy_utf8 text
  rw [quotes]
  refine alone_of_front (List.cons_ne_nil _ _) rfl ?_
  have chosen (rest : List UInt8) : front (quote :: rest) = stringLiteral (quote :: rest) := rfl
  rw [chosen, stringLiteral, List.drop_succ_cons, List.drop_zero, body]
  simp [StringBody.ahead, content, Nat.add_comm]

end Scan

/-! ### Printing and reading a list of tokens -/

/-- A printed token stands alone and is read as the token it was printed from. -/
theorem alone_printed {content : Kind × Value} (printable : Printable content) :
    Scan.Alone (Text.utf8 (printed content))
      (.token content.1 content.2 (Text.utf8 (printed content)).length) := by
  cases printable with
  | keyword keyword =>
    have alone := Scan.alone_name (Scan.isName_spelling keyword)
    rw [Scan.wordKind_spelling] at alone
    rw [printed_of_spelled rfl]
    exact alone
  | operator operator =>
    rw [printed_of_spelled rfl]
    exact Scan.alone_symbol ((Kind.mem_symbols _).mpr (Or.inl rfl))
  | delimiter delimiter =>
    rw [printed_of_spelled rfl]
    exact Scan.alone_symbol ((Kind.mem_symbols _).mpr (Or.inr rfl))
  | ident name spelled free =>
    have alone := Scan.alone_name spelled
    rw [Scan.wordKind_of_free free] at alone
    rw [printed_of_literal rfl]
    exact alone
  | int n nonnegative =>
    rw [printed_of_literal rfl]
    exact Scan.alone_int nonnegative
  | char b shown =>
    rw [printed_of_literal rfl]
    exact Scan.alone_quoteByte shown
  | str text shown =>
    rw [printed_of_literal rfl]
    exact Scan.alone_quoteText shown

/-- Texts with a space between each and the next. -/
theorem spaced_intercalate (texts : List String) :
    Spaced (texts.map Text.utf8) (Text.utf8 (" ".intercalate texts)) := by
  match texts with
  | [] => exact .nil
  | [text] =>
    have last : Spaced [Text.utf8 text] (Text.utf8 text ++ ([] ++ [])) :=
      .cons .nil (by decide) (absurd rfl) .nil
    rwa [List.append_nil, List.append_nil] at last
  | text :: next :: more =>
    have space : Scan.Separator ([0x20] ++ []) :=
      .cons (fun behind => .blank behind (by decide)) .nil
    rw [String.intercalate_cons_cons, Text.utf8_append, Text.utf8_append, List.append_assoc]
    exact .cons space (by decide) (fun _ => by decide) (spaced_intercalate (next :: more))

/-- Tokens that can be printed are read back as they were: printed one behind the other
with single spaces between them, they give no errors, and the same kinds and values in the
same order, followed by the end of the source. -/
theorem tokenize_printed {contents : List (Kind × Value)}
    (printable : ∀ content ∈ contents, Printable content) (mode : PositionMode) :
    let result := tokenize (Text.utf8 (" ".intercalate (contents.map printed))) mode
    result.errors = [] ∧ result.tokens.map Token.content = contents ++ [(.eof, .none)] := by
  intro result
  let found (content : Kind × Value) : Scan.Scanned :=
    .token content.1 content.2 (Text.utf8 (printed content)).length
  have alone : List.Forall₂ Scan.Alone ((contents.map printed).map Text.utf8)
      (contents.map found) := by
    rw [List.map_map, List.forall₂_map_left_iff, List.forall₂_map_right_iff, List.forall₂_same]
    exact fun content member => alone_printed (printable content member)
  have founds := found_lexemes_spaced alone .nil (spaced_intercalate (contents.map printed))
  rw [List.nil_append] at founds
  constructor
  · rw [errors_tokenize_eq_nil_iff, founds]
    intro read member
    rcases List.mem_append.mp member with inside | last
    · obtain ⟨content, -, rfl⟩ := List.mem_map.mp inside
      rfl
    · rw [List.mem_singleton.mp last]
      rfl
  · rw [content_tokenize, founds, List.map_append, List.map_map]
    exact congrArg₂ _ (List.map_id contents) rfl

/-- A zero and a point beside each other, two slashes, the largest integer, and literals in
which every quote and escape has to be printed with a backslash. -/
theorem tokenize_printed_points :
    let contents : List (Kind × Value) :=
      [(.keyword .var, .ofName "var"), (.ident, .ofName "_var0"), (.operator .div, .none),
        (.operator .div, .none), (.int, .int 0), (.delimiter .dot, .none),
        (.int, .int 9223372036854775807), (.char, .char 0x27), (.str, .str "\u00E9\"\\\n"),
        (.delimiter .semicolon, .none)]
    (∀ content ∈ contents, Printable content) ∧
      " ".intercalate (contents.map printed) =
        "var _var0 / / 0 . 9223372036854775807 '\\'' \"\u00E9\\\"\\\\\\n\" ;" ∧
      let result := tokenize (Text.utf8 (" ".intercalate (contents.map printed))) .columnOnly
      result.errors = [] ∧ result.tokens.map Token.content = contents ++ [(.eof, .none)] := by
  intro contents
  have shown : "\u00E9\"\\\n".toList.all (fun c => decide (isShown c)) = true := by decide +kernel
  have printable : ∀ content ∈ contents, Printable content := by
    simp only [contents, List.forall_mem_cons]
    refine ⟨.keyword .var, .ident _ (by decide +kernel) ?_, .operator .div, .operator .div,
      .int 0 (by decide), .delimiter .dot, .int _ (by decide), .char _ (by decide),
      .str _ fun c member => of_decide_eq_true (List.all_eq_true.mp shown c member),
      .delimiter .semicolon, List.forall_mem_nil _⟩
    intro keyword
    cases keyword <;> decide
  exact ⟨printable, by decide +kernel, tokenize_printed printable .columnOnly⟩

end Lexis
