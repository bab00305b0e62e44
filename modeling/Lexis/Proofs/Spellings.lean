/-
This file proves that words and symbols are read as they are spelled, and as long as they can
be. A word is cut by its class of bytes and then asked whether it is a keyword. A symbol is the
longest that the bytes begin with, by what is proved of matching; and a byte that begins none
takes along what continues its character, if it begins one.

Together with numbers and quoted literals these are all the forms of tokens. They are put into
one grammar, and what the scanner finds at the front of any bytes is just what it derives; so
whoever asks what a token can be has the cases of the grammar to look at and no scanner.
-/

import Lexis.Proofs.Numerals
import Lexis.Proofs.Quotes

namespace Lexis

namespace Scan

/-! ### Words -/

/-- The kind of a word: the keyword that is spelled so, and an identifier if none is. -/
inductive WordKind : String → Kind → Prop
  | keyword (keyword : Keyword) : WordKind keyword.spelling (.keyword keyword)
  | ident {name : String} (free : ∀ keyword : Keyword, keyword.spelling ≠ name) :
      WordKind name .ident

theorem WordKind.scanned {name : String} {kind : Kind} (known : WordKind name kind) :
    wordKind name = kind := by
  cases known with
  | keyword keyword => exact wordKind_spelling keyword
  | ident free => exact wordKind_of_free free

theorem exists_wordKind (name : String) : ∃ kind, WordKind name kind := by
  by_cases reserved : ∃ keyword : Keyword, keyword.spelling = name
  · obtain ⟨keyword, rfl⟩ := reserved
    exact ⟨_, .keyword keyword⟩
  · exact ⟨_, .ident (not_exists.mp reserved)⟩

/-- What bytes give that begin a word, and how many of them the word takes up: all letters,
digits and underscores that there are. -/
inductive WordRead : List UInt8 → Except Fault (Kind × Value) → Nat → Prop
  | named {name : String} {kind : Kind} {behind : List UInt8} (spelled : isName name = true)
      (known : WordKind name kind) (cut : Run isWordByte (Text.utf8 name) behind) :
      WordRead (Text.utf8 name ++ behind) (.ok (kind, .ident name (Text.nameHash name)))
        (Text.utf8 name).length

theorem WordRead.scanned {bytes : List UInt8} {outcome : Except Fault (Kind × Value)}
    {size : Nat} (read : WordRead bytes outcome size) : word bytes = ⟨outcome, size⟩ := by
  cases read with
  | named spelled known cut =>
    rw [word, cut.takeWhile_eq, Text.decodeLossy_utf8, known.scanned]
    rfl

theorem isWordByte_ascii {b : UInt8} (inner : isWordByte b = true) : b < 0x80 := by
  have every : ∀ d : UInt8, isWordByte d = true → d < 0x80 := by decide +kernel
  exact every b inner

/-- The bytes of words are the characters of names. -/
theorem wordByte_char (b : UInt8) :
    isNameStart (.ofNat b.toNat) = isWordStart b ∧ isNameChar (.ofNat b.toNat) = isWordByte b := by
  have every : ∀ d : UInt8, isNameStart (.ofNat d.toNat) = isWordStart d ∧
      isNameChar (.ofNat d.toNat) = isWordByte d := by decide +kernel
  exact every b

/-- Behind a byte that begins a word there is a name, up to a byte that no name has. -/
theorem exists_name {b : UInt8} (begins : isWordStart b = true) (rest : List UInt8) :
    ∃ name behind, b :: rest = Text.utf8 name ++ behind ∧ isName name = true ∧
      Run isWordByte (Text.utf8 name) behind := by
  obtain ⟨run, behind, rfl, cut⟩ := exists_run isWordByte rest
  have first : isWordByte b = true := by rw [isWordByte, begins, Bool.true_or]
  have all : ∀ d ∈ b :: run, isWordByte d = true := List.forall_mem_cons.mpr ⟨first, cut.all⟩
  have bytes : Text.utf8 (.ofList ((b :: run).map fun d => .ofNat d.toNat)) = b :: run := by
    rw [Text.utf8_ofList, List.flatMap_map]
    refine (List.flatMap_congr fun d member => ?_).trans (List.flatMap_singleton' _)
    exact Text.utf8EncodeChar_byte (isWordByte_ascii (all d member))
  refine ⟨.ofList ((b :: run).map fun d => .ofNat d.toNat), behind, ?_, ?_, ?_⟩
  · rw [bytes, List.cons_append]
  · rw [isName, String.toList_ofList, List.map_cons]
    dsimp only
    rw [Bool.and_eq_true, List.all_map, List.all_eq_true]
    exact ⟨(wordByte_char b).1.trans begins,
      fun d member => (wordByte_char d).2.trans (cut.all d member)⟩
  · rw [bytes]
    exact ⟨all, cut.ends⟩

theorem exists_wordRead {b : UInt8} (begins : isWordStart b = true) (rest : List UInt8) :
    ∃ outcome size, WordRead (b :: rest) outcome size := by
  obtain ⟨name, behind, bytes, spelled, cut⟩ := exists_name begins rest
  obtain ⟨kind, known⟩ := exists_wordKind name
  rw [bytes]
  exact ⟨_, _, .named spelled known cut⟩

/-! ### Symbols -/

/-- What is taken along with a byte that begins nothing, up to the bytes behind: nothing, but if
it is the first byte of a wide character, whatever continues the character. -/
inductive StrayRun : UInt8 → List UInt8 → List UInt8 → Prop
  | byte {b : UInt8} (single : b < 0xC0) (behind : List UInt8) : StrayRun b [] behind
  | char {b : UInt8} {run behind : List UInt8} (wide : ¬ b < 0xC0)
      (cut : Run isContinuation run behind) : StrayRun b run behind

theorem StrayRun.scanned {b : UInt8} {run behind : List UInt8} (cut : StrayRun b run behind) :
    straySize (b :: (run ++ behind)) = 1 + run.length := by
  cases cut with
  | byte single => rw [straySize, if_pos single, List.length_nil]
  | char wide cut => rw [straySize, if_neg wide, runLength, cut.takeWhile_eq]

theorem exists_strayRun (b : UInt8) (rest : List UInt8) :
    ∃ run behind, rest = run ++ behind ∧ StrayRun b run behind := by
  by_cases single : b < 0xC0
  · exact ⟨[], rest, rfl, .byte single rest⟩
  · obtain ⟨run, behind, bytes, cut⟩ := exists_run isContinuation rest
    exact ⟨run, behind, bytes, .char single cut⟩

/-- What bytes give that begin neither a word nor a number nor a literal, and how many of them
are taken: the longest symbol that they begin with, or a byte that begins none and what is taken
along with it. -/
inductive SymbolRead : List UInt8 → Except Fault (Kind × Value) → Nat → Prop
  | spelled {kind : Kind} {behind : List UInt8}
      (longest : Longest kind (Text.utf8 kind.text ++ behind)) :
      SymbolRead (Text.utf8 kind.text ++ behind) (.ok (kind, .none)) (Text.utf8 kind.text).length
  | stray {b : UInt8} {run behind : List UInt8} (noSymbol : BeginsNoSymbol b)
      (cut : StrayRun b run behind) :
      SymbolRead (b :: (run ++ behind)) (.error .strayByte) (1 + run.length)

theorem SymbolRead.scanned {bytes : List UInt8} {outcome : Except Fault (Kind × Value)}
    {size : Nat} (read : SymbolRead bytes outcome size) : symbol bytes = ⟨outcome, size⟩ := by
  cases read with
  | spelled longest => exact longest.symbol_eq
  | stray noSymbol cut =>
    rw [noSymbol.symbol_eq, cut.scanned]
    rfl

theorem SymbolRead.exists_cons {bytes : List UInt8} {outcome : Except Fault (Kind × Value)}
    {size : Nat} (read : SymbolRead bytes outcome size) : ∃ b behind, bytes = b :: behind := by
  cases read with
  | spelled longest =>
    obtain ⟨b, behind, bytes, -⟩ := longest.exists_head
    exact ⟨b, behind, bytes⟩
  | stray noSymbol cut => exact ⟨_, _, rfl⟩

/-- The grammar derives something of any bytes. -/
theorem exists_symbolRead (b : UInt8) (rest : List UInt8) :
    ∃ outcome size, SymbolRead (b :: rest) outcome size := by
  obtain ⟨kind, longest⟩ | noSymbol := exists_longest_or_beginsNoSymbol b rest
  · obtain ⟨behind, bytes⟩ := longest.spelled
    rw [← bytes] at longest ⊢
    exact ⟨_, _, .spelled longest⟩
  · obtain ⟨run, behind, rfl, cut⟩ := exists_strayRun b rest
    exact ⟨_, _, .stray noSymbol cut⟩

/-! ### The grammar of tokens -/

/-- Bytes that begin a word. -/
def BeginsWord (bytes : List UInt8) : Prop := ∃ b ∈ bytes.head?, isWordStart b = true

/-- What it means that bytes begin no word, no number and no quoted literal. -/
structure BeginsOther (bytes : List UInt8) : Prop where
  noWord : ¬ BeginsWord bytes
  noNumber : ¬ BeginsNumber bytes
  noChar : bytes.head? ≠ some apostrophe
  noString : bytes.head? ≠ some quote

/-- What any bytes give, and how many of them the token takes up. -/
inductive TokenRead : List UInt8 → Except Fault (Kind × Value) → Nat → Prop
  | stop : TokenRead [] (.ok (.eof, .none)) 0
  | word {bytes : List UInt8} {outcome : Except Fault (Kind × Value)} {size : Nat}
      (begins : BeginsWord bytes) (read : WordRead bytes outcome size) :
      TokenRead bytes outcome size
  | number {bytes : List UInt8} {outcome : Except Fault (Kind × Value)} {size : Nat}
      (begins : BeginsNumber bytes) (read : NumberRead bytes outcome size) :
      TokenRead bytes outcome size
  | char {behind : List UInt8} {outcome : Except Fault (Kind × Value)} {size : Nat}
      (read : CharRead behind outcome size) : TokenRead (apostrophe :: behind) outcome size
  | string {behind : List UInt8} {outcome : Except Fault (Kind × Value)} {size : Nat}
      (read : StringRead behind outcome size) : TokenRead (quote :: behind) outcome size
  | symbol {bytes : List UInt8} {outcome : Except Fault (Kind × Value)} {size : Nat}
      (begins : BeginsOther bytes) (read : SymbolRead bytes outcome size) :
      TokenRead bytes outcome size

theorem front_word {bytes : List UInt8} (begins : BeginsWord bytes) :
    front bytes = word bytes := by
  obtain ⟨b, first, starts⟩ := begins
  obtain ⟨behind, rfl⟩ := List.head?_eq_some_iff.mp first
  exact if_pos starts

theorem front_symbol {b : UInt8} {behind : List UInt8} (begins : BeginsOther (b :: behind)) :
    front (b :: behind) = symbol (b :: behind) := by
  have noWord : ¬ isWordStart b = true := fun starts => begins.noWord ⟨b, rfl, starts⟩
  have noNumber := beginsNumber_cons_iff.not.mpr begins.noNumber
  have noChar : b ≠ apostrophe := fun same => begins.noChar (congrArg some same)
  have noString : b ≠ quote := fun same => begins.noString (congrArg some same)
  rw [front, if_neg noWord, if_neg noNumber, if_neg noChar, if_neg noString]

/-- What the grammar derives is found at the front. -/
theorem TokenRead.scanned {bytes : List UInt8} {outcome : Except Fault (Kind × Value)}
    {size : Nat} (read : TokenRead bytes outcome size) : front bytes = ⟨outcome, size⟩ := by
  cases read with
  | stop => rfl
  | word begins read => rw [front_word begins, read.scanned]
  | number begins read => rw [front_number begins, read.scanned begins]
  | char read => rw [front_apostrophe, read.scanned]
  | string read => rw [front_quote, read.scanned]
  | symbol begins read =>
    obtain ⟨b, behind, rfl⟩ := read.exists_cons
    rw [front_symbol begins, read.scanned]

/-- The grammar derives something of any bytes. -/
theorem exists_tokenRead (bytes : List UInt8) : ∃ outcome size, TokenRead bytes outcome size := by
  cases bytes with
  | nil => exact ⟨_, _, .stop⟩
  | cons b behind =>
    by_cases noWord : BeginsWord (b :: behind)
    · obtain ⟨_, ⟨⟩, starts⟩ := noWord
      obtain ⟨outcome, size, read⟩ := exists_wordRead starts behind
      exact ⟨outcome, size, .word ⟨b, rfl, starts⟩ read⟩
    by_cases noNumber : BeginsNumber (b :: behind)
    · obtain ⟨outcome, size, read⟩ := exists_numberRead (b :: behind)
      exact ⟨outcome, size, .number noNumber read⟩
    by_cases noChar : (b :: behind).head? = some apostrophe
    · obtain rfl := Option.some_inj.mp noChar
      obtain ⟨outcome, size, read⟩ := exists_charRead behind
      exact ⟨outcome, size, .char read⟩
    by_cases noString : (b :: behind).head? = some quote
    · obtain rfl := Option.some_inj.mp noString
      obtain ⟨outcome, size, read⟩ := exists_stringRead behind
      exact ⟨outcome, size, .string read⟩
    · obtain ⟨outcome, size, read⟩ := exists_symbolRead b behind
      exact ⟨outcome, size, .symbol ⟨noWord, noNumber, noChar, noString⟩ read⟩

theorem front_iff {bytes : List UInt8} (outcome : Except Fault (Kind × Value)) (size : Nat) :
    front bytes = ⟨outcome, size⟩ ↔ TokenRead bytes outcome size :=
  Scanned.eq_iff_of_derives (fun _ _ read => read.scanned) (exists_tokenRead bytes) outcome size

/-! ### Symbols and stray bytes among the tokens -/

/-- What it means that a byte is no part of any token but the illegal one. -/
structure Stray (b : UInt8) : Prop where
  noWord : isWordByte b = false
  noChar : b ≠ apostrophe
  noString : b ≠ quote
  noSymbol : BeginsNoSymbol b

/-- No symbol begins like a word or a literal. -/
theorem head_symbol {kind : Kind} (member : kind ∈ Kind.symbols) {b : UInt8}
    (first : (Text.utf8 kind.text).head? = some b) :
    isWordByte b = false ∧ b ≠ apostrophe ∧ b ≠ quote := by
  have every : ∀ k ∈ Kind.symbols, (Text.utf8 k.text).head?.all
      (fun d => isWordByte d = false ∧ d ≠ apostrophe ∧ d ≠ quote) = true := by decide +kernel
  have here := every kind member
  rw [first, Option.all_some] at here
  exact of_decide_eq_true here

theorem isWordByte_eq_false_iff {b : UInt8} :
    isWordByte b = false ↔ isWordStart b = false ∧ isDigit b = false := by
  rw [isWordByte, Bool.or_eq_false_iff]

/-- The point is a symbol. -/
theorem not_beginsNoSymbol_dot : ¬ BeginsNoSymbol dot := by
  intro noSymbol
  exact noSymbol (.delimiter .dot) (by decide) rfl

theorem Stray.beginsOther {b : UInt8} (stray : Stray b) (behind : List UInt8) :
    BeginsOther (b :: behind) := by
  obtain ⟨noStart, noDigit⟩ := isWordByte_eq_false_iff.mp stray.noWord
  refine ⟨?_, ?_, fun same => stray.noChar (Option.some_inj.mp same),
    fun same => stray.noString (Option.some_inj.mp same)⟩
  · rintro ⟨_, ⟨⟩, starts⟩
    exact Bool.false_ne_true (noStart.symm.trans starts)
  · rintro (digit | ⟨rest, split, -⟩)
    · rw [List.head?_cons, ← isDigit_iff, noDigit] at digit
      exact Bool.noConfusion digit
    · obtain ⟨rfl, -⟩ := List.cons.inj split
      exact not_beginsNoSymbol_dot stray.noSymbol

theorem BeginsOther.stray {b : UInt8} {behind : List UInt8} (begins : BeginsOther (b :: behind))
    (noSymbol : BeginsNoSymbol b) : Stray b := by
  refine ⟨isWordByte_eq_false_iff.mpr ⟨?_, ?_⟩, fun same => begins.noChar (congrArg some same),
    fun same => begins.noString (congrArg some same), noSymbol⟩
  · exact Bool.eq_false_iff.mpr fun starts => begins.noWord ⟨b, rfl, starts⟩
  · rw [Bool.eq_false_iff, ne_eq, isDigit_iff]
    exact fun digit => begins.noNumber (.inl digit)

/-- Where no number begins, the longest symbol is read. -/
theorem Longest.tokenRead {kind : Kind} {bytes : List UInt8} (longest : Longest kind bytes)
    (noNumber : ¬ BeginsNumber bytes) :
    TokenRead bytes (.ok (kind, .none)) (Text.utf8 kind.text).length := by
  obtain ⟨b, behind, starts, first⟩ := longest.exists_head
  obtain ⟨noWord, noChar, noString⟩ := head_symbol longest.member first
  obtain ⟨rest, rfl⟩ := longest.spelled
  refine .symbol ⟨?_, noNumber, ?_, ?_⟩ (.spelled longest)
  · rw [starts]
    rintro ⟨_, ⟨⟩, begins⟩
    exact Bool.false_ne_true ((isWordByte_eq_false_iff.mp noWord).1.symm.trans begins)
  · exact starts ▸ fun same => noChar (Option.some_inj.mp same)
  · exact starts ▸ fun same => noString (Option.some_inj.mp same)

/-- Words are no symbols. -/
theorem WordKind.not_symbol {name : String} {kind : Kind} (known : WordKind name kind) :
    kind ∉ Kind.symbols := by
  cases known with
  | keyword keyword => simp [Kind.mem_symbols, Kind.isOperator, Kind.isDelimiter]
  | ident free => decide

/-- A number has the value of its kind. -/
theorem NumberRead.content {bytes : List UInt8} {kind : Kind} {value : Value} {size : Nat}
    (read : NumberRead bytes (.ok (kind, value)) size) :
    (kind = .int ∧ ∃ n, value = .int n) ∨ kind = .float ∧ ∃ x, value = .float x := by
  cases read with
  | marked named cut read => cases read with | int => exact .inl ⟨rfl, _, rfl⟩
  | plain unmarked cut pointless read => cases read with | int => exact .inl ⟨rfl, _, rfl⟩
  | pointed unmarked before cut read => cases read with | float => exact .inr ⟨rfl, _, rfl⟩

/-- So has a character. -/
theorem CharRead.content {bytes : List UInt8} {kind : Kind} {value : Value} {size : Nat}
    (read : CharRead bytes (.ok (kind, value)) size) : kind = .char ∧ ∃ b, value = .char b := by
  cases read with
  | plain | escape => exact ⟨rfl, _, rfl⟩

/-- And so has a string. -/
theorem StringRead.content {bytes : List UInt8} {kind : Kind} {value : Value} {size : Nat}
    (read : StringRead bytes (.ok (kind, value)) size) :
    kind = .str ∧ ∃ text, value = .str text := by
  cases read with
  | closed => exact ⟨rfl, _, rfl⟩

/-- What tokens of each kind stand for. -/
inductive Carries : Kind → Value → Prop
  | eof : Carries .eof .none
  | word {name : String} {kind : Kind} (spelled : isName name = true)
      (known : WordKind name kind) : Carries kind (.ident name (Text.nameHash name))
  | int (n : Int64) : Carries .int (.int n)
  | float (x : Binary64) : Carries .float (.float x)
  | char (b : UInt8) : Carries .char (.char b)
  | str (text : String) : Carries .str (.str text)
  | symbol {kind : Kind} (member : kind ∈ Kind.symbols) : Carries kind .none

/-- The kind of what is read and what it stands for go together. -/
theorem TokenRead.carries {bytes : List UInt8} {kind : Kind} {value : Value} {size : Nat}
    (read : TokenRead bytes (.ok (kind, value)) size) : Carries kind value := by
  cases read with
  | stop => exact .eof
  | word begins read => cases read with | named spelled known cut => exact .word spelled known
  | number begins read =>
    obtain ⟨rfl, n, rfl⟩ | ⟨rfl, x, rfl⟩ := read.content
    · exact .int n
    · exact .float x
  | char read =>
    obtain ⟨rfl, b, rfl⟩ := read.content
    exact .char b
  | string read =>
    obtain ⟨rfl, text, rfl⟩ := read.content
    exact .str text
  | symbol begins read => cases read with | spelled longest => exact .symbol longest.member

/-- Nowhere else is a symbol read. -/
theorem TokenRead.longest {bytes : List UInt8} {kind : Kind} {value : Value} {size : Nat}
    (read : TokenRead bytes (.ok (kind, value)) size) (symbol : kind ∈ Kind.symbols) :
    Longest kind bytes ∧ ¬ BeginsNumber bytes := by
  cases read with
  | stop => exact absurd symbol (by decide)
  | word begins read => cases read with
    | named spelled known cut => exact absurd symbol known.not_symbol
  | number begins read =>
    obtain ⟨rfl, -⟩ | ⟨rfl, -⟩ := read.content
    · exact absurd symbol (by decide)
    · exact absurd symbol (by decide)
  | char read =>
    obtain ⟨rfl, -⟩ := read.content
    exact absurd symbol (by decide)
  | string read =>
    obtain ⟨rfl, -⟩ := read.content
    exact absurd symbol (by decide)
  | symbol begins read => cases read with
    | spelled longest => exact ⟨longest, begins.noNumber⟩

/-- A stray byte is read as one. -/
theorem Stray.tokenRead {b : UInt8} {run behind : List UInt8} (stray : Stray b)
    (cut : StrayRun b run behind) :
    TokenRead (b :: (run ++ behind)) (.error .strayByte) (1 + run.length) :=
  .symbol (stray.beginsOther _) (.stray stray.noSymbol cut)

/-- And no other is. -/
theorem TokenRead.exists_stray {bytes : List UInt8} {size : Nat}
    (read : TokenRead bytes (.error .strayByte) size) : ∃ b ∈ bytes.head?, Stray b := by
  cases read with
  | word begins read => cases read
  | number begins read =>
    cases read with
    | marked named cut read => cases read
    | plain unmarked cut pointless read => cases read
    | pointed unmarked before cut read => cases read
  | char read => cases read
  | string read => cases read
  | symbol begins read =>
    cases read with
    | stray noSymbol cut => exact ⟨_, rfl, begins.stray noSymbol⟩

end Scan

/-! ### The tokens of words, symbols and stray bytes -/

variable {source : List UInt8} {mode : PositionMode} {token : Token}

/-- What is told of a token, and where it ends, is what the grammar derives of the bytes from
where it begins. -/
theorem gives_iff_tokenRead (member : token ∈ (tokenize source mode).tokens)
    (outcome : Except Fault (Kind × Value)) (size : Nat) :
    ((tokenize source mode).Gives token outcome ∧ token.span.stop = token.span.start + size) ↔
      Scan.TokenRead (source.drop token.span.start) outcome size :=
  (gives_iff member outcome size).trans (Scan.front_iff outcome size)

/-- A token was read by the grammar. -/
theorem exists_tokenRead_of_mem (member : token ∈ (tokenize source mode).tokens) :
    ∃ outcome size, Scan.TokenRead (source.drop token.span.start) outcome size ∧
      (tokenize source mode).Gives token outcome ∧
      token.span.stop = token.span.start + size := by
  obtain ⟨outcome, size, read⟩ := Scan.exists_tokenRead (source.drop token.span.start)
  exact ⟨outcome, size, read, (gives_iff_tokenRead member outcome size).mpr read⟩

/-- A token that is not illegal was read with its kind and its value. -/
theorem exists_tokenRead_of_legal (member : token ∈ (tokenize source mode).tokens)
    (legal : token.kind ≠ .illegal) :
    ∃ size, Scan.TokenRead (source.drop token.span.start) (.ok (token.kind, token.value)) size ∧
      token.span.stop = token.span.start + size := by
  obtain ⟨outcome, size, read, told, stop⟩ := exists_tokenRead_of_mem member
  cases outcome with
  | ok content =>
    obtain ⟨kind, value⟩ := content
    obtain ⟨rfl, rfl, -⟩ := told
    exact ⟨size, read, stop⟩
  | error fault => exact absurd told.1 legal

/-- Where one thing is told of a token, that is what was read there. -/
theorem Tokens.Gives.tokenRead {outcome : Except Fault (Kind × Value)}
    (told : (tokenize source mode).Gives token outcome)
    (member : token ∈ (tokenize source mode).tokens) :
    ∃ size, Scan.TokenRead (source.drop token.span.start) outcome size ∧
      token.span.stop = token.span.start + size := by
  obtain ⟨found, size, read, given, stop⟩ := exists_tokenRead_of_mem member
  obtain rfl := given.unique told
  exact ⟨size, read, stop⟩

/-- A token is a symbol just where that symbol is read. -/
theorem kind_eq_symbol_iff (member : token ∈ (tokenize source mode).tokens) {kind : Kind}
    (symbol : kind ∈ Kind.symbols) :
    token.kind = kind ↔ Scan.Longest kind (source.drop token.span.start) ∧
      ¬ Scan.BeginsNumber (source.drop token.span.start) := by
  constructor
  · rintro rfl
    have legal : token.kind ≠ .illegal := by
      intro illegal
      rw [illegal] at symbol
      exact absurd symbol (by decide)
    obtain ⟨size, read, -⟩ := exists_tokenRead_of_legal member legal
    exact read.longest symbol
  · rintro ⟨longest, noNumber⟩
    exact ((gives_iff_tokenRead member _ _).mpr (longest.tokenRead noNumber)).1.1

/-- A byte that begins nothing is reported with what continues its character. -/
theorem gives_strayByte (member : token ∈ (tokenize source mode).tokens) {b : UInt8}
    (first : b ∈ (source.drop token.span.start).head?) (stray : Scan.Stray b) :
    (tokenize source mode).Gives token (.error .strayByte) ∧
      ∃ run, token.stretch.text source = b :: run ∧
        Scan.StrayRun b run (source.drop token.span.stop) := by
  obtain ⟨rest, bytes⟩ := List.head?_eq_some_iff.mp first
  obtain ⟨run, behind, rfl, cut⟩ := Scan.exists_strayRun b rest
  have read := stray.tokenRead cut
  rw [← bytes, Nat.add_comm, ← List.length_cons] at read
  obtain ⟨told, stop⟩ := (gives_iff_tokenRead member _ _).mpr read
  obtain ⟨text, rfl⟩ := text_of_stop bytes stop
  exact ⟨told, run, text, cut⟩

/-- What it means that a token of a source is told by its spelling. -/
structure Token.Spelled (source : List UInt8) (result : Tokens) (token : Token) : Prop where
  /-- A letter or an underscore begins a word. The token takes up all letters, digits and
  underscores there are, and has them for its name; it is the keyword that is spelled so, or an
  identifier if none is. -/
  word : Scan.BeginsWord (source.drop token.span.start) →
    ∃ name kind, token.stretch.text source = Text.utf8 name ∧
      Scan.Run Scan.isWordByte (Text.utf8 name) (source.drop token.span.stop) ∧
      Scan.WordKind name kind ∧ result.Gives token (.ok (kind, .ident name (Text.nameHash name)))
  /-- The token is a symbol just where that is the longest symbol that the bytes begin with and
  they do not begin a number. -/
  symbol : ∀ kind ∈ Kind.symbols, token.kind = kind ↔
    Scan.Longest kind (source.drop token.span.start) ∧
      ¬ Scan.BeginsNumber (source.drop token.span.start)
  /-- A symbol takes up its spelling and stands for nothing else. -/
  symbolText : token.kind ∈ Kind.symbols →
    token.stretch.text source = Text.utf8 token.kind.text ∧ token.value = .none
  /-- The token is a stray byte just where no word, number, literal or symbol begins with the
  byte or has it as a digit. -/
  stray : result.Gives token (.error .strayByte) ↔
    ∃ b ∈ (source.drop token.span.start).head?, Scan.Stray b
  /-- A stray byte is taken with what continues its character. -/
  strayText : result.Gives token (.error .strayByte) →
    ∃ b run, token.stretch.text source = b :: run ∧
      Scan.StrayRun b run (source.drop token.span.stop)

/-- Words and symbols are read as they are spelled and as long as they can be, and a byte is
stray just if it begins nothing. -/
theorem spelled_tokens_exact (member : token ∈ (tokenize source mode).tokens) :
    token.Spelled source (tokenize source mode) := by
  refine ⟨fun begins => ?_, fun kind => kind_eq_symbol_iff member, fun symbol => ?_,
    ⟨fun told => ?_, ?_⟩, fun told => ?_⟩
  · have ⟨b, first, starts⟩ := begins
    obtain ⟨rest, bytes⟩ := List.head?_eq_some_iff.mp first
    obtain ⟨name, behind, split, spelled, cut⟩ := Scan.exists_name starts rest
    obtain ⟨kind, known⟩ := Scan.exists_wordKind name
    rw [split] at bytes
    have read := Scan.TokenRead.word (bytes ▸ begins) (.named spelled known cut)
    rw [← bytes] at read
    obtain ⟨told, stop⟩ := (gives_iff_tokenRead member _ _).mpr read
    obtain ⟨text, rfl⟩ := text_of_stop bytes stop
    exact ⟨name, kind, text, cut, known, told⟩
  · obtain ⟨longest, noNumber⟩ := (kind_eq_symbol_iff member symbol).mp rfl
    obtain ⟨told, stop⟩ := (gives_iff_tokenRead member _ _).mpr (longest.tokenRead noNumber)
    obtain ⟨behind, bytes⟩ := longest.spelled
    exact ⟨(text_of_stop bytes.symm stop).1, told.2.1⟩
  · obtain ⟨size, read, -⟩ := told.tokenRead member
    exact read.exists_stray
  · rintro ⟨b, first, stray⟩
    exact (gives_strayByte member first stray).1
  · obtain ⟨size, read, -⟩ := told.tokenRead member
    obtain ⟨b, first, stray⟩ := read.exists_stray
    obtain ⟨-, run, text, cut⟩ := gives_strayByte member first stray
    exact ⟨b, run, text, cut⟩

/-- A word that only begins like a keyword, directly behind it a symbol that two shorter ones
begin like too, and then a wide character. -/
theorem spelled_tokens_exact_tight :
    let source : List UInt8 := [0x69, 0x66, 0x66, 0x2A, 0x2A, 0x3D, 0xC3, 0xA9]
    let result := tokenize source .lineColumn
    (∃ word ∈ result.tokens, word.Spelled source result ∧ word.kind = .ident ∧
        word.stretch.text source = Text.utf8 "iff") ∧
      (∃ symbol ∈ result.tokens, symbol.Spelled source result ∧
        Scan.Longest (.operator .powAssign) (source.drop symbol.span.start)) ∧
      ∃ stray ∈ result.tokens, stray.Spelled source result ∧
        stray.stretch.text source = [0xC3, 0xA9] ∧ Scan.Stray 0xC3 := by
  intro source result
  refine ⟨?_, ?_, ?_⟩
  · have member : ⟨.ident, .ofName "iff", ⟨0, 3, 1, 1, 0⟩⟩ ∈ result.tokens := by decide +kernel
    exact ⟨_, member, spelled_tokens_exact member, rfl, by decide +kernel⟩
  · have member : ⟨.operator .powAssign, .none, ⟨3, 6, 1, 4, 0⟩⟩ ∈ result.tokens := by
      decide +kernel
    have spelled := spelled_tokens_exact member
    exact ⟨_, member, spelled, ((spelled.symbol (.operator .powAssign) (by decide)).mp rfl).1⟩
  · have member : ⟨.illegal, .none, ⟨6, 8, 1, 7, 0⟩⟩ ∈ result.tokens := by decide +kernel
    have reported : ⟨.strayByte, ⟨6, 8, 1, 7, 0⟩⟩ ∈ result.errors := by decide +kernel
    have only : ∀ error ∈ result.errors, error.span = ⟨6, 8, 1, 7, 0⟩ →
        error.fault = .strayByte := by decide +kernel
    have spelled := spelled_tokens_exact member
    obtain ⟨_, ⟨⟩, stray⟩ := spelled.stray.mp ⟨rfl, rfl, reported, only⟩
    exact ⟨_, member, spelled, rfl, stray⟩

end Lexis
