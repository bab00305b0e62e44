/-
This file lines the two forms of a listing up. The text form has a line for each token, and the
line is made of the fields of the record that the JSON form has at the same place. What could
spoil this is a line feed in the midst of a line. Names come from outside and may have one; of
values only identifiers are shown as they are, and the scanner makes them of letters, digits and
underscores. Texts and characters are escaped, and numbers are spelled as JSON spells them.
-/

import Lexis.Proofs.Listings
import Lexis.Proofs.Sessions
import Lexis.Proofs.Spellings

namespace Lexis

/-- What it means that a text is all on one line. -/
def OneLine (text : String) : Prop := '\n' ∉ text.toList

instance (text : String) : Decidable (OneLine text) := inferInstanceAs (Decidable (¬ _))

theorem OneLine.append {first second : String} (before : OneLine first)
    (behind : OneLine second) : OneLine (first ++ second) := by
  rw [OneLine, String.toList_append, List.mem_append]
  exact fun somewhere => somewhere.elim before behind

/-! ### Numbers -/

namespace Json

theorem IsDigits.oneLine {digits : List Char} (decimal : IsDigits digits) : '\n' ∉ digits :=
  fun member => absurd (decimal.2 _ member) (by decide)

theorem Exponent.oneLine {exponent : Exponent} (valid : exponent.Valid) :
    '\n' ∉ exponent.text := by
  obtain ⟨mark, sign, digits⟩ := valid
  rw [text, List.mem_cons, List.mem_append]
  rintro (here | here | here)
  · rw [← here] at mark
    exact absurd mark (by decide)
  · rcases sign with sign | sign | sign <;> simp [sign] at here
  · exact digits.oneLine here

/-- A number of JSON is on one line. -/
theorem Numeral.oneLine {numeral : Numeral} (valid : numeral.Valid) : '\n' ∉ numeral.text := by
  obtain ⟨whole, -, fraction, exponent⟩ := valid
  rw [text, List.mem_append, List.mem_append, List.mem_append]
  rintro ((sign | here) | here | here)
  · split at sign <;> simp at sign
  · exact whole.oneLine here
  · cases known : numeral.fraction with
    | none => simp [known] at here
    | some digits =>
      rw [known, Option.elim_some, List.mem_cons, or_iff_right (by decide)] at here
      exact (fraction digits known).oneLine here
  · cases known : numeral.exponent with
    | none => simp [known] at here
    | some marked =>
      rw [known, Option.elim_some] at here
      exact Exponent.oneLine (exponent marked known) here

/-- So what is spelled as a number of JSON is on one line. -/
theorem Spells.oneLine_of_number {tree : Tree} {text : List Char}
    (spelled : Spells (.value tree) text)
    (number : (∃ n, tree = .integer n) ∨ ∃ x, tree = .decimal x) : '\n' ∉ text := by
  cases spelled with
  | number valid => exact Numeral.oneLine valid
  | _ => simp at number

end Json

/-! ### Quoted text -/

namespace Text

/-- A digit in any base up to sixteen is no line feed. -/
theorem toDigits_oneLine {base : Nat} (least : 1 < base) (most : base ≤ 16) (n : Nat) :
    '\n' ∉ Nat.toDigits base n := by
  have digits : ∀ d : Fin 16, '\n' ≠ Nat.digitChar d := by decide
  induction n using Nat.strongRecOn with
  | ind n inductionHypothesis =>
    rw [Nat.toDigits_eq_if least]
    split
    · rename_i small
      rw [List.mem_singleton]
      exact digits ⟨n, by omega⟩
    · rw [List.mem_append, List.mem_singleton]
      rintro (earlier | last)
      · exact inductionHypothesis _ (Nat.div_lt_self (by omega) least) earlier
      · have bound := Nat.mod_lt n (Nat.lt_trans Nat.zero_lt_one least)
        exact digits ⟨n % base, by omega⟩ last

/-- A line feed has an escape, and no escape has a line feed. -/
theorem escapeChar_no_lineFeed (c : Char) : '\n' ∉ escapeChar c := by
  by_cases feed : c = '\n'
  · subst feed
    decide
  · have code : '\n' ∉ hexDigits c.toNat := toDigits_oneLine (by decide) (by decide) c.toNat
    have other : '\n' ≠ c := Ne.symm feed
    unfold escapeChar
    repeat' split
    all_goals simp [code, other]

theorem quoteText_oneLine (text : String) : OneLine (quoteText text) := by
  rw [OneLine, quoteText, String.toList_ofList, List.mem_append, List.mem_cons, List.mem_flatMap]
  rintro ((opening | ⟨c, -, here⟩) | closing)
  · exact absurd opening (by decide)
  · exact escapeChar_no_lineFeed c here
  · exact absurd closing (by decide)

theorem quoteByte_oneLine (b : UInt8) : OneLine (quoteByte b) := by
  rw [OneLine, quoteByte, String.toList_ofList, List.mem_append, List.mem_cons]
  rintro ((opening | here) | closing)
  · exact absurd opening (by decide)
  · exact escapeByte_no_lineFeed b here
  · exact absurd closing (by decide)

end Text

/-! ### Values and kinds -/

theorem Value.floatText_oneLine (x : Binary64) : OneLine (floatText x) := by
  unfold floatText
  split
  · decide
  · split <;> decide
  · rename_i negative significand exponent known
    exact (Json.spells_finiteText floatLayout known).oneLine_of_number (.inr ⟨x, rfl⟩)

/-- Of the values only names could have a line feed. -/
theorem Value.text_oneLine {value : Value}
    (named : ∀ name hash, value = .ident name hash → OneLine name) : OneLine value.text := by
  cases value with
  | none => exact List.not_mem_nil
  | ident name hash => exact named name hash rfl
  | int n => exact (Json.spells_integer n.toInt).oneLine_of_number (.inl ⟨_, rfl⟩)
  | float x => exact floatText_oneLine x
  | char b => exact Text.quoteByte_oneLine b
  | str text => exact Text.quoteText_oneLine text

theorem Kind.text_oneLine (kind : Kind) : OneLine kind.text := by
  have every : ∀ k ∈ all, '\n' ∉ k.text.toList := by decide +kernel
  exact every kind (mem_all kind)

theorem oneLine_number (n : UInt32) : OneLine (toString n) := by
  show '\n' ∉ n.toNat.repr.toList
  rw [Nat.toList_repr]
  exact Text.toDigits_oneLine (by decide) (by decide) n.toNat

/-! ### Names -/

theorem Scan.isName_oneLine {name : String} (spelled : isName name = true) : OneLine name := by
  have noFeed : ∀ c, isNameChar c = true → '\n' ≠ c := by
    rintro c spelled rfl
    exact absurd spelled (by decide)
  unfold isName at spelled
  split at spelled
  · exact Bool.noConfusion spelled
  · rename_i c rest chars
    obtain ⟨first, others⟩ := Bool.and_eq_true_iff.mp spelled
    rw [OneLine, chars, List.mem_cons]
    rintro (here | later)
    · exact noFeed c (isNameChar_of_isNameStart first) here
    · exact noFeed _ (List.all_eq_true.mp others _ later) rfl

/-- The value of a token is shown on one line. -/
theorem value_oneLine {source : List UInt8} {mode : PositionMode} {token : Token}
    (member : token ∈ (tokenize source mode).tokens) : OneLine token.value.text := by
  refine Value.text_oneLine fun name hash value => ?_
  obtain ⟨outcome, size, read, told, -⟩ := exists_tokenRead_of_mem member
  cases outcome with
  | error fault => exact nomatch told.2.1.symm.trans value
  | ok content =>
    obtain ⟨kind, found⟩ := content
    obtain rfl : found = .ident name hash := told.2.1.symm.trans value
    cases read.carries with
    | word spelled known => exact Scan.isName_oneLine spelled

/-! ### Lines and records -/

/-- The line of a token in a listing, made of the fields of its record. What is behind them is
the value in the form of the text listing, where the kind is one that has a value. -/
def TokenRecord.textLine (record : TokenRecord) (token : Token) : String :=
  let place := record.file ++ ":" ++ toString record.line ++ ":" ++ toString record.column
  place ++ " " ++ record.kind ++
    if token.kind ∈ [.ident, .str, .char, .int, .float] then " " ++ token.value.text else ""

theorem TokenRecord.textLine_ofToken (file : String) (token : Token) :
    (ofToken file token).textLine token = token.listing file := by
  have literal : token.kind.isLiteral = true ↔
      token.kind ∈ [.ident, .str, .char, .int, .float] := by
    cases token.kind <;> simp [Kind.isLiteral]
  unfold textLine Token.listing ofToken
  dsimp only
  by_cases shown : token.kind.isLiteral = true
  · rw [if_pos shown, if_pos (literal.mp shown), ← String.append_assoc]
  · rw [if_neg shown, if_neg (literal.not.mp shown), String.append_empty]

/-- A line has a line feed only if the name of the source has one. -/
theorem Token.listing_oneLine {file : String} {token : Token} (named : OneLine file)
    (shown : OneLine token.value.text) : OneLine (token.listing file) := by
  have colon : OneLine ":" := by decide
  have blank : OneLine " " := by decide
  have place : OneLine
      (file ++ ":" ++ toString token.span.line ++ ":" ++ toString token.span.column) :=
    (((named.append colon).append (oneLine_number _)).append colon).append (oneLine_number _)
  have kind := (place.append blank).append token.kind.text_oneLine
  unfold listing
  split
  · exact (kind.append blank).append shown
  · exact kind

namespace Dump

/-- A listing as JSON is read back as its records. -/
theorem read?_json (sources : SourceMap) (reports : List FileReport) :
    (Json.read? (json sources reports).toList).bind records? = some (records sources reports) := by
  rw [Json.read?_of_spells ((spells_json_iff sources reports _).mpr rfl), Option.bind_some,
    records?_tree]

end Dump

/-- What a session lists has the name of one of its sources, and is a token of that source from
before its end. -/
theorem Session.mem_named_lex {session : Session} {entry : String × Token}
    (listed : entry ∈ Dump.named session.sources session.lex) :
    ∃ file ∈ session.sources.files, entry.1 = file.name ∧ entry.2.kind ≠ .eof ∧
      ∃ token ∈ (tokenize file.content session.options.mode).tokens,
        entry.2.value = token.value := by
  obtain ⟨report, read, listed⟩ := List.mem_flatMap.mp listed
  obtain ⟨stamped, member, rfl⟩ := List.mem_map.mp listed
  rw [lex_eq] at read
  obtain ⟨number, inside, rfl⟩ := List.mem_mapIdx.mp read
  obtain ⟨token, early, rfl⟩ := List.mem_map.mp member
  have known : session.sources.get? number = some session.sources.files[number] :=
    List.getElem?_eq_getElem inside
  have name : session.sources.name number = session.sources.files[number].name := by
    rw [SourceMap.name, known]
  have before : token.kind ≠ .eof := by
    obtain ⟨legal, last, all, notEof, -⟩ :=
      ends_tokenize session.sources.files[number].content session.options.mode
    rw [all, List.dropLast_concat] at early
    exact of_decide_eq_false (notEof token early)
  exact ⟨session.sources.files[number], List.getElem_mem inside, name, before, token,
    List.mem_of_mem_dropLast early, rfl⟩

/-- The two forms of a listing line up. For any sources whose names are on one line, the listing
as text has one line for each token before the ends of the sources, and nothing else; and the
line is made of the fields of the record that is read from the listing as JSON at its place. -/
theorem listings_line_up {session : Session}
    (named : ∀ file ∈ session.sources.files, OneLine file.name) :
    let reports := session.lex
    let tokens := (reports.flatMap FileReport.tokens).filter fun token => token.kind ≠ .eof
    ∃ text records, Dump.write .json session.sources reports = String.ofList text ++ "\n" ∧
      (Json.read? text).bind Dump.records? = some records ∧
      records.length = tokens.length ∧
      let lines := List.zipWith TokenRecord.textLine records tokens
      Dump.write .text session.sources reports = String.join (lines.map (· ++ "\n")) ∧
      ∀ line ∈ lines, OneLine line := by
  intro reports tokens
  have all : (Dump.named session.sources reports).map Prod.snd = tokens := by
    rw [Dump.tokens_named]
    refine (List.filter_eq_self.mpr fun token member => decide_eq_true ?_).symm
    rw [← Dump.tokens_named session.sources] at member
    obtain ⟨entry, listed, rfl⟩ := List.mem_map.mp member
    obtain ⟨_, -, -, before, -⟩ := session.mem_named_lex listed
    exact before
  have lines : List.zipWith TokenRecord.textLine (Dump.records session.sources reports) tokens =
      (Dump.named session.sources reports).map fun entry => entry.2.listing entry.1 := by
    rw [← all, Dump.records_eq_map_named, List.zipWith_map, List.zipWith_self]
    simp only [TokenRecord.textLine_ofToken]
  refine ⟨(Dump.json session.sources reports).toList, Dump.records session.sources reports, ?_,
    Dump.read?_json session.sources reports, ?_, ?_⟩
  · rw [String.ofList_toList]
    rfl
  · rw [← all, Dump.records_eq_map_named, List.length_map, List.length_map]
  · rw [lines]
    constructor
    · rw [List.map_map]
      rfl
    · intro line member
      obtain ⟨entry, listed, rfl⟩ := List.mem_map.mp member
      obtain ⟨file, known, name, -, token, read, value⟩ := session.mem_named_lex listed
      exact Token.listing_oneLine (name ▸ named file known) (value ▸ value_oneLine read)

/-- A string with a line feed in it, listed as one line among three. -/
theorem listings_line_up_feed :
    let files : List SourceFile :=
      [⟨"a.us", Text.utf8 "s \"a\\nb\""⟩, ⟨"b.us", Text.utf8 "do"⟩]
    let session : Session := ⟨⟨.lineColumn, 1⟩, ⟨files⟩, .empty⟩
    let tokens := session.lex.flatMap FileReport.tokens
    tokens.map Token.kind = [.ident, .str, .keyword .do_] ∧
      tokens.map Token.value = [.ofName "s", .str "a\nb", .ofName "do"] ∧
      Dump.write .text session.sources session.lex =
        "a.us:1:1 ident s\na.us:1:3 string \"a\\nb\"\nb.us:1:1 do\n" ∧
      ∃ records : List TokenRecord, records.length = 3 ∧
        ∀ line ∈ List.zipWith TokenRecord.textLine records tokens, OneLine line := by
  intro files session tokens
  have named : ∀ file ∈ session.sources.files, OneLine file.name := by decide
  have visible : tokens.filter (fun token => token.kind ≠ .eof) = tokens := by decide +kernel
  have count : tokens.length = 3 := by decide +kernel
  obtain ⟨text, records, -, -, sizes, -, lines⟩ := listings_line_up named
  rw [visible] at sizes lines
  exact ⟨by decide +kernel, by decide +kernel, by decide +kernel, records, sizes.trans count,
    lines⟩

end Lexis
