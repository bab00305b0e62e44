/-
This file proves that separators do not matter. A token that was read without a fault
stands alone: its text is read as the same token when a blank byte or nothing follows in
place of what followed it. Every scanner is compared with itself on two texts that have the
bytes of the token in common, of which the second goes on blank. Runs of bytes end where
they ended, since no blank byte belongs to a word or a number; a quoted literal is closed
by its own last byte; and a symbol gets no longer, since no symbol has a blank byte in it.

So the tokens of a source without faults can be taken apart and written with any separators
between them, and they are read as they were.
-/

import Mathlib.Data.List.TakeWhile
import Lexis.Proofs.Lookahead
import Lexis.Proofs.Spacing

namespace Lexis

namespace Scan

variable {text more behind : List UInt8}

/-! ### Words and numbers -/

/-- A run that takes up a text consists of it. -/
theorem takeWhile_eq_of_length {belongs : UInt8 → Bool}
    (all : ((text ++ more).takeWhile belongs).length = text.length) :
    (text ++ more).takeWhile belongs = text :=
  List.IsPrefix.eq_of_length
    (List.prefix_of_prefix_length_le (List.takeWhile_prefix belongs) (List.prefix_append text more)
      all.le) all

theorem all_of_takeWhile_length {belongs : UInt8 → Bool}
    (all : ((text ++ more).takeWhile belongs).length = text.length) :
    ∀ b ∈ text, belongs b = true := by
  intro b member
  rw [← takeWhile_eq_of_length all] at member
  exact List.mem_takeWhile_imp member

/-- A run that takes up a text is the same before a blank byte. -/
theorem takeWhile_alone {belongs : UInt8 → Bool}
    (all : ((text ++ more).takeWhile belongs).length = text.length)
    (stops : ∀ b, isBlank b = true → belongs b = false) (blank : BlankAhead behind) :
    (text ++ behind).takeWhile belongs = (text ++ more).takeWhile belongs := by
  rw [takeWhile_eq_of_length all]
  exact takeWhile_append_blank (all_of_takeWhile_length all) stops blank

theorem word_alone (size : (word (text ++ more)).size = text.length) (blank : BlankAhead behind) :
    word (text ++ behind) = word (text ++ more) := by
  unfold word
  rw [takeWhile_alone size isWordByte_of_isBlank blank]

/-- A blank byte is no mark of a radix. -/
theorem markedRadix?_alone (nonempty : text ≠ [])
    (unmarked : markedRadix? (text ++ more) = none) (blank : BlankAhead behind) :
    markedRadix? (text ++ behind) = none := by
  match text, behind with
  | [], _ => exact absurd rfl nonempty
  | [b], [] => rfl
  | [b], c :: rest =>
    have noMark : radixOfMark? c = none := by
      rcases eq_of_isBlank (blank c rfl) with rfl | rfl | rfl | rfl <;> decide
    simp [markedRadix?, noMark]
  | b :: c :: rest, _ => exact unmarked

theorem number_unmarked_alone (nonempty : text ≠ [])
    (unmarked : markedRadix? (text ++ more) = none)
    (size : (number (text ++ more)).size = text.length) (blank : BlankAhead behind) :
    number (text ++ behind) = number (text ++ more) := by
  unfold number at size ⊢
  rw [unmarked] at size
  rw [unmarked, markedRadix?_alone nonempty unmarked blank]
  dsimp only at size ⊢
  by_cases pointed : ((text ++ more).drop
      ((text ++ more).takeWhile isDigitOrSeparator).length).head? = some dot
  · rw [if_pos pointed] at size
    dsimp only at size
    have within : ((text ++ more).takeWhile isDigitOrSeparator).length < text.length := by omega
    rw [takeWhile_stable within behind]
    generalize (text ++ more).takeWhile isDigitOrSeparator = whole at *
    have after (further : List UInt8) : (text ++ further).drop whole.length =
        text.drop whole.length ++ further := List.drop_append_of_le_length within.le
    obtain ⟨b, rest, split⟩ : ∃ b rest, text.drop whole.length = b :: rest :=
      List.exists_cons_of_ne_nil (List.drop_eq_nil_iff.not.mpr (by omega))
    have sizes : text.length = whole.length + 1 + rest.length := by
      have length := congrArg List.length split
      rw [List.length_drop, List.length_cons] at length
      omega
    simp only [after, split, List.cons_append, List.head?_cons, List.drop_succ_cons,
      List.drop_zero] at pointed size ⊢
    have fraction : ((rest ++ more).takeWhile isDigitOrSeparator).length = rest.length := by omega
    rw [if_pos pointed, if_pos pointed,
      takeWhile_alone fraction isDigitOrSeparator_of_isBlank blank]
  · rw [if_neg pointed] at size
    have all : ((text ++ more).takeWhile isDigitOrSeparator).length = text.length := size
    have noPoint : behind.head? ≠ some dot := by
      intro point
      exact absurd (blank dot point) (by decide)
    rw [takeWhile_alone all isDigitOrSeparator_of_isBlank blank, if_neg pointed, if_neg]
    rwa [all, List.drop_left]

theorem number_alone (nonempty : text ≠ [])
    (size : (number (text ++ more)).size = text.length) (blank : BlankAhead behind) :
    number (text ++ behind) = number (text ++ more) := by
  cases marked : markedRadix? (text ++ more) with
  | none => exact number_unmarked_alone nonempty marked size blank
  | some radix =>
    have long : 2 ≤ text.length := by
      rw [number, marked] at size
      dsimp only at size
      omega
    match text with
    | [] | [_] =>
      simp only [List.length_cons, List.length_nil] at long
      omega
    | b :: mark :: rest =>
      have same : markedRadix? (b :: mark :: rest ++ behind) = some radix := marked
      unfold number at size ⊢
      rw [marked] at size
      rw [marked, same]
      simp only [List.cons_append, List.drop_succ_cons, List.drop_zero, List.length_cons]
        at size ⊢
      have run : ((rest ++ more).takeWhile isWordByte).length = rest.length := by omega
      rw [takeWhile_alone run isWordByte_of_isBlank blank]

/-! ### Quoted literals -/

/-- A string without a fault is closed, and so it is decided by its own bytes. -/
theorem stringLiteral_alone {b : UInt8} {rest more : List UInt8}
    (clean : (stringLiteral (b :: rest ++ more)).fault? = none)
    (size : (stringLiteral (b :: rest ++ more)).size = (b :: rest).length)
    (other : List UInt8) :
    stringLiteral (b :: rest ++ other) = stringLiteral (b :: rest ++ more) := by
  rw [stringLiteral_size, List.cons_append, List.drop_succ_cons, List.drop_zero,
    List.length_cons] at size
  unfold stringLiteral at clean ⊢
  simp only [List.cons_append, List.drop_succ_cons, List.drop_zero] at clean ⊢
  have closed : (stringBody (rest ++ more)).closed = true := by
    by_contra opened
    rw [if_pos (by simp [opened])] at clean
    exact absurd clean nofun
  have within : (stringBody (rest ++ more)).size <
      rest.length + (stringBody (rest ++ more)).closed.toNat := by
    rw [closed, Bool.toNat_true]
    omega
  rw [stringBody_stable within other]

/-- A character literal without a fault is a byte or an escape between quotes. -/
theorem charLiteral_cases {bytes : List UInt8} (clean : (charLiteral bytes).fault? = none) :
    (∃ opening b rest, bytes = opening :: b :: apostrophe :: rest ∧ b ≠ apostrophe ∧
      b ≠ Source.backslash) ∨
    ∃ opening c value rest, bytes = opening :: Source.backslash :: c :: apostrophe :: rest ∧
      Source.unescape? c = some value := by
  have faulty {fault : Fault} {size : Nat} : (Scanned.fault fault size).fault? ≠ none := nofun
  unfold charLiteral at clean
  match bytes with
  | [] | [_] => exact absurd clean faulty
  | opening :: b :: rest =>
    simp only [List.drop_succ_cons, List.drop_zero] at clean
    by_cases filled : b = apostrophe
    · rw [if_pos filled] at clean
      exact absurd clean faulty
    rw [if_neg filled] at clean
    by_cases plain : b = Source.backslash
    · subst plain
      rw [if_pos rfl] at clean
      match rest with
      | [] => exact absurd clean faulty
      | c :: behind =>
        dsimp only at clean
        split at clean
        · rename_i closes
          obtain ⟨rest, rfl⟩ := List.head?_eq_some_iff.mp (of_decide_eq_true closes)
          cases known : Source.unescape? c with
          | none =>
            rw [known] at clean
            exact absurd clean faulty
          | some value => exact Or.inr ⟨opening, c, value, rest, rfl, known⟩
        · exact absurd clean faulty
    · rw [if_neg plain] at clean
      split at clean
      · rename_i closes
        obtain ⟨rest, rfl⟩ := List.head?_eq_some_iff.mp (of_decide_eq_true closes)
        exact Or.inl ⟨opening, b, rest, rfl, filled, plain⟩
      · exact absurd clean faulty

/-- A character literal without a fault is decided by its own bytes too. -/
theorem charLiteral_alone (clean : (charLiteral (text ++ more)).fault? = none)
    (size : (charLiteral (text ++ more)).size = text.length) (other : List UInt8) :
    charLiteral (text ++ other) = charLiteral (text ++ more) := by
  have own : text = (text ++ more).take text.length := List.take_left.symm
  rcases charLiteral_cases clean with ⟨opening, b, rest, whole, filled, plain⟩ |
    ⟨opening, c, value, rest, whole, known⟩
  · rw [whole, charLiteral_plain filled plain] at size
    rw [whole, ← size] at own
    rw [whole, own, charLiteral_plain filled plain]
    exact charLiteral_plain filled plain other
  · rw [whole, charLiteral_escape known] at size
    rw [whole, ← size] at own
    rw [whole, own, charLiteral_escape known]
    exact charLiteral_escape known other

/-! ### Symbols -/

theorem symbol_alone (clean : (symbol (text ++ more)).fault? = none)
    (size : (symbol (text ++ more)).size = text.length) (blank : BlankAhead behind) :
    symbol (text ++ behind) = symbol (text ++ more) := by
  unfold symbol at clean size
  cases matched : matchSymbol? (text ++ more) with
  | none =>
    rw [matched] at clean
    exact absurd clean nofun
  | some found =>
    rw [matched] at size
    obtain ⟨longest, length⟩ := matchSymbol?_eq_some_iff.mp matched
    have same : (Text.utf8 found.1.text).length = text.length := length.symm.trans size
    have spelled : Text.utf8 found.1.text = text :=
      (List.prefix_of_prefix_length_le longest.spelled (List.prefix_append text more)
        same.le).eq_of_length same
    have alone := longest_append_blank longest.member blank
    rw [spelled] at alone
    rw [alone.symbol_eq, longest.symbol_eq]

/-! ### Any token -/

theorem isDigit_of_beginsWithDigit {b : UInt8} {rest : List UInt8}
    (digit : beginsWithDigit 10 (b :: rest) = true) : isDigit b = true := by
  obtain ⟨value, read⟩ := Option.isSome_iff_exists.mp digit
  obtain ⟨read, small⟩ := Option.filter_eq_some_iff.mp read
  have small : value < 10 := of_decide_eq_true small
  unfold digitValue? at read
  split at read
  · assumption
  · repeat' split at read
    all_goals cases read
    all_goals omega

/-- A number that begins with its point has a digit too. -/
theorem number_point_size {bytes : List UInt8} (digit : beginsWithDigit 10 bytes = true) :
    1 < (number (dot :: bytes)).size := by
  match bytes with
  | [] => exact absurd digit (by decide)
  | b :: rest =>
    have taken : isDigitOrSeparator b = true := by
      rw [isDigitOrSeparator, isDigit_of_beginsWithDigit digit, Bool.true_or]
    have unmarked : markedRadix? (dot :: b :: rest) = none := rfl
    have whole : (dot :: b :: rest).takeWhile isDigitOrSeparator = [] := rfl
    simp [number, unmarked, whole, taken]

/-- Whether a point begins a number is decided inside the token, for a point before a blank
byte begins none. -/
theorem beginsWithDigit_alone {rest : List UInt8}
    (long : beginsWithDigit 10 (rest ++ more) = true → rest ≠ []) (blank : BlankAhead behind) :
    beginsWithDigit 10 (rest ++ behind) = beginsWithDigit 10 (rest ++ more) := by
  match rest, behind with
  | [], [] => exact (Bool.eq_false_iff.mpr fun digit => long digit rfl).symm
  | [], c :: rest =>
    have noDigit : beginsWithDigit 10 (c :: rest) = false := by
      rcases eq_of_isBlank (blank c rfl) with rfl | rfl | rfl | rfl <;> rfl
    exact noDigit.trans (Bool.eq_false_iff.mpr fun digit => long digit rfl).symm
  | b :: _, _ => rfl

/-- What was read without a fault is read as the same before a blank byte. -/
theorem front_alone (nonempty : text ≠ [])
    (good : (front (text ++ more)).fault? = none ∧ (front (text ++ more)).size = text.length)
    (blank : BlankAhead behind) : front (text ++ behind) = front (text ++ more) := by
  obtain ⟨b, rest, rfl⟩ := List.exists_cons_of_ne_nil nonempty
  rw [front_cons_append] at good
  rw [front_cons_append, front_cons_append]
  refine choice_same (fun found => found.fault? = none ∧ found.size = _)
    (fun word => word_alone word.2 blank) (fun noWord => ?_) good
  have sameChoice : (isDigit b || (b = dot && beginsWithDigit 10 (rest ++ behind))) =
      (isDigit b || (b = dot && beginsWithDigit 10 (rest ++ more))) := by
    by_cases point : b = dot
    · subst point
      rw [beginsWithDigit_alone _ blank]
      rintro digit rfl
      rw [if_pos (by simpa using Or.inr digit)] at noWord
      exact absurd noWord.2 (number_point_size digit).ne'
    · simp [point]
  rw [sameChoice]
  refine choice_same (fun found => found.fault? = none ∧ found.size = _)
    (fun number => number_alone nonempty number.2 blank) (fun noNumber => ?_) noWord
  refine choice_same (fun found => found.fault? = none ∧ found.size = _)
    (fun char => charLiteral_alone char.1 char.2 behind) (fun noChar => ?_) noNumber
  exact choice_same (fun found => found.fault? = none ∧ found.size = _)
    (fun string => stringLiteral_alone string.1 string.2 behind)
    (fun symbol => symbol_alone symbol.1 symbol.2 blank) noChar

/-- Where no element begins, a shorter text begins none either. -/
theorem elementSize_left (sharp : elementSize (text ++ more) = 0) : elementSize text = 0 := by
  match text, more with
  | [], _ => rfl
  | [b], [] => exact sharp
  | [b], c :: rest =>
    have visible := ((elementSize_cons_cons_eq_zero_iff b c rest).mp sharp).1
    simp [elementSize, visible]
  | b :: c :: rest, more =>
    rw [elementSize_cons_cons_eq_zero_iff]
    exact (elementSize_cons_cons_eq_zero_iff b c (rest ++ more)).mp sharp

/-- A token that was read without a fault stands alone. -/
theorem alone_front {bytes : List UInt8} (nonempty : bytes ≠ []) (sharp : elementSize bytes = 0)
    (clean : (front bytes).fault? = none) :
    Alone (bytes.take (front bytes).size) (front bytes) := by
  have length : (bytes.take (front bytes).size).length = (front bytes).size := by
    rw [List.length_take, Nat.min_eq_left (front_size_le bytes)]
  have whole : bytes.take (front bytes).size ++ bytes.drop (front bytes).size = bytes :=
    List.take_append_drop _ bytes
  have taken : bytes.take (front bytes).size ≠ [] := by
    rw [← List.length_pos_iff, length]
    exact front_size_pos nonempty
  refine ⟨taken, elementSize_left (whole.symm ▸ sharp), length.symm, fun behind blank => ?_⟩
  have alone := front_alone taken (by rw [whole]; exact ⟨clean, length.symm⟩) blank
  rwa [whole] at alone

end Scan

/-! ### Sources without errors -/

/-- The bytes of the tokens of a source, without the end of the source. -/
def Tokens.texts (result : Tokens) (source : List UInt8) : List (List UInt8) :=
  (result.tokens.filter fun token => !token.isEof).map fun token => token.stretch.text source

theorem texts_tokenize {source : List UInt8} {mode : PositionMode} {before : List Lexeme}
    {last : Lexeme} (split : lexemes source = before ++ [last]) :
    (tokenize source mode).texts source =
      before.map fun lexeme => lexeme.stretch.text source := by
  obtain ⟨tokens, eof, tokensSplit, inner, isEof, -, -⟩ := ends_tokenize source mode
  have kept : (tokenize source mode).tokens.filter (fun token => !token.isEof) = tokens := by
    rw [tokensSplit, List.filter_append, List.filter_eq_self.mpr (by simpa using inner)]
    simp [isEof]
  have stretches := stretches_tokenize source mode
  rw [tokensSplit, split, List.map_append, List.map_append] at stretches
  have same : tokens.map Token.stretch = before.map Lexeme.stretch :=
    List.append_inj_left' stretches rfl
  have texts := congrArg (List.map fun stretch => stretch.text source) same
  rw [List.map_map, List.map_map] at texts
  rw [Tokens.texts, kept]
  exact texts

/-- The bytes of a lexeme, read from where it lies. -/
theorem Lexeme.text_stretch (lexeme : Lexeme) (source : List UInt8) :
    lexeme.stretch.text source = (source.drop lexeme.offset).take lexeme.found.size := by
  have size : lexeme.stop - lexeme.offset = lexeme.found.size := Nat.add_sub_cancel_left _ _
  rw [Stretch.text, stretch, List.drop_take, size]

/-- The tokens of a source without errors stand alone. -/
theorem alone_texts_tokenize {source : List UInt8} {mode : PositionMode}
    (clean : (tokenize source mode).errors = []) :
    ∃ founds, (lexemes source).map Lexeme.found = founds ++ [Scan.front []] ∧
      List.Forall₂ Scan.Alone ((tokenize source mode).texts source) founds := by
  obtain ⟨before, split, early⟩ := (tiled_lexemes source).ends
  refine ⟨before.map Lexeme.found, by rw [split, List.map_append, List.map_singleton], ?_⟩
  rw [texts_tokenize split, List.forall₂_map_left_iff, List.forall₂_map_right_iff,
    List.forall₂_same]
  intro lexeme member
  have lexed : lexeme ∈ lexemes source := split ▸ List.mem_append_left _ member
  have inside := early lexeme member
  obtain ⟨-, -, found, sharp⟩ := (tiled_lexemes source).of_mem lexed
  have legal := (errors_tokenize_eq_nil_iff source mode).mp clean _
    (List.mem_map_of_mem lexed)
  have plain := (Scan.elementSize_pos_iff _).not.mpr (sharp inside)
  have nonempty : source.drop lexeme.offset ≠ [] := List.drop_eq_nil_iff.not.mpr (by omega)
  rw [found] at legal
  rw [lexeme.text_stretch, found]
  exact Scan.alone_front nonempty (Nat.eq_zero_of_not_pos plain) legal

/-- Separators do not matter: the tokens of a source without errors, written with any
separators before and between them, are read without errors and with the same kinds and
values, however positions are counted. -/
theorem tokenize_respaced {source : List UInt8} {mode : PositionMode}
    (clean : (tokenize source mode).errors = []) {lead body : List UInt8}
    (leading : Scan.Separator lead)
    (spaced : Spaced ((tokenize source mode).texts source) body) (other : PositionMode) :
    (tokenize (lead ++ body) other).errors = [] ∧
      (tokenize (lead ++ body) other).tokens.map Token.content =
        (tokenize source mode).tokens.map Token.content := by
  obtain ⟨founds, whole, alone⟩ := alone_texts_tokenize clean
  have same : (lexemes (lead ++ body)).map Lexeme.found = (lexemes source).map Lexeme.found :=
    (found_lexemes_spaced alone leading spaced).trans whole.symm
  constructor
  · rw [errors_tokenize_eq_nil_iff, same, ← errors_tokenize_eq_nil_iff source mode]
    exact clean
  · rw [content_tokenize, content_tokenize, same]

/-- Two numbers that touch at their points, a slash and a string, taken apart: a comment that
looks as if it closed at once comes first, and one that ends with its line lies between the
numbers. -/
theorem tokenize_respaced_points :
    let source : List UInt8 := [0x31, 0x2E, 0x2E, 0x35, 0x2F, 0x22, 0x62, 0x22]
    let lead : List UInt8 := [0x2F, 0x2A, 0x2F, 0x2A, 0x2F] ++ []
    let body : List UInt8 :=
      [0x31, 0x2E] ++ (([0x20] ++ ([0x2F, 0x2F, 0x78, 0x0A] ++ [])) ++
        ([0x2E, 0x35] ++ (([0x09] ++ []) ++
          ([0x2F] ++ (([0x0A] ++ []) ++ ([0x22, 0x62, 0x22] ++ ([] ++ [])))))))
    (tokenize source .columnOnly).errors = [] ∧ Scan.Separator lead ∧
      Spaced ((tokenize source .columnOnly).texts source) body ∧
      (tokenize (lead ++ body) .lineColumn).errors = [] ∧
      (tokenize (lead ++ body) .lineColumn).tokens.map Token.content =
        (tokenize source .columnOnly).tokens.map Token.content := by
  intro source lead body
  have clean : (tokenize source .columnOnly).errors = [] := by decide +kernel
  have leading : Scan.Separator lead :=
    .cons (fun behind => @Scan.Element.block [0x2F] behind (by decide)) .nil
  have remark : Scan.Separator ([0x20] ++ ([0x2F, 0x2F, 0x78, 0x0A] ++ [])) :=
    .cons (fun behind => .blank behind (by decide))
      (.cons (fun behind => @Scan.Element.line [0x78] behind (by decide)) .nil)
  have tab : Scan.Separator ([0x09] ++ []) := .cons (fun behind => .blank behind (by decide)) .nil
  have feed : Scan.Separator ([0x0A] ++ []) := .cons (fun behind => .blank behind (by decide)) .nil
  have texts : (tokenize source .columnOnly).texts source =
      [[0x31, 0x2E], [0x2E, 0x35], [0x2F], [0x22, 0x62, 0x22]] := by decide +kernel
  have spaced : Spaced ((tokenize source .columnOnly).texts source) body := by
    rw [texts]
    refine .cons remark (by decide) (by decide) (.cons tab (by decide) (by decide) ?_)
    exact .cons feed (by decide) (by decide) (.cons .nil (by decide) (by decide) .nil)
  obtain ⟨errors, content⟩ := tokenize_respaced clean leading spaced .lineColumn
  exact ⟨clean, leading, spaced, errors, content⟩

end Lexis
