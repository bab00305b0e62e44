/-
This file bounds how far the lexer looks ahead: no byte further than two behind the end of
a token has a part in it, or in any token before it. Every scanner is compared with itself
on two texts that begin alike. It reads the same in both as soon as what it read in one of
them ends well inside the common beginning; only a point, which may begin an ellipsis,
needs the second byte behind its end.

A literal or a comment that is never closed does read to the end of the source. Then its
own end is the end of the source, which lies behind the common beginning.
-/

import Lexis.Proofs.Reports

namespace Lexis

namespace Scan

variable {text more : List UInt8}

/-- A choice that the common beginning decides is the same choice in both texts, so only
what is chosen must be compared, and only where it is good. -/
theorem choice_same {Found : Type} (Good : Found → Prop) {condition : Prop}
    [Decidable condition] {first second otherFirst otherSecond : Found}
    (yes : Good first → otherFirst = first) (no : Good second → otherSecond = second)
    (good : Good (if condition then first else second)) :
    (if condition then otherFirst else otherSecond) = if condition then first else second := by
  by_cases holds : condition
  · rw [if_pos holds] at good
    rw [if_pos holds, if_pos holds, yes good]
  · rw [if_neg holds] at good
    rw [if_neg holds, if_neg holds, no good]

/-! ### Runs -/

/-- A run that ends inside the common beginning is the same run. -/
theorem takeWhile_stable {belongs : UInt8 → Bool}
    (within : ((text ++ more).takeWhile belongs).length < text.length) (other : List UInt8) :
    (text ++ other).takeWhile belongs = (text ++ more).takeWhile belongs := by
  rw [List.takeWhile_append] at within
  have ends : (text.takeWhile belongs).length ≠ text.length := by
    intro all
    rw [if_pos all, List.length_append] at within
    omega
  rw [List.takeWhile_append, List.takeWhile_append, if_neg ends, if_neg ends]

theorem runLength_stable {belongs : UInt8 → Bool}
    (within : runLength belongs (text ++ more) < text.length) (other : List UInt8) :
    runLength belongs (text ++ other) = runLength belongs (text ++ more) :=
  congrArg List.length (takeWhile_stable within other)

/-! ### Trivia -/

theorem lineRestSize_stable (within : lineRestSize (text ++ more) < text.length)
    (other : List UInt8) : lineRestSize (text ++ other) = lineRestSize (text ++ more) := by
  unfold lineRestSize at within ⊢
  rw [List.length_append] at within
  have run : runLength (· ≠ lineFeed) (text ++ more) < text.length := by omega
  rw [runLength_stable run other, List.length_append, List.length_append]
  omega

theorem blockRestSize_stable (within : blockRestSize (text ++ more) < text.length)
    (other : List UInt8) : blockRestSize (text ++ other) = blockRestSize (text ++ more) := by
  induction text with
  | nil => exact absurd within (Nat.not_lt_zero _)
  | cons b rest inductionHypothesis =>
    cases rest with
    | nil =>
      simp only [List.cons_append, blockRestSize, List.length_cons, List.length_nil] at within
      split at within <;> omega
    | cons c behind =>
      by_cases closing : b = star ∧ c = slash
      · obtain ⟨rfl, rfl⟩ := closing
        simp [blockRestSize]
      · have goesOn (further : List UInt8) : blockRestSize (b :: c :: behind ++ further) =
            1 + blockRestSize (c :: behind ++ further) :=
          blockRestSize_cons (by simpa using closing)
        rw [goesOn, List.length_cons] at within
        rw [goesOn, goesOn, inductionHypothesis (by omega)]

theorem elementSize_stable (within : elementSize (text ++ more) + 2 ≤ text.length)
    (other : List UInt8) : elementSize (text ++ other) = elementSize (text ++ more) := by
  match text with
  | [] | [_] =>
    simp only [List.length_cons, List.length_nil] at within
    omega
  | b :: c :: body =>
    simp only [List.cons_append, elementSize, List.length_cons] at within ⊢
    refine choice_same (· + 2 ≤ _) (fun _ => rfl) (fun notBlank => ?_) within
    refine choice_same (· + 2 ≤ _) (fun opening => ?_) (fun _ => rfl) notBlank
    refine choice_same (· + 2 ≤ _) (fun line => ?_) (fun notLine => ?_) opening
    · have inside : lineRestSize (body ++ more) < body.length := by
        omega
      rw [lineRestSize_stable inside other]
    · refine choice_same (· + 2 ≤ _) (fun block => ?_) (fun _ => rfl) notLine
      have inside : blockRestSize (body ++ more) < body.length := by
        omega
      rw [blockRestSize_stable inside other]

theorem triviaSize_stable (within : triviaSize (text ++ more) + 2 ≤ text.length)
    (other : List UInt8) : triviaSize (text ++ other) = triviaSize (text ++ more) := by
  generalize whole : text ++ more = bytes at within ⊢
  fun_induction triviaSize bytes generalizing text with
  | case1 bytes size positive =>
    rename_i inductionHypothesis
    have inside : elementSize (text ++ more) + 2 ≤ text.length := by
      rw [whole]
      omega
    have same : elementSize (text ++ other) = size := by
      rw [elementSize_stable inside, whole]
    have behind (further : List UInt8) : (text ++ further).drop size =
        text.drop size ++ further := List.drop_append_of_le_length (by omega)
    have later := inductionHypothesis (whole ▸ (behind more).symm)
      (by rw [List.length_drop]; omega)
    rw [triviaSize, same, if_pos positive, behind, later]
  | case2 bytes size =>
    rename_i none
    have inside : elementSize (text ++ more) + 2 ≤ text.length := by
      rw [whole]
      omega
    have same : elementSize (text ++ other) = size := by
      rw [elementSize_stable inside, whole]
    rw [triviaSize, same, if_neg none]

/-! ### Words and numbers -/

theorem word_stable (within : (word (text ++ more)).size < text.length) (other : List UInt8) :
    word (text ++ other) = word (text ++ more) := by
  unfold word
  rw [takeWhile_stable within other]

/-- The two runs of digits of a number with a point. -/
theorem number_unmarked_stable {text more : List UInt8} (other : List UInt8)
    (unmarked : ∀ further, markedRadix? (text ++ further) = none)
    (within : (number (text ++ more)).size < text.length) :
    number (text ++ other) = number (text ++ more) := by
  unfold number at within ⊢
  rw [unmarked] at within
  rw [unmarked, unmarked]
  dsimp only at within ⊢
  have whole : ((text ++ more).takeWhile isDigitOrSeparator).length < text.length := by
    split at within
    · dsimp only at within
      omega
    · exact within
  rw [takeWhile_stable whole other]
  generalize (text ++ more).takeWhile isDigitOrSeparator = run at within whole ⊢
  have behind (further : List UInt8) : (text ++ further).drop run.length =
      text.drop run.length ++ further := List.drop_append_of_le_length whole.le
  obtain ⟨b, rest, split⟩ : ∃ b rest, text.drop run.length = b :: rest :=
    List.exists_cons_of_ne_nil (List.drop_eq_nil_iff.not.mpr (by omega))
  have sizes : text.length = run.length + 1 + rest.length := by
    have length := congrArg List.length split
    rw [List.length_drop, List.length_cons] at length
    omega
  simp only [behind, split, List.cons_append, List.head?_cons, List.drop_succ_cons,
    List.drop_zero] at within ⊢
  split
  · rename_i point
    rw [if_pos point] at within
    have fraction : ((rest ++ more).takeWhile isDigitOrSeparator).length < rest.length := by
      dsimp only at within
      omega
    rw [takeWhile_stable fraction other]
  · rfl

theorem number_stable (within : (number (text ++ more)).size < text.length)
    (long : 2 ≤ text.length) (other : List UInt8) :
    number (text ++ other) = number (text ++ more) := by
  match text with
  | [] | [_] =>
    simp only [List.length_cons, List.length_nil] at long
    omega
  | b :: mark :: rest =>
    have radix (further : List UInt8) : markedRadix? (b :: mark :: rest ++ further) =
        markedRadix? (b :: mark :: rest) := rfl
    cases marked : markedRadix? (b :: mark :: rest) with
    | none =>
      exact number_unmarked_stable other (fun further => (radix further).trans marked) within
    | some value =>
      unfold number at within ⊢
      rw [radix, marked] at within
      rw [radix, radix, marked]
      simp only [List.cons_append, List.drop_succ_cons, List.drop_zero, List.length_cons]
        at within ⊢
      have inside : ((rest ++ more).takeWhile isWordByte).length < rest.length := by omega
      rw [takeWhile_stable inside other]

/-! ### Quoted literals -/

/-- A closing quote is among the bytes that were read. -/
theorem stringBody_closed_le (bytes : List UInt8) :
    (stringBody bytes).closed.toNat ≤ (stringBody bytes).size := by
  fun_induction stringBody bytes <;> simp_all [StringBody.push, StringBody.spoil] <;> omega

/-- A string is decided by what was read of it and the byte that ended it, and that is the
next byte only if it is not the closing quote. -/
theorem stringBody_stable
    (within : (stringBody (text ++ more)).size <
      text.length + (stringBody (text ++ more)).closed.toNat)
    (other : List UInt8) : stringBody (text ++ other) = stringBody (text ++ more) := by
  fun_induction stringBody text with
  | case1 =>
    have quoted := stringBody_closed_le more
    rw [List.nil_append, List.length_nil] at within
    omega
  | case2 behind => rw [List.cons_append, List.cons_append, stringBody_quote, stringBody_quote]
  | case3 behind =>
    rw [List.cons_append, List.cons_append, stringBody_lineFeed, stringBody_lineFeed]
  | case4 =>
    -- The byte behind the backslash lies in the part that differs, but it is read.
    simp only [List.singleton_append, stringBody_backslash, List.length_singleton] at within
    cases more with
    | nil => exact absurd within (by decide)
    | cons c behind =>
      have quoted := stringBody_closed_le behind
      dsimp only at within
      split at within
      · simp only [StringBody.push] at within
        omega
      · split at within
        · exact absurd within (Nat.lt_irrefl 1)
        · simp only [StringBody.push, StringBody.spoil] at within
          omega
  | case5 c behind value known _ _ inductionHypothesis =>
    simp only [List.cons_append, stringBody_escape known, StringBody.push,
      List.length_cons] at within ⊢
    rw [inductionHypothesis (by omega)]
  | case6 behind =>
    rw [List.cons_append, List.cons_append, List.cons_append, List.cons_append,
      stringBody_escapedLineFeed, stringBody_escapedLineFeed]
  | case7 c behind unknown sameLine _ _ inductionHypothesis =>
    simp only [List.cons_append, stringBody_badEscape unknown sameLine, StringBody.push,
      StringBody.spoil, List.length_cons] at within ⊢
    rw [inductionHypothesis (by omega)]
  | case8 b behind unclosed sameLine plain inductionHypothesis =>
    simp only [List.cons_append, stringBody_plain unclosed sameLine plain, StringBody.push,
      List.length_cons] at within ⊢
    rw [inductionHypothesis (by omega)]

theorem stringLiteral_stable {b : UInt8} {rest more : List UInt8}
    (within : (stringLiteral (b :: rest ++ more)).size < (b :: rest).length)
    (other : List UInt8) :
    stringLiteral (b :: rest ++ other) = stringLiteral (b :: rest ++ more) := by
  rw [stringLiteral_size, List.cons_append, List.drop_succ_cons, List.drop_zero,
    List.length_cons] at within
  have body : (stringBody (rest ++ more)).size < rest.length := by omega
  unfold stringLiteral
  rw [List.cons_append, List.cons_append, List.drop_succ_cons, List.drop_succ_cons,
    List.drop_zero, List.drop_zero, stringBody_stable (Nat.lt_add_right _ body) other]

/-- A character literal is decided by its first four bytes. -/
theorem charLiteral_stable (within : (charLiteral (text ++ more)).size + 2 ≤ text.length)
    (other : List UInt8) : charLiteral (text ++ other) = charLiteral (text ++ more) := by
  have positive := charLiteral_size_pos (text ++ more)
  match text with
  | [] | [_] | [_, _] =>
    simp only [List.length_cons, List.length_nil] at within
    omega
  | [a, b, c] =>
    simp only [List.cons_append, List.nil_append, charLiteral, List.drop_succ_cons,
      List.drop_zero, List.length_cons, List.length_nil] at within
    repeat' split at within
    all_goals simp [Scanned.fault, Scanned.token] at within
  | a :: b :: c :: d :: rest => rfl

/-! ### Symbols -/

/-- A symbol is decided by its first three bytes, and so is that there is none. -/
theorem symbol_stable (within : (symbol (text ++ more)).size + 2 ≤ text.length)
    (other : List UInt8) : symbol (text ++ other) = symbol (text ++ more) := by
  have nonempty : text ++ more ≠ [] := by
    intro nothing
    rw [(List.append_eq_nil_iff.mp nothing).1, List.length_nil] at within
    omega
  have positive := (symbol_size nonempty).1
  have sameSymbol : matchSymbol? (text ++ other) = matchSymbol? (text ++ more) := by
    have three : 3 ≤ text.length := by omega
    rw [matchSymbol?_append three, matchSymbol?_append three]
  unfold symbol at within ⊢
  rw [sameSymbol]
  split
  · rfl
  · rename_i none
    rw [none] at within
    match text with
    | [] => simp at within
    | lead :: rest =>
      simp only [Scanned.fault, List.cons_append, straySize, List.length_cons] at within ⊢
      split
      · rfl
      · rename_i wide
        rw [if_neg wide] at within
        have run : runLength isContinuation (rest ++ more) < rest.length := by omega
        rw [runLength_stable run other]

/-! ### Any token -/

theorem front_stable (within : (front (text ++ more)).size + 2 ≤ text.length)
    (other : List UInt8) : front (text ++ other) = front (text ++ more) := by
  match text with
  | [] | [_] =>
    simp only [List.length_cons, List.length_nil] at within
    omega
  | b :: c :: rest =>
    have digitBehind (further : List UInt8) :
        beginsWithDigit 10 (c :: rest ++ further) = beginsWithDigit 10 (c :: rest) := rfl
    rw [front_cons_append, digitBehind] at within
    rw [front_cons_append, front_cons_append, digitBehind, digitBehind]
    refine choice_same (·.size + 2 ≤ _) (fun word => ?_) (fun noWord => ?_) within
    · exact word_stable (by omega) other
    refine choice_same (·.size + 2 ≤ _) (fun number => ?_) (fun noNumber => ?_) noWord
    · exact number_stable (by omega) (by simp) other
    refine choice_same (·.size + 2 ≤ _) (fun char => ?_) (fun noChar => ?_) noNumber
    · exact charLiteral_stable char other
    refine choice_same (·.size + 2 ≤ _) (fun string => ?_) (fun symbol => ?_) noChar
    · exact stringLiteral_stable (by omega) other
    · exact symbol_stable symbol other

end Scan

/-! ### Lexemes and tokens -/

theorem Lexeme.first_stable {text more : List UInt8}
    (within : (first (text ++ more)).stop + 2 ≤ text.length) (other : List UInt8) :
    first (text ++ other) = first (text ++ more) := by
  have stop : (first (text ++ more)).stop = Scan.triviaSize (text ++ more) +
      (Scan.front ((text ++ more).drop (Scan.triviaSize (text ++ more)))).size := rfl
  rw [stop] at within
  have inner : Scan.triviaSize (text ++ more) + 2 ≤ text.length := by omega
  have trivia := Scan.triviaSize_stable inner other
  unfold first
  rw [trivia]
  generalize Scan.triviaSize (text ++ more) = size at within ⊢
  have behind (further : List UInt8) : (text ++ further).drop size = text.drop size ++ further :=
    List.drop_append_of_le_length (by omega)
  rw [behind] at within ⊢
  have inside : (Scan.front (text.drop size ++ more)).size + 2 ≤ (text.drop size).length := by
    rw [List.length_drop]
    omega
  rw [behind, Scan.front_stable inside other]

/-- The lexemes of two texts are the same up to one that ends well inside the common
beginning. -/
theorem take_lexemes_stable {text more : List UInt8} {index : Nat} {lexeme : Lexeme}
    (found : (lexemes (text ++ more))[index]? = some lexeme)
    (within : lexeme.stop + 2 ≤ text.length) (other : List UInt8) :
    (lexemes (text ++ other)).take (index + 1) = (lexemes (text ++ more)).take (index + 1) := by
  induction index generalizing text lexeme with
  | zero =>
    obtain ⟨rest, split⟩ := exists_lexemes_eq_cons (text ++ more)
    obtain ⟨otherRest, otherSplit⟩ := exists_lexemes_eq_cons (text ++ other)
    rw [split] at found
    obtain rfl := Option.some_inj.mp found
    rw [split, otherSplit, Lexeme.first_stable within]
    rfl
  | succ index inductionHypothesis =>
    rcases Nat.lt_or_ge (Scan.triviaSize (text ++ more)) (text ++ more).length with left | ended
    · rw [lexemes_of_more left, List.getElem?_cons_succ, List.getElem?_map] at found
      obtain ⟨inner, later, rfl⟩ := Option.map_eq_some_iff.mp found
      rw [Lexeme.shift_stop] at within
      have early : (Lexeme.first (text ++ more)).stop + 2 ≤ text.length := by omega
      have first := Lexeme.first_stable early other
      have otherLeft : Scan.triviaSize (text ++ other) < (text ++ other).length := by
        have trivia : Scan.triviaSize (text ++ other) = Scan.triviaSize (text ++ more) :=
          congrArg Lexeme.offset first
        have inside : Scan.triviaSize (text ++ more) ≤ (Lexeme.first (text ++ more)).stop :=
          Nat.le_add_right _ _
        rw [trivia, List.length_append]
        omega
      rw [lexemes_of_more left, lexemes_of_more otherLeft, first, List.take_succ_cons,
        List.take_succ_cons, ← List.map_take, ← List.map_take]
      generalize (Lexeme.first (text ++ more)).stop = size at later within ⊢
      have behind (further : List UInt8) : (text ++ further).drop size =
          text.drop size ++ further := List.drop_append_of_le_length (by omega)
      rw [behind] at later
      rw [behind, behind, inductionHypothesis later (by rw [List.length_drop]; omega)]
    · rw [lexemes_of_ended ended] at found
      exact absurd found nofun

/-- A lexeme inside the common beginning is handed out with the same line and column. -/
theorem Lexeme.span_stable {lexeme : Lexeme} {text : List UInt8}
    (within : lexeme.offset ≤ text.length) (mode : PositionMode) (file : Nat)
    (more other : List UInt8) :
    lexeme.span (.ofSource (text ++ other)) mode file =
      lexeme.span (.ofSource (text ++ more)) mode file := by
  have before (further : List UInt8) :
      (text ++ further).take lexeme.offset = text.take lexeme.offset :=
    List.take_append_of_le_length within
  simp only [span, Reading.skip, Reading.ofSource, before]

/-- Text further than two bytes behind the end of a token has no part in it. Up to such a
token two texts that begin alike have the same tokens, with the same lines and columns,
and the same errors, one for each illegal token. -/
theorem tokenize_prefix_stable {text more : List UInt8} {mode : PositionMode} {index : Nat}
    {token : Token} (found : (tokenize (text ++ more) mode).tokens[index]? = some token)
    (within : token.span.stop + 2 ≤ text.length) (other : List UInt8) :
    (tokenize (text ++ other) mode).tokens[index]? = some token ∧
      (tokenize (text ++ other) mode).tokens.take (index + 1) =
        (tokenize (text ++ more) mode).tokens.take (index + 1) ∧
      (tokenize (text ++ other) mode).errorsUpTo (index + 1) =
        (tokenize (text ++ more) mode).errorsUpTo (index + 1) ∧
      ((tokenize (text ++ more) mode).errorsUpTo (index + 1)).map LexError.span =
        (((tokenize (text ++ more) mode).tokens.take (index + 1)).filter Token.isIllegal).map
          Token.span := by
  obtain ⟨lexeme, lexed, -, -, stop, -⟩ := exists_lexeme_of_getElem? found
  have early : lexeme.stop + 2 ≤ text.length := stop ▸ within
  have same := take_lexemes_stable lexed early other
  have spans (first : Lexeme) (member : first ∈ (lexemes (text ++ more)).take (index + 1)) :
      first.span (.ofSource (text ++ other)) mode 0 =
        first.span (.ofSource (text ++ more)) mode 0 := by
    refine first.span_stable ?_ mode 0 more other
    have stop := Lexeme.stop_le_of_mem_take lexed member
    have start : first.offset ≤ first.stop := Nat.le_add_right _ _
    omega
  have tokens : (tokenize (text ++ other) mode).tokens.take (index + 1) =
      (tokenize (text ++ more) mode).tokens.take (index + 1) := by
    rw [tokens_tokenize, tokens_tokenize, ← List.map_take, ← List.map_take, same]
    refine List.map_congr_left fun first member => ?_
    rw [Lexeme.token, spans first member]
    rfl
  refine ⟨?_, tokens, ?_, spans_errorsUpTo _ mode _⟩
  · have last := congrArg (·[index]?) tokens
    simp only [List.getElem?_take_of_lt (Nat.lt_succ_self index)] at last
    exact last.trans found
  · rw [errorsUpTo_tokenize, errorsUpTo_tokenize, same]
    refine List.filterMap_congr fun first member => ?_
    rw [Lexeme.error?, spans first member]
    rfl

/-- Behind a stray byte two points are as far as the bound lets the texts agree. The next
byte decides whether an ellipsis or a number follows, and the stray byte stays as it is. -/
theorem tokenize_prefix_stable_stray :
    let text : List UInt8 := [0x0A, 0x24, 0x2E, 0x2E]
    let token : Token := ⟨.illegal, .none, ⟨1, 2, 2, 1, 0⟩⟩
    (tokenize (text ++ [0x2E]) .lineColumn).tokens[0]? = some token ∧
      token.span.stop + 2 ≤ text.length ∧
      (tokenize (text ++ [0x35]) .lineColumn).tokens[0]? = some token ∧
      (tokenize (text ++ [0x35]) .lineColumn).errorsUpTo 1 =
        (tokenize (text ++ [0x2E]) .lineColumn).errorsUpTo 1 := by
  intro text token
  have found : (tokenize (text ++ [0x2E]) .lineColumn).tokens[0]? = some token := by
    decide +kernel
  have within : token.span.stop + 2 ≤ text.length := by decide
  obtain ⟨again, -, errors, -⟩ := tokenize_prefix_stable found within [0x35]
  exact ⟨found, within, again, errors⟩

end Lexis
