/-
This file proves that tokens can be written apart. A text stands alone if it is read as the
same token wherever nothing or a blank byte follows it. Texts that stand alone, written one
behind the other with separators between them, are read as just these tokens, whatever the
separators are. What has to be shown of a token is then no more than that its text stands
alone, and nothing is said of the text around it.
-/

import Mathlib.Data.List.Forall2
import Lexis.Proofs.Tiling

namespace Lexis

namespace Scan

/-! ### Separators -/

/-- Trivia that come to an end by themselves. Each element is one whatever stands behind
it, so none is a comment that only the end of the source closes. -/
inductive Separator : List UInt8 → Prop
  | nil : Separator []
  | cons {element more : List UInt8} (closed : ∀ behind, Element element behind)
      (rest : Separator more) : Separator (element ++ more)

/-- Nothing follows, or a blank byte does. -/
def BlankAhead (behind : List UInt8) : Prop := ∀ b ∈ behind.head?, isBlank b = true

theorem blankAhead_nil : BlankAhead [] := nofun

theorem blankAhead_cons_iff (b : UInt8) (rest : List UInt8) :
    BlankAhead (b :: rest) ↔ isBlank b = true :=
  ⟨fun blank => blank b rfl, by rintro blank c ⟨⟩; exact blank⟩

instance : (behind : List UInt8) → Decidable (BlankAhead behind)
  | [] => isTrue blankAhead_nil
  | b :: rest => decidable_of_iff' _ (blankAhead_cons_iff b rest)

theorem BlankAhead.append {gap : List UInt8} (blank : BlankAhead gap) (nonempty : gap ≠ [])
    (more : List UInt8) : BlankAhead (gap ++ more) := by
  rwa [BlankAhead, List.head?_append_of_ne_nil gap nonempty]

/-- A separator is measured to its end. -/
theorem triviaSize_separator {text behind : List UInt8} (separator : Separator text)
    (sharp : elementSize behind = 0) : triviaSize (text ++ behind) = text.length := by
  induction separator with
  | nil => rw [List.nil_append, triviaSize, if_neg (by omega), List.length_nil]
  | @cons element more closed rest inductionHypothesis =>
    have positive : 0 < element.length := List.length_pos_iff.mpr (closed []).ne_nil
    rw [List.append_assoc, triviaSize, elementSize_of_element (closed _), if_pos positive,
      List.drop_left, inductionHypothesis, List.length_append]

/-! ### Runs and symbols before a blank byte -/

/-- A run ends before a blank byte if no blank byte belongs to its class. -/
theorem takeWhile_append_blank {belongs : UInt8 → Bool} {text behind : List UInt8}
    (all : ∀ b ∈ text, belongs b = true) (stops : ∀ b, isBlank b = true → belongs b = false)
    (blank : BlankAhead behind) : (text ++ behind).takeWhile belongs = text := by
  rw [List.takeWhile_append_of_pos all]
  cases behind with
  | nil => rw [List.takeWhile_nil, List.append_nil]
  | cons b rest =>
    have outside := stops b (blank b rfl)
    rw [List.takeWhile_cons_of_neg (by simp [outside]), List.append_nil]

theorem eq_of_isBlank {b : UInt8} (blank : isBlank b = true) :
    b = 0x20 ∨ b = 0x09 ∨ b = 0x0A ∨ b = 0x0D := by
  simpa [isBlank, or_assoc] using blank

theorem isWordByte_of_isBlank (b : UInt8) (blank : isBlank b = true) : isWordByte b = false := by
  rcases eq_of_isBlank blank with rfl | rfl | rfl | rfl <;> decide

theorem isDigitOrSeparator_of_isBlank (b : UInt8) (blank : isBlank b = true) :
    isDigitOrSeparator b = false := by
  have outside := isWordByte_of_isBlank b blank
  simp only [isWordByte, isWordStart, isDigitOrSeparator, Bool.or_eq_false_iff] at outside ⊢
  exact ⟨outside.2, outside.1.2⟩

/-- No symbol has a blank byte in it. -/
theorem not_mem_utf8_symbol_of_isBlank {kind : Kind} (member : kind ∈ Kind.symbols) {b : UInt8}
    (blank : isBlank b = true) : b ∉ Text.utf8 kind.text := by
  have every : ∀ k ∈ Kind.symbols, (Text.utf8 k.text).any isBlank = false := by decide +kernel
  intro inside
  exact List.any_eq_false.mp (every kind member) b inside blank

/-- A symbol before a blank byte is the longest there, for a longer one had this byte in it. -/
theorem longest_append_blank {kind : Kind} (member : kind ∈ Kind.symbols) {behind : List UInt8}
    (blank : BlankAhead behind) : Longest kind (Text.utf8 kind.text ++ behind) := by
  refine ⟨member, List.prefix_append _ _, fun other symbol begins => ?_⟩
  by_contra longer
  have inside := Nat.lt_of_not_le longer
  have next := begins.getElem inside
  rw [List.getElem_append_right (Nat.le_refl _)] at next
  cases behind with
  | nil => exact longer (List.append_nil (Text.utf8 kind.text) ▸ begins.length_le)
  | cons b rest =>
    refine not_mem_utf8_symbol_of_isBlank symbol (blank b rfl) ?_
    simp only [Nat.sub_self, List.getElem_cons_zero] at next
    exact next ▸ List.getElem_mem inside

/-! ### Texts that stand alone -/

/-- A text that is read as one token, all of it and nothing else, wherever it is followed
by a blank byte or by nothing. -/
structure Alone (text : List UInt8) (found : Scanned) : Prop where
  nonempty : text ≠ []
  sharp : elementSize text = 0
  size : found.size = text.length
  reads : ∀ behind, BlankAhead behind → front (text ++ behind) = found

/-- That no element begins is decided by the first two bytes. -/
theorem elementSize_cons_cons_eq_zero_iff (b c : UInt8) (rest : List UInt8) :
    elementSize (b :: c :: rest) = 0 ↔
      isBlank b = false ∧ ¬ (b = slash ∧ (c = slash ∨ c = star)) := by
  by_cases blank : isBlank b = true
  · simp [elementSize, blank]
  · by_cases opening : b = slash
    · subst opening
      by_cases line : c = slash
      · subst line
        simp [elementSize_line]
      · by_cases block : c = star
        · subst block
          simp [elementSize_block]
        · simp [elementSize, blank, line, block]
    · simp [elementSize, blank, opening]

/-- A blank byte behind a text does not make trivia of it; a lone slash stays an operator. -/
theorem elementSize_append_blank {text behind : List UInt8} (nonempty : text ≠ [])
    (sharp : elementSize text = 0) (blank : BlankAhead behind) :
    elementSize (text ++ behind) = 0 := by
  match text, behind with
  | [], _ => exact absurd rfl nonempty
  | [b], [] => exact sharp
  | [b], c :: rest =>
    have next := blank c rfl
    refine (elementSize_cons_cons_eq_zero_iff b c rest).mpr ⟨?_, ?_⟩
    · cases shown : isBlank b with
      | false => rfl
      | true => simp [elementSize, shown] at sharp
    · rintro ⟨-, rfl | rfl⟩ <;> exact absurd next (by decide)
  | b :: c :: rest, behind =>
    rw [List.cons_append, List.cons_append, elementSize_cons_cons_eq_zero_iff]
    rwa [elementSize_cons_cons_eq_zero_iff] at sharp

end Scan

/-! ### Texts written apart -/

/-- Texts one behind the other, each followed by a separator that keeps it apart from the
next: it begins with a blank byte, and only behind the last text it may be empty. -/
inductive Spaced : List (List UInt8) → List UInt8 → Prop
  | nil : Spaced [] []
  | cons {text gap more : List UInt8} {texts : List (List UInt8)}
      (separator : Scan.Separator gap) (blank : Scan.BlankAhead gap)
      (apart : texts ≠ [] → gap ≠ []) (rest : Spaced texts more) :
      Spaced (text :: texts) (text ++ (gap ++ more))

/-- Texts that stand alone are found as they were written. -/
theorem found_lexemes_spaced {texts : List (List UInt8)} {founds : List Scan.Scanned}
    (alone : List.Forall₂ Scan.Alone texts founds) {lead body : List UInt8}
    (leading : Scan.Separator lead) (spaced : Spaced texts body) :
    (lexemes (lead ++ body)).map Lexeme.found = founds ++ [Scan.front []] := by
  induction spaced generalizing lead founds with
  | nil =>
    cases alone
    have size : Scan.triviaSize (lead ++ []) = lead.length :=
      Scan.triviaSize_separator leading rfl
    rw [lexemes_of_ended (by rw [size, List.append_nil]), List.map_singleton, Lexeme.first, size,
      List.drop_left]
    rfl
  | @cons text gap more texts separator blank apart rest inductionHypothesis =>
    obtain _ | @⟨_, found, _, founds, here, later⟩ := alone
    have ahead : Scan.BlankAhead (gap ++ more) := by
      by_cases last : texts = []
      · subst last
        cases rest
        rwa [List.append_nil]
      · exact blank.append (apart last) more
    have sharp := Scan.elementSize_append_blank here.nonempty here.sharp ahead
    have size := Scan.triviaSize_separator leading sharp
    have found : (Lexeme.first (lead ++ (text ++ (gap ++ more)))).found = found := by
      rw [Lexeme.first, size, List.drop_left]
      exact here.reads _ ahead
    have stop : (Lexeme.first (lead ++ (text ++ (gap ++ more)))).stop =
        lead.length + text.length := by
      rw [Lexeme.stop, found, here.size, Lexeme.first, size]
    have positive := List.length_pos_iff.mpr here.nonempty
    have left : Scan.triviaSize (lead ++ (text ++ (gap ++ more))) <
        (lead ++ (text ++ (gap ++ more))).length := by
      simp only [size, List.length_append]
      omega
    rw [lexemes_of_more left, List.map_cons, found, List.map_map, stop, ← List.drop_drop,
      List.drop_left, List.drop_left, List.cons_append]
    exact congrArg (List.cons _) (inductionHypothesis later separator)

/-! ### Kinds and values of a source -/

/-- A token without its place. -/
def Token.content (token : Token) : Kind × Value := (token.kind, token.value)

def Scan.Scanned.content (found : Scanned) : Kind × Value := (found.kind, found.value)

theorem content_tokenize (source : List UInt8) (mode : PositionMode) :
    (tokenize source mode).tokens.map Token.content =
      ((lexemes source).map Lexeme.found).map Scan.Scanned.content := by
  rw [tokens_tokenize, List.map_map, List.map_map]
  rfl

/-- A source has no errors just if nothing that was found in it has a fault. -/
theorem errors_tokenize_eq_nil_iff (source : List UInt8) (mode : PositionMode) :
    (tokenize source mode).errors = [] ↔
      ∀ found ∈ (lexemes source).map Lexeme.found, found.fault? = none := by
  simp [errors_tokenize, Lexeme.error?]

end Lexis
