/-
This file says what may stand between tokens without measuring it, and proves that the
measure finds exactly that. An element is a piece of text together with what comes
behind it, because a comment that is never closed is an element only where the source
ends. What the measure skips is a sequence of elements, and where it stops no element
begins, of whatever size.
-/

import Mathlib.Data.List.Infix
import Lexis.Scan.Trivia

namespace Lexis.Scan

/-! ### Elements and their sequences -/

/-- A piece of text that separates tokens, in a source that goes on with the bytes behind
it: a blank byte, or a comment up to the first place that closes it. -/
inductive Element : List UInt8 → List UInt8 → Prop
  | blank {b : UInt8} (behind : List UInt8)
      (blank : b = 0x20 ∨ b = 0x09 ∨ b = 0x0A ∨ b = 0x0D) : Element [b] behind
  | line {text : List UInt8} (behind : List UInt8) (sameLine : lineFeed ∉ text) :
      Element (slash :: slash :: (text ++ [lineFeed])) behind
  | openLine {text : List UInt8} (sameLine : lineFeed ∉ text) :
      Element (slash :: slash :: text) []
  /-- The star that closes the comment may not be followed by a slash any earlier, so the
  text is looked through together with it. -/
  | block {text : List UInt8} (behind : List UInt8)
      (unclosed : ¬ [star, slash] <:+: text ++ [star]) :
      Element (slash :: star :: (text ++ [star, slash])) behind
  | openBlock {text : List UInt8} (unclosed : ¬ [star, slash] <:+: text) :
      Element (slash :: star :: text) []

/-- A sequence of elements, in a source that goes on with the bytes behind it. -/
inductive Trivia : List UInt8 → List UInt8 → Prop
  | nil (behind : List UInt8) : Trivia [] behind
  | cons {text more behind : List UInt8} (element : Element text (more ++ behind))
      (rest : Trivia more behind) : Trivia (text ++ more) behind

/-- Whether an element begins the bytes. -/
def BeginsElement (bytes : List UInt8) : Prop :=
  ∃ text behind, bytes = text ++ behind ∧ Element text behind

/-! ### The rest of a line -/

theorem runLength_line {text : List UInt8} (sameLine : lineFeed ∉ text) (behind : List UInt8) :
    runLength (· ≠ lineFeed) (text ++ behind) =
      text.length + runLength (· ≠ lineFeed) behind := by
  unfold runLength
  rw [List.takeWhile_append_of_pos, List.length_append]
  intro b member
  have different : b ≠ lineFeed := fun same => sameLine (same ▸ member)
  simpa using different

theorem lineRestSize_closed {text : List UInt8} (sameLine : lineFeed ∉ text)
    (behind : List UInt8) : lineRestSize (text ++ lineFeed :: behind) = text.length + 1 := by
  have nothing : runLength (· ≠ lineFeed) (lineFeed :: behind) = 0 := by simp [runLength]
  rw [lineRestSize, runLength_line sameLine, nothing, List.length_append, List.length_cons]
  omega

theorem lineRestSize_open {text : List UInt8} (sameLine : lineFeed ∉ text) :
    lineRestSize text = text.length := by
  have all := runLength_line sameLine []
  rw [List.append_nil] at all
  rw [lineRestSize, all]
  omega

/-- A text has a first line feed or none. -/
theorem line_cases (bytes : List UInt8) :
    lineFeed ∉ bytes ∨
      ∃ text behind, bytes = text ++ lineFeed :: behind ∧ lineFeed ∉ text := by
  by_cases member : lineFeed ∈ bytes
  · obtain ⟨text, behind, split, sameLine⟩ := List.eq_append_cons_of_mem member
    exact Or.inr ⟨text, behind, split, sameLine⟩
  · exact Or.inl member

/-! ### The rest of a block -/

/-- The two ways in which a block that is not closed at once can be closed later. -/
theorem closes_cons_iff (b : UInt8) (rest : List UInt8) :
    [star, slash] <:+: b :: rest ↔
      (b = star ∧ rest.head? = some slash) ∨ [star, slash] <:+: rest := by
  rw [List.infix_cons_iff, List.cons_prefix_cons]
  cases rest with
  | nil => simp
  | cons c behind => simp [List.cons_prefix_cons, eq_comm]

theorem blockRestSize_cons {b : UInt8} {rest : List UInt8}
    (unclosed : ¬ (b = star ∧ rest.head? = some slash)) :
    blockRestSize (b :: rest) = 1 + blockRestSize rest := by
  rw [blockRestSize, if_neg]
  simpa using unclosed

theorem blockRestSize_closed {text : List UInt8} (unclosed : ¬ [star, slash] <:+: text ++ [star])
    (behind : List UInt8) :
    blockRestSize (text ++ star :: slash :: behind) = text.length + 2 := by
  induction text with
  | nil => simp [blockRestSize]
  | cons b rest inductionHypothesis =>
    rw [List.cons_append, closes_cons_iff, not_or] at unclosed
    obtain ⟨notHere, notLater⟩ := unclosed
    have sameHead : (rest ++ star :: slash :: behind).head? = (rest ++ [star]).head? := by
      cases rest <;> rfl
    rw [List.cons_append, blockRestSize_cons (sameHead ▸ notHere),
      inductionHypothesis notLater, List.length_cons]
    omega

theorem blockRestSize_open {text : List UInt8} (unclosed : ¬ [star, slash] <:+: text) :
    blockRestSize text = text.length := by
  induction text with
  | nil => rfl
  | cons b rest inductionHypothesis =>
    rw [closes_cons_iff, not_or] at unclosed
    rw [blockRestSize_cons unclosed.1, inductionHypothesis unclosed.2, List.length_cons]
    omega

/-- A text has a first closing or none. -/
theorem block_cases (bytes : List UInt8) :
    (¬ [star, slash] <:+: bytes) ∨
      ∃ text behind, bytes = text ++ star :: slash :: behind ∧
        ¬ [star, slash] <:+: text ++ [star] := by
  induction bytes with
  | nil => exact Or.inl (by simp)
  | cons b rest inductionHypothesis =>
    by_cases here : b = star ∧ rest.head? = some slash
    · obtain ⟨rfl, next⟩ := here
      obtain ⟨behind, rfl⟩ := List.head?_eq_some_iff.mp next
      exact Or.inr ⟨[], behind, rfl, by decide⟩
    · rcases inductionHypothesis with none | ⟨text, behind, rfl, unclosed⟩
      · refine Or.inl ?_
        rw [closes_cons_iff]
        exact not_or.mpr ⟨here, none⟩
      · refine Or.inr ⟨b :: text, behind, rfl, ?_⟩
        have sameHead : (text ++ star :: slash :: behind).head? = (text ++ [star]).head? := by
          cases text <;> rfl
        rw [List.cons_append, closes_cons_iff]
        exact not_or.mpr ⟨sameHead ▸ here, unclosed⟩

/-! ### What the measure finds -/

theorem elementSize_line (body : List UInt8) :
    elementSize (slash :: slash :: body) = 2 + lineRestSize body := by
  simp [elementSize, isBlank, slash]

theorem elementSize_block (body : List UInt8) :
    elementSize (slash :: star :: body) = 2 + blockRestSize body := by
  simp [elementSize, isBlank, slash, star]

/-- An element is measured to its end, whatever stands behind it. -/
theorem elementSize_of_element {text behind : List UInt8} (element : Element text behind) :
    elementSize (text ++ behind) = text.length := by
  cases element with
  | blank _ blank =>
    rcases blank with rfl | rfl | rfl | rfl <;> simp [elementSize, isBlank]
  | line _ sameLine =>
    rw [List.cons_append, List.cons_append, List.append_assoc, elementSize_line,
      List.singleton_append, lineRestSize_closed sameLine]
    simp only [List.length_cons, List.length_append, List.length_nil]
    omega
  | openLine sameLine =>
    rw [List.append_nil, elementSize_line, lineRestSize_open sameLine]
    simp only [List.length_cons]
    omega
  | block _ unclosed =>
    rw [List.cons_append, List.cons_append, List.append_assoc, elementSize_block,
      List.cons_append, List.singleton_append, blockRestSize_closed unclosed]
    simp only [List.length_cons, List.length_append, List.length_nil]
    omega
  | openBlock unclosed =>
    rw [List.append_nil, elementSize_block, blockRestSize_open unclosed]
    simp only [List.length_cons]
    omega

theorem Element.ne_nil {text behind : List UInt8} (element : Element text behind) :
    text ≠ [] := by
  cases element <;> simp

/-- Behind a slash only another slash or a star begins an element. -/
theorem beginsElement_of_slash {rest : List UInt8} (positive : 0 < elementSize (slash :: rest)) :
    BeginsElement (slash :: rest) := by
  cases rest with
  | nil => exact absurd positive (by decide)
  | cons c body =>
    by_cases line : c = slash
    · subst line
      rcases line_cases body with sameLine | ⟨text, behind, rfl, sameLine⟩
      · exact ⟨_, [], (List.append_nil _).symm, .openLine sameLine⟩
      · exact ⟨_, behind, by simp, .line behind sameLine⟩
    · by_cases block : c = star
      · subst block
        rcases block_cases body with unclosed | ⟨text, behind, rfl, unclosed⟩
        · exact ⟨_, [], (List.append_nil _).symm, .openBlock unclosed⟩
        · exact ⟨_, behind, by simp, .block behind unclosed⟩
      · have other : isBlank slash = false := by decide
        simp [elementSize, other, line, block] at positive

/-- Bytes with a size measured begin with an element. -/
theorem beginsElement_of_size {bytes : List UInt8} (positive : 0 < elementSize bytes) :
    BeginsElement bytes := by
  cases bytes with
  | nil => exact absurd positive (by simp [elementSize])
  | cons b rest =>
    by_cases blank : isBlank b = true
    · refine ⟨[b], rest, rfl, .blank rest ?_⟩
      simpa [isBlank, or_assoc] using blank
    · by_cases opening : b = slash
      · subst opening
        exact beginsElement_of_slash positive
      · simp [elementSize, blank, opening] at positive

/-- The measure is zero just where no element begins. -/
theorem elementSize_pos_iff (bytes : List UInt8) :
    0 < elementSize bytes ↔ BeginsElement bytes := by
  refine ⟨beginsElement_of_size, ?_⟩
  rintro ⟨text, behind, rfl, element⟩
  rw [elementSize_of_element element]
  exact List.length_pos_iff.mpr element.ne_nil

/-- What is skipped in front of a token is a sequence of elements. -/
theorem trivia_take_triviaSize (bytes : List UInt8) :
    Trivia (bytes.take (triviaSize bytes)) (bytes.drop (triviaSize bytes)) := by
  fun_induction triviaSize bytes with
  | case1 bytes size positive inductionHypothesis =>
    obtain ⟨text, behind, rfl, element⟩ := beginsElement_of_size positive
    have measured : size = text.length := elementSize_of_element element
    rw [measured, List.drop_left] at inductionHypothesis ⊢
    rw [List.take_length_add_append, List.drop_length_add_append]
    refine .cons ?_ inductionHypothesis
    rwa [List.take_append_drop]
  | case2 bytes size none => exact .nil bytes

/-- No element begins where the measure stops. -/
theorem not_beginsElement_drop_triviaSize (bytes : List UInt8) :
    ¬ BeginsElement (bytes.drop (triviaSize bytes)) := by
  rw [← elementSize_pos_iff, elementSize_drop_triviaSize]
  exact Nat.lt_irrefl 0

end Lexis.Scan
