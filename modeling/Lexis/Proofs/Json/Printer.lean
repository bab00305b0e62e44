/-
This file shows that what the library writes as JSON is JSON, and stands for the value that was
written. Strings are written piece by piece. The parts of arrays and objects have lines of their
own, so there are only blanks around them, and the grammar takes blanks there.
-/

import Lexis.Proofs.Json.Numbers
import Lexis.Proofs.Json.Reader

namespace Lexis.Json

/-! ### Strings -/

/-- Every character is written as a piece of a string that stands for it. -/
theorem exists_piece_escapeChar (c : Char) :
    ∃ piece : Piece, piece.Valid ∧ piece.text = escapeChar c ∧
      ∀ rest, assemble none (piece :: rest) = (assemble none rest).map (c :: ·) := by
  unfold escapeChar
  split
  · exact ⟨.short '"', by decide, rfl, fun _ => rfl⟩
  · exact ⟨.short '\\', by decide, rfl, fun _ => rfl⟩
  · exact ⟨.short 'b', by decide, rfl, fun _ => rfl⟩
  · exact ⟨.short 't', by decide, rfl, fun _ => rfl⟩
  · exact ⟨.short 'n', by decide, rfl, fun _ => rfl⟩
  · exact ⟨.short 'f', by decide, rfl, fun _ => rfl⟩
  · exact ⟨.short 'r', by decide, rfl, fun _ => rfl⟩
  · rename_i noQuote noEscape _ _ _ _ _
    split
    · rename_i control
      have code : ∀ n : Fin 32,
          (Piece.code '0' '0' (Nat.digitChar (n / 16)) (Nat.digitChar (n % 16))).Valid ∧
            Piece.codeUnit '0' '0' (Nat.digitChar (n / 16)) (Nat.digitChar (n % 16)) = n := by
        decide
      obtain ⟨valid, unit⟩ := code ⟨c.toNat, control⟩
      dsimp only at valid unit
      refine ⟨_, valid, rfl, fun rest => ?_⟩
      have inRange : isHighHalf c.toNat = false ∧ isLowHalf c.toNat = false := by
        simp only [isHighHalf, isLowHalf, Bool.and_eq_false_iff, decide_eq_false_iff_not]
        omega
      rw [assemble, unit]
      simp only [inRange, Bool.false_eq_true, if_false, Char.ofNat_toNat]
    · rename_i visible
      exact ⟨.plain c, ⟨noQuote, noEscape, not_lt.mp visible⟩, rfl, fun _ => by rw [assemble]⟩

theorem spellsString_quote (s : String) : SpellsString s (quote s).toList := by
  have all : ∀ chars : List Char, ∃ pieces : List Piece, (∀ piece ∈ pieces, piece.Valid) ∧
      assemble none pieces = some chars ∧ pieces.flatMap Piece.text = chars.flatMap escapeChar := by
    intro chars
    induction chars with
    | nil => exact ⟨[], by simp, rfl, rfl⟩
    | cons c chars inductionHypothesis =>
      obtain ⟨pieces, valid, assembled, text⟩ := inductionHypothesis
      obtain ⟨piece, here, written, assembles⟩ := exists_piece_escapeChar c
      refine ⟨piece :: pieces, List.forall_mem_cons.mpr ⟨here, valid⟩, ?_, ?_⟩
      · rw [assembles, assembled]
        rfl
      · rw [List.flatMap_cons, List.flatMap_cons, written, text]
  obtain ⟨pieces, valid, assembled, text⟩ := all s.toList
  refine ⟨pieces, valid, assembled, ?_⟩
  rw [quote, String.toList_ofList, text]
  rfl

/-! ### Values -/

mutual

/-- What a value of the library stands for as JSON. -/
def tree : Json → Tree
  | .null => .null
  | .integer n => .integer n
  | .decimal x => if x.isFinite then .decimal x else .null
  | .text s => .text s
  | .array items => .array (treeItems items)
  | .object fields => .object (treeFields fields)

def treeItems : List Json → List Tree
  | [] => []
  | item :: rest => tree item :: treeItems rest

def treeFields : List (String × Json) → List (String × Tree)
  | [] => []
  | (name, value) :: rest => (name, tree value) :: treeFields rest

end

theorem treeItems_eq_map (items : List Json) : treeItems items = items.map tree := by
  induction items with
  | nil => rfl
  | cons item rest inductionHypothesis => rw [treeItems, inductionHypothesis, List.map_cons]

/-- A style that puts nothing but blanks between the tokens. -/
structure Style.Spaced (style : Style) : Prop where
  lineStart : ∀ depth, ∀ c ∈ (style.lineStart depth).toList, isBlank c = true
  colon : ∃ blanks : List Char, style.colon.toList = ':' :: blanks ∧ ∀ c ∈ blanks, isBlank c = true

theorem Style.spaced_indented : Style.indented.Spaced where
  lineStart depth c member := by
    rw [Style.indented, String.toList_append] at member
    rcases List.mem_append.mp member with first | space
    · obtain rfl : c = '\n' := by simpa using first
      rfl
    · rw [String.toList_ofList] at space
      rw [List.eq_of_mem_replicate space]
      rfl
  colon := ⟨[' '], rfl, List.forall_mem_singleton.mpr rfl⟩

theorem noBlanks : ∀ c ∈ ([] : List Char), isBlank c = true := fun _ none => nomatch none

/-- A text is a phrase wherever it stands between blanks. -/
def BetweenBlanks (phrase : Phrase) (text : List Char) : Prop :=
  ∀ before behind, (∀ c ∈ before, isBlank c = true) → (∀ c ∈ behind, isBlank c = true) →
    Spells phrase (before ++ text ++ behind)

/-- What is enclosed stands between the brackets. -/
theorem toList_enclose (style : Style) (depth : Nat) (opening closing : String)
    (texts : List String) :
    (enclose style depth opening closing texts).toList =
      opening.toList ++ ((if texts = [] then [] else
        (",".intercalate (texts.map (style.lineStart (depth + 1) ++ ·)) ++
          style.lineStart depth).toList) ++ closing.toList) := by
  rw [enclose]
  cases texts with
  | nil => exact String.toList_append
  | cons text texts =>
    rw [if_neg (by simp), if_neg (List.cons_ne_nil _ _)]
    simp only [String.toList_append, List.append_assoc]

section Lines

variable {style : Style} (spaced : style.Spaced) {Item : Type} {one : Item → Phrase}
  {many : List Item → Phrase}
  (last : ∀ {item text}, Spells (one item) text → Spells (many [item]) text)
  (more : ∀ {item items text rest}, Spells (one item) text → Spells (many items) rest →
    Spells (many (item :: items)) (text ++ ',' :: rest))
  {items : List Item} {texts : List String}
  (all : List.Forall₂ (fun item text => BetweenBlanks (one item) text.toList) items texts)
  (depth : Nat)

include spaced last more all

/-- Phrases that may stand between blanks may be written on lines of their own. -/
theorem spells_lines (nonempty : texts ≠ []) :
    Spells (many items)
      (",".intercalate (texts.map (style.lineStart (depth + 1) ++ ·)) ++
        style.lineStart depth).toList := by
  induction all with
  | nil => exact absurd rfl nonempty
  | @cons item text items texts here rest inductionHypothesis =>
    cases rest with
    | nil =>
      rw [List.map_singleton, String.intercalate_singleton, String.toList_append,
        String.toList_append]
      exact last (here _ _ (spaced.lineStart _) (spaced.lineStart _))
    | @cons next nextText items texts nextHere rest =>
      have first := here _ [] (spaced.lineStart (depth + 1)) noBlanks
      have there := inductionHypothesis (List.cons_ne_nil _ _)
      rw [List.append_nil] at first
      rw [List.map_cons, List.map_cons, String.intercalate_cons_cons, ← List.map_cons]
      have shape := more first there
      simp only [String.toList_append, List.append_assoc] at shape ⊢
      exact shape

/-- Brackets hold such phrases, or nothing at all. -/
theorem spells_enclose {whole : List Item → Phrase} {opening closing : String} {left right : Char}
    (opens : opening.toList = [left]) (closes : closing.toList = [right])
    (empty : Spells (whole []) [left, right])
    (full : ∀ {items text}, Spells (many items) text →
      Spells (whole items) (left :: (text ++ [right]))) :
    Spells (whole items) (enclose style depth opening closing texts).toList := by
  rw [toList_enclose, opens, closes]
  cases all with
  | nil => exact empty
  | cons here rest =>
    rw [if_neg (List.cons_ne_nil _ _)]
    exact full (spells_lines spaced last more (.cons here rest) depth (List.cons_ne_nil _ _))

end Lines

mutual

/-- Every value is written as a text of the grammar that stands for it. -/
theorem spells_print {style : Style} (spaced : style.Spaced) (depth : Nat) :
    (value : Json) → Spells (.value value.tree) (print style depth value).toList
  | .null => by
    rw [tree, print]
    exact .null
  | .integer n => by
    rw [tree, print]
    exact spells_integer n
  | .decimal x => by
    rw [tree, print]
    exact spells_number x
  | .text s => by
    rw [tree, print]
    exact .string (spellsString_quote s)
  | .array items => by
    rw [tree, print]
    exact spells_enclose spaced .lastItem .moreItems
      (betweenBlanks_printItems spaced (depth + 1) items) depth rfl rfl (.emptyArray noBlanks) .array
  | .object fields => by
    rw [tree, print]
    exact spells_enclose spaced .lastField .moreFields
      (betweenBlanks_printFields spaced (depth + 1) fields) depth rfl rfl (.emptyObject noBlanks)
      .object

theorem betweenBlanks_printItems {style : Style} (spaced : style.Spaced) (depth : Nat) :
    (items : List Json) → List.Forall₂ (fun tree text => BetweenBlanks (.padded tree) text.toList)
      (treeItems items) (printItems style depth items)
  | [] => .nil
  | item :: rest =>
    .cons (fun _ _ before behind => .padded before (spells_print spaced depth item) behind)
      (betweenBlanks_printItems spaced depth rest)

theorem betweenBlanks_printFields {style : Style} (spaced : style.Spaced) (depth : Nat) :
    (fields : List (String × Json)) →
      List.Forall₂ (fun field text => BetweenBlanks (.field field.1 field.2) text.toList)
        (treeFields fields) (printFields style depth fields)
  | [] => .nil
  | (name, value) :: rest => by
    refine .cons (fun before behind blankBefore blankBehind => ?_)
      (betweenBlanks_printFields spaced depth rest)
    obtain ⟨blanks, colon, blank⟩ := spaced.colon
    have padded := Spells.padded blank (spells_print spaced depth value) blankBehind
    have field := Spells.field blankBefore (spellsString_quote name) noBlanks padded
    dsimp only
    rw [String.toList_append, String.toList_append, colon]
    simpa only [List.append_assoc, List.nil_append, List.cons_append] using field

end

/-- Whatever is written is read as what it stands for, and stands for nothing else. -/
theorem spells_print_iff {style : Style} (spaced : style.Spaced) (value : Json) (tree : Tree) :
    Spells (.padded tree) (print style 0 value).toList ↔ tree = value.tree := by
  have spelled : Spells (.padded value.tree) (print style 0 value).toList := by
    have alone := Spells.padded noBlanks (spells_print spaced 0 value) noBlanks
    rwa [List.nil_append, List.append_nil] at alone
  constructor
  · exact fun again => again.unique spelled
  · rintro rfl
    exact spelled

end Lexis.Json
