/-
This file reads JSON texts, and shows that every text of the grammar is read as what it stands
for. So a text stands for one thing only.

The reader takes the longest number that it finds, and every string up to its closing quote. It
never has to go back: what follows a value is a blank, a comma, a closing bracket or the end,
and none of these goes on with a number. The proof has a reading for each phrase of the grammar
and is an induction over how the text is spelled.
-/

import Lexis.Proofs.Json.Grammar

namespace Lexis.Json

/-- Reads something at the front of a text, and gives what is left. -/
abbrev Reads (α : Type) : Type := List Char → Option (α × List Char)

namespace Reader

def skipBlank (text : List Char) : List Char := text.dropWhile isBlank

/-! ### Numbers -/

/-- The fraction at the front of a text, if there is one. -/
def fraction : List Char → Option (List Char) × List Char
  | '.' :: rest => (some (rest.takeWhile Char.isDigit), rest.dropWhile Char.isDigit)
  | rest => (none, rest)

/-- The sign at the front of a text, if there is one. -/
def sign : List Char → Option Char × List Char
  | '+' :: rest => (some '+', rest)
  | '-' :: rest => (some '-', rest)
  | rest => (none, rest)

/-- The exponent at the front of a text, if there is one. -/
def exponent : List Char → Option Exponent × List Char
  | [] => (none, [])
  | mark :: rest =>
    if mark = 'e' ∨ mark = 'E' then
      let (sign, digits) := sign rest
      (some ⟨mark, sign, digits.takeWhile Char.isDigit⟩, digits.dropWhile Char.isDigit)
    else (none, mark :: rest)

/-- Whether a minus is at the front of a text. -/
def minus : List Char → Bool × List Char
  | '-' :: rest => (true, rest)
  | rest => (false, rest)

/-- The longest number at the front of a text. -/
def numeral : Reads Numeral := fun text =>
  let (negative, digits) := minus text
  let (fraction, rest) := fraction (digits.dropWhile Char.isDigit)
  let (exponent, rest) := exponent rest
  let found : Numeral := ⟨negative, digits.takeWhile Char.isDigit, fraction, exponent⟩
  if found.Valid then some (found, rest) else none

/-- What comes next can follow a value. -/
def EndsValue (rest : List Char) : Prop :=
  ∀ c ∈ rest.head?, isBlank c = true ∨ c ∈ [',', ']', '\x7d']

/-- A run is taken as a whole, and no more than the run. -/
theorem takeWhile_run {belongs : Char → Bool} {run rest : List Char}
    (all : ∀ c ∈ run, belongs c = true) (ends : ∀ c ∈ rest.head?, belongs c = false) :
    (run ++ rest).takeWhile belongs = run ∧ (run ++ rest).dropWhile belongs = rest := by
  rw [List.takeWhile_append_of_pos all, List.dropWhile_append_of_pos all]
  cases rest with
  | nil => exact ⟨List.append_nil run, rfl⟩
  | cons c rest =>
    have other : ¬belongs c = true := Bool.not_eq_true _ ▸ ends c rfl
    rw [List.takeWhile_cons_of_neg other, List.dropWhile_cons_of_neg other, List.append_nil]
    exact ⟨rfl, rfl⟩

/-- Nothing that ends a value goes on with a number. -/
theorem EndsValue.noMark {rest : List Char} (ends : EndsValue rest) {c : Char}
    (first : c ∈ rest.head?) : c.isDigit = false ∧ c ≠ '.' ∧ c ≠ 'e' ∧ c ≠ 'E' := by
  rcases ends c first with blank | mark
  · simp only [isBlank, Bool.or_eq_true, decide_eq_true_eq] at blank
    rcases blank with ((rfl | rfl) | rfl) | rfl <;> decide
  · simp only [List.mem_cons, List.not_mem_nil, or_false] at mark
    rcases mark with rfl | rfl | rfl <;> decide

/-- Digits begin with a digit, which is no sign. -/
theorem sign_digits {digits : List Char} (decimal : IsDigits digits) (rest : List Char) :
    sign (digits ++ rest) = (none, digits ++ rest) ∧
      minus (digits ++ rest) = (false, digits ++ rest) := by
  obtain ⟨nonempty, all⟩ := decimal
  cases digits with
  | nil => exact absurd rfl nonempty
  | cons c digits =>
    have digit := all c List.mem_cons_self
    rw [List.cons_append]
    constructor
    · unfold sign
      split
      · rename_i same
        exact absurd digit (List.head_eq_of_cons_eq same ▸ by decide)
      · rename_i same
        exact absurd digit (List.head_eq_of_cons_eq same ▸ by decide)
      · rfl
    · unfold minus
      split
      · rename_i same
        exact absurd digit (List.head_eq_of_cons_eq same ▸ by decide)
      · rfl

/-- Every fraction is read, if there is one. -/
theorem fraction_text {digits? : Option (List Char)}
    (decimal : ∀ digits ∈ digits?, IsDigits digits) {rest : List Char}
    (ends : ∀ c ∈ rest.head?, c.isDigit = false ∧ c ≠ '.') :
    fraction (digits?.elim [] ('.' :: ·) ++ rest) = (digits?, rest) := by
  cases digits? with
  | some digits =>
    obtain ⟨taken, left⟩ := takeWhile_run (decimal digits rfl).2 fun c first => (ends c first).1
    show (some ((digits ++ rest).takeWhile Char.isDigit), (digits ++ rest).dropWhile Char.isDigit) =
      (some digits, rest)
    rw [taken, left]
  | none =>
    show fraction rest = (none, rest)
    unfold fraction
    split
    · exact absurd rfl (ends '.' rfl).2
    · rfl

/-- Every exponent is read, if there is one. -/
theorem exponent_text {exponent? : Option Exponent}
    (valid : ∀ exponent ∈ exponent?, exponent.Valid) {rest : List Char} (ends : EndsValue rest) :
    exponent (exponent?.elim [] Exponent.text ++ rest) = (exponent?, rest) := by
  cases exponent? with
  | some found =>
    obtain ⟨mark, sign, digits⟩ := found
    obtain ⟨marked, signed, decimal⟩ := valid _ rfl
    dsimp only at marked signed decimal
    obtain ⟨taken, left⟩ := takeWhile_run decimal.2 fun c first => (ends.noMark first).1
    show exponent (mark :: (sign.toList ++ digits ++ rest)) = _
    have split : Reader.sign (sign.toList ++ digits ++ rest) = (sign, digits ++ rest) := by
      rw [List.append_assoc]
      rcases signed with rfl | rfl | rfl
      · exact (sign_digits decimal rest).1
      · rfl
      · rfl
    rw [exponent, if_pos marked, split]
    dsimp only
    rw [taken, left]
  | none =>
    show exponent rest = (none, rest)
    cases rest with
    | nil => rfl
    | cons c rest =>
      obtain ⟨-, -, lower, upper⟩ := ends.noMark (c := c) rfl
      rw [exponent, if_neg (not_or.mpr ⟨lower, upper⟩)]

/-- Every number is read as it is spelled. -/
theorem numeral_text {found : Numeral} (valid : found.Valid) {rest : List Char}
    (ends : EndsValue rest) : numeral (found.text ++ rest) = some (found, rest) := by
  obtain ⟨negative, whole, fraction?, exponent?⟩ := found
  obtain ⟨decimal, -, fractional, exponential⟩ := id valid
  dsimp only at decimal fractional exponential
  have lastPart := exponent_text exponential ends
  have behind : ∀ c ∈ (exponent?.elim [] Exponent.text ++ rest).head?,
      c.isDigit = false ∧ c ≠ '.' := by
    intro c first
    cases exponent? with
    | some found =>
      obtain rfl : found.mark = c := Option.some.inj first
      rcases (exponential found rfl).1 with mark | mark <;> rw [mark] <;> decide
    | none => exact ⟨(ends.noMark first).1, (ends.noMark first).2.1⟩
  rw [Numeral.text]
  dsimp only
  rw [List.append_assoc, List.append_assoc, List.append_assoc]
  generalize exponent?.elim [] Exponent.text ++ rest = tail at lastPart behind ⊢
  have middlePart := fraction_text fractional behind
  have behindWhole : ∀ c ∈ (fraction?.elim [] ('.' :: ·) ++ tail).head?, c.isDigit = false := by
    intro c first
    cases fraction? with
    | some digits =>
      obtain rfl : '.' = c := Option.some.inj first
      rfl
    | none => exact (behind c first).1
  generalize fraction?.elim [] ('.' :: ·) ++ tail = tail at middlePart behindWhole ⊢
  have firstPart : minus ((if negative then ['-'] else []) ++ (whole ++ tail)) =
      (negative, whole ++ tail) := by
    cases negative with
    | true => rfl
    | false => exact (sign_digits decimal _).2
  obtain ⟨taken, left⟩ := takeWhile_run decimal.2 behindWhole
  simp only [numeral, firstPart, taken, left, middlePart, lastPart]
  exact if_pos valid

/-! ### Strings -/

/-- The pieces of a string, up to the closing quote. -/
def pieces : Reads (List Piece)
  | [] => none
  | '"' :: rest => some ([], rest)
  | '\\' :: 'u' :: a :: b :: c :: d :: rest =>
    if (Piece.code a b c d).Valid then
      (pieces rest).map fun (found, rest) => (.code a b c d :: found, rest)
    else none
  | '\\' :: mark :: rest =>
    if (Piece.short mark).Valid then
      (pieces rest).map fun (found, rest) => (.short mark :: found, rest)
    else none
  | c :: rest =>
    if (Piece.plain c).Valid then (pieces rest).map fun (found, rest) => (.plain c :: found, rest)
    else none

/-- A string behind its opening quote. -/
def string : Reads String := fun text =>
  match pieces text with
  | some (found, rest) => (assemble none found).map fun chars => (String.ofList chars, rest)
  | none => none

/-- Every piece is found, whatever comes behind it. -/
theorem pieces_cons {piece : Piece} (valid : piece.Valid) (text : List Char) :
    pieces (piece.text ++ text) =
      (pieces text).map fun (found, rest) => (piece :: found, rest) := by
  cases piece with
  | plain c =>
    obtain ⟨noQuote, noEscape, -⟩ := id valid
    show pieces (c :: text) = _
    rw [pieces, if_pos valid]
    · exact noQuote
    · exact fun _ _ _ _ _ same => absurd same noEscape
    · exact fun _ _ same => absurd same noEscape
  | short mark =>
    show pieces ('\\' :: mark :: text) = _
    rw [pieces, if_pos valid]
    rintro a b c d rest rfl
    exact absurd valid (by decide)
  | code a b c d =>
    show pieces ('\\' :: 'u' :: a :: b :: c :: d :: text) = _
    rw [pieces, if_pos valid]

theorem pieces_text {found : List Piece} (valid : ∀ piece ∈ found, piece.Valid) (rest : List Char) :
    pieces (found.flatMap Piece.text ++ '"' :: rest) = some (found, rest) := by
  induction found with
  | nil => rw [List.flatMap_nil, List.nil_append, pieces]
  | cons piece found inductionHypothesis =>
    obtain ⟨here, later⟩ := List.forall_mem_cons.mp valid
    rw [List.flatMap_cons, List.append_assoc, pieces_cons here, inductionHypothesis later]
    rfl

/-- Every string is found. -/
theorem string_text {s : String} {text : List Char} (spelled : SpellsString s text)
    (rest : List Char) :
    ∃ behind, text ++ rest = '"' :: behind ∧ string behind = some (s, rest) := by
  obtain ⟨found, valid, assembled, rfl⟩ := spelled
  refine ⟨_, rfl, ?_⟩
  show string ((found.flatMap Piece.text ++ ['"']) ++ rest) = _
  rw [List.append_assoc, List.singleton_append, string, pieces_text valid]
  show (assemble none found).map (fun chars => (String.ofList chars, rest)) = _
  rw [assembled, Option.map_some, String.ofList_toList]

/-! ### Values -/

/-- A thing with blanks around it. -/
def padded {α : Type} (read : Reads α) : Reads α := fun text =>
  (read (skipBlank text)).map fun (item, rest) => (item, skipBlank rest)

/-- Things with commas between them, up to a closing bracket. -/
def many {α : Type} (read : Reads α) (closing : Char) : Nat → Reads (List α)
  | 0, _ => none
  | tries + 1, chars =>
    match read chars with
    | some (item, c :: rest) =>
      if c = ',' then
        (many read closing tries rest).map fun (items, rest) => (item :: items, rest)
      else if c = closing then some ([item], rest)
      else none
    | _ => none

/-- Any number of things, up to a closing bracket. -/
def listed {α : Type} (read : Reads α) (closing : Char) : Reads (List α) := fun text =>
  match skipBlank text with
  | [] => none
  | c :: rest => if c = closing then some ([], rest) else many read closing text.length text

/-- What is behind a mark that must come next. -/
def expect (mark : Char) : List Char → Option (List Char)
  | [] => none
  | c :: rest => if c = mark then some rest else none

/-- A name with its value. -/
def field (read : Reads Tree) : Reads (String × Tree) := fun text => do
  let rest ← expect '"' (skipBlank text)
  let (name, rest) ← string rest
  let rest ← expect ':' (skipBlank rest)
  let (tree, rest) ← padded read rest
  return ((name, tree), rest)

/-- A value that holds others down to some depth. -/
def value : Nat → Reads Tree
  | 0, _ => none
  | _ + 1, 'n' :: 'u' :: 'l' :: 'l' :: rest => some (.null, rest)
  | _ + 1, 't' :: 'r' :: 'u' :: 'e' :: rest => some (.boolean true, rest)
  | _ + 1, 'f' :: 'a' :: 'l' :: 's' :: 'e' :: rest => some (.boolean false, rest)
  | _ + 1, '"' :: rest => (string rest).map fun (s, rest) => (.text s, rest)
  | depth + 1, '[' :: rest =>
    (listed (padded (value depth)) ']' rest).map fun (items, rest) => (.array items, rest)
  | depth + 1, '\x7b' :: rest =>
    (listed (field (value depth)) '\x7d' rest).map fun (fields, rest) => (.object fields, rest)
  | _ + 1, chars => (numeral chars).map fun (found, rest) => (found.tree, rest)

/-- What comes next can follow a value and the blanks behind it. -/
def EndsPhrase (rest : List Char) : Prop := ∀ c ∈ rest.head?, c ∈ [',', ']', '\x7d']

theorem skipBlank_run {blanks rest : List Char} (blank : ∀ c ∈ blanks, isBlank c = true)
    (ends : ∀ c ∈ rest.head?, isBlank c = false) : skipBlank (blanks ++ rest) = rest :=
  (takeWhile_run blank ends).2

theorem EndsPhrase.noBlank {rest : List Char} (ends : EndsPhrase rest) :
    ∀ c ∈ rest.head?, isBlank c = false := by
  intro c first
  have mark := ends c first
  simp only [List.mem_cons, List.not_mem_nil, or_false] at mark
  rcases mark with rfl | rfl | rfl <;> rfl

theorem EndsPhrase.endsValue {blanks rest : List Char} (ends : EndsPhrase rest)
    (blank : ∀ c ∈ blanks, isBlank c = true) : EndsValue (blanks ++ rest) := by
  intro c first
  cases blanks with
  | nil => exact Or.inr (ends c first)
  | cons b blanks =>
    obtain rfl : b = c := Option.some.inj first
    exact Or.inl (blank b List.mem_cons_self)

/-- A character that begins a value, or a name. -/
def BeginsValue (c : Char) : Prop := isBlank c = false ∧ c ≠ ']' ∧ c ≠ '\x7d'

instance (c : Char) : Decidable (BeginsValue c) := inferInstanceAs (Decidable (_ ∧ _ ∧ _))

/-- A number begins with its sign or with a digit. -/
theorem text_cons {numeral : Numeral} (valid : numeral.Valid) :
    ∃ c rest, numeral.text = c :: rest ∧ (c = '-' ∨ c.isDigit = true) := by
  obtain ⟨negative, whole, fraction, exponent⟩ := numeral
  obtain ⟨⟨nonempty, all⟩, -⟩ := valid
  cases negative with
  | true => exact ⟨_, _, rfl, Or.inl rfl⟩
  | false =>
    cases whole with
    | nil => exact absurd rfl nonempty
    | cons c whole => exact ⟨c, _, rfl, Or.inr (all c List.mem_cons_self)⟩

/-- Numbers are what is tried last. -/
theorem value_numeral {found : Numeral} (valid : found.Valid) (depth : Nat) {rest : List Char}
    (ends : EndsValue rest) : value (depth + 1) (found.text ++ rest) = some (found.tree, rest) := by
  obtain ⟨c, behind, text, first⟩ := text_cons valid
  have noMark : c ≠ 'n' ∧ c ≠ 't' ∧ c ≠ 'f' ∧ c ≠ '"' ∧ c ≠ '[' ∧ c ≠ '\x7b' := by
    refine ⟨?_, ?_, ?_, ?_, ?_, ?_⟩ <;> rintro rfl <;> exact absurd first (by decide)
  have last : value (depth + 1) (found.text ++ rest) =
      (numeral (found.text ++ rest)).map fun (found, rest) => (found.tree, rest) := by
    rw [text, List.cons_append, value] <;> intro rest same <;>
      obtain rfl := List.head_eq_of_cons_eq same <;> tauto
  rw [last, numeral_text valid ends]
  rfl

/-- Every value begins with something that is no blank and closes nothing. -/
theorem begins_value {tree : Tree} {text : List Char} (spelled : Spells (.value tree) text) :
    ∃ c rest, text = c :: rest ∧ BeginsValue c := by
  cases spelled with
  | null => exact ⟨_, _, rfl, by decide⟩
  | boolean b => cases b <;> exact ⟨_, _, rfl, by decide⟩
  | number valid =>
    obtain ⟨c, rest, text, first⟩ := text_cons valid
    refine ⟨c, rest, text, Bool.eq_false_iff.mpr fun blank => ?_, ?_, ?_⟩
    · simp only [isBlank, Bool.or_eq_true, decide_eq_true_eq] at blank
      rcases blank with ((rfl | rfl) | rfl) | rfl <;> exact absurd first (by decide)
    · rintro rfl
      exact absurd first (by decide)
    · rintro rfl
      exact absurd first (by decide)
  | string spelled =>
    obtain ⟨pieces, -, -, rfl⟩ := spelled
    exact ⟨_, _, rfl, by decide⟩
  | emptyArray | array | emptyObject | object => exact ⟨_, _, rfl, by decide⟩

/-- A text begins with something, after blanks. -/
def Begins (text : List Char) : Prop :=
  ∃ blanks c rest, text = blanks ++ c :: rest ∧ (∀ b ∈ blanks, isBlank b = true) ∧ BeginsValue c

theorem Begins.append {text : List Char} (begins : Begins text) (more : List Char) :
    Begins (text ++ more) := by
  obtain ⟨blanks, c, rest, rfl, facts⟩ := begins
  exact ⟨blanks, c, rest ++ more, List.append_assoc _ _ _, facts⟩

theorem begins_padded {tree : Tree} {text : List Char} (spelled : Spells (.padded tree) text) :
    Begins text := by
  cases spelled with
  | @padded _ before text behind blank value =>
    obtain ⟨c, rest, rfl, begins⟩ := begins_value value
    exact ⟨before, c, rest ++ behind, List.append_assoc _ _ _, blank, begins⟩

theorem begins_field {name : String} {tree : Tree} {text : List Char}
    (spelled : Spells (.field name tree) text) : Begins text := by
  cases spelled with
  | @field _ _ before spelled behind text blank named =>
    obtain ⟨pieces, -, -, rfl⟩ := named
    refine Begins.append (Begins.append ?_ behind) (':' :: text)
    exact ⟨before, _, _, rfl, blank, by decide⟩

theorem begins_items {trees : List Tree} {text : List Char} (spelled : Spells (.items trees) text) :
    Begins text := by
  cases spelled with
  | lastItem value => exact begins_padded value
  | moreItems value => exact (begins_padded value).append _

theorem begins_fields {fields : List (String × Tree)} {text : List Char}
    (spelled : Spells (.fields fields) text) : Begins text := by
  cases spelled with
  | lastField field => exact begins_field field
  | moreFields field => exact (begins_field field).append _

theorem listed_empty {α : Type} (read : Reads α) (closing : Char) (closes : isBlank closing = false)
    {blanks : List Char} (blank : ∀ c ∈ blanks, isBlank c = true) (rest : List Char) :
    listed read closing (blanks ++ closing :: rest) = some ([], rest) := by
  have stops : skipBlank (blanks ++ closing :: rest) = closing :: rest := by
    refine skipBlank_run blank fun c first => ?_
    obtain rfl : closing = c := Option.some.inj first
    exact closes
  rw [listed, stops]
  exact if_pos rfl

/-- What it is to read entries that a text has at its front, up to the mark that closes them. -/
def IsManyRead {α : Type} (read : Reads α) (closing : Char) (entries : List α)
    (chars : List Char) : Prop :=
  ∀ tries, chars.length < tries → ∀ rest,
    many read closing tries (chars ++ closing :: rest) = some (entries, rest)

section Many

variable {α : Type} {read : Reads α} {closing : Char} {entry : α} {entries : List α}
  {text behind : List Char}

theorem isManyRead_last (other : closing ≠ ',')
    (found : ∀ rest, read (text ++ closing :: rest) = some (entry, closing :: rest)) :
    IsManyRead read closing [entry] text := by
  intro tries enough rest
  obtain ⟨tries, rfl⟩ : ∃ fewer, tries = fewer + 1 := ⟨tries - 1, by omega⟩
  rw [many, found]
  dsimp only
  rw [if_neg other, if_pos rfl]

theorem isManyRead_more
    (found : ∀ rest, read (text ++ ',' :: rest) = some (entry, ',' :: rest))
    (more : IsManyRead read closing entries behind) :
    IsManyRead read closing (entry :: entries) (text ++ ',' :: behind) := by
  intro tries enough rest
  rw [List.length_append, List.length_cons] at enough
  obtain ⟨tries, rfl⟩ : ∃ fewer, tries = fewer + 1 := ⟨tries - 1, by omega⟩
  rw [List.append_assoc, List.cons_append, many, found]
  dsimp only
  rw [if_pos rfl, more tries (by omega), Option.map_some]

theorem listed_of_isManyRead (closes : ¬BeginsValue closing) (begins : Begins text)
    (all : IsManyRead read closing entries text) (rest : List Char) :
    listed read closing (text ++ closing :: rest) = some (entries, rest) := by
  have more : text.length < (text ++ closing :: rest).length := by
    rw [List.length_append, List.length_cons]
    omega
  rw [← all _ more]
  obtain ⟨blanks, c, behind, shape, blank, begins⟩ := begins.append (closing :: rest)
  have stops : skipBlank (blanks ++ c :: behind) = c :: behind := by
    refine skipBlank_run blank fun d first => ?_
    obtain rfl : c = d := Option.some.inj first
    exact begins.1
  rw [shape, listed, stops]
  refine if_neg ?_
  rintro rfl
  exact closes begins

end Many

/-- What it is to read a phrase that a text has at its front. -/
def IsRead : Phrase → List Char → Prop
  | .value tree, chars => ∀ depth, chars.length ≤ depth + 1 → ∀ rest, EndsValue rest →
    value (depth + 1) (chars ++ rest) = some (tree, rest)
  | .padded tree, chars => ∀ depth, chars.length ≤ depth → ∀ rest, EndsPhrase rest →
    padded (value depth) (chars ++ rest) = some (tree, rest)
  | .field name tree, chars => ∀ depth, chars.length ≤ depth → ∀ rest, EndsPhrase rest →
    field (value depth) (chars ++ rest) = some ((name, tree), rest)
  | .items trees, chars => ∀ depth, chars.length ≤ depth →
    IsManyRead (padded (value depth)) ']' trees chars
  | .fields fields, chars => ∀ depth, chars.length ≤ depth →
    IsManyRead (field (value depth)) '\x7d' fields chars

theorem isRead_padded {tree : Tree} {before text behind : List Char}
    (blankBefore : ∀ c ∈ before, isBlank c = true) (spelled : Spells (.value tree) text)
    (blankBehind : ∀ c ∈ behind, isBlank c = true) (read : IsRead (.value tree) text) :
    IsRead (.padded tree) (before ++ text ++ behind) := by
  intro depth deep rest ends
  obtain ⟨c, tail, shape, begins⟩ := begins_value spelled
  rw [List.length_append, List.length_append] at deep
  obtain ⟨depth, rfl⟩ : ∃ less, depth = less + 1 :=
    ⟨depth - 1, by rw [shape, List.length_cons] at deep; omega⟩
  have front : skipBlank (before ++ text ++ behind ++ rest) = text ++ (behind ++ rest) := by
    rw [List.append_assoc, List.append_assoc]
    refine skipBlank_run blankBefore fun d first => ?_
    rw [shape] at first
    obtain rfl : c = d := Option.some.inj first
    exact begins.1
  rw [padded, front, read depth (by omega) _ (ends.endsValue blankBehind)]
  show some (tree, skipBlank (behind ++ rest)) = _
  rw [skipBlank_run blankBehind ends.noBlank]

theorem isRead_field {name : String} {tree : Tree} {before spelled behind text : List Char}
    (blankBefore : ∀ c ∈ before, isBlank c = true) (named : SpellsString name spelled)
    (blankBehind : ∀ c ∈ behind, isBlank c = true) (read : IsRead (.padded tree) text) :
    IsRead (.field name tree) (before ++ spelled ++ behind ++ ':' :: text) := by
  intro depth deep rest ends
  have shorter : text.length ≤ depth := by
    rw [List.length_append, List.length_cons] at deep
    omega
  obtain ⟨tail, shape, found⟩ := string_text named (behind ++ ':' :: (text ++ rest))
  have front : skipBlank (before ++ spelled ++ behind ++ ':' :: text ++ rest) = '"' :: tail := by
    rw [← shape]
    simp only [List.append_assoc, List.cons_append]
    refine skipBlank_run blankBefore fun d first => ?_
    rw [shape] at first
    obtain rfl : '"' = d := Option.some.inj first
    rfl
  have colon : skipBlank (behind ++ ':' :: (text ++ rest)) = ':' :: (text ++ rest) := by
    refine skipBlank_run blankBehind fun d first => ?_
    obtain rfl : ':' = d := Option.some.inj first
    rfl
  simp only [field, front, expect, if_true, Option.bind_eq_bind, Option.bind_some, found, colon,
    read depth shorter rest ends]
  rfl

theorem endsPhrase_cons {c : Char} (mark : c ∈ [',', ']', '\x7d']) (rest : List Char) :
    EndsPhrase (c :: rest) := by
  intro d first
  obtain rfl : c = d := Option.some.inj first
  exact mark

/-- Every phrase is read, whatever comes behind it. -/
theorem isRead_of_spells {phrase : Phrase} {text : List Char} (spelled : Spells phrase text) :
    IsRead phrase text := by
  induction spelled with
  | null =>
    intro depth _ rest _
    rfl
  | boolean b =>
    intro depth _ rest _
    cases b <;> rfl
  | number valid =>
    intro depth _ rest ends
    exact value_numeral valid depth ends
  | string spelled =>
    intro depth _ rest _
    obtain ⟨tail, shape, found⟩ := string_text spelled rest
    rw [shape, value, found]
    rfl
  | emptyArray blank =>
    intro depth _ rest _
    rw [List.cons_append, List.append_assoc, List.singleton_append, value,
      listed_empty _ _ (by decide) blank]
    rfl
  | emptyObject blank =>
    intro depth _ rest _
    rw [List.cons_append, List.append_assoc, List.singleton_append, value,
      listed_empty _ _ (by decide) blank]
    rfl
  | array items inductionHypothesis =>
    intro depth deep rest _
    rw [List.length_cons, List.length_append] at deep
    rw [List.cons_append, List.append_assoc, List.singleton_append, value,
      listed_of_isManyRead (by decide) (begins_items items)
        (inductionHypothesis depth (by omega))]
    rfl
  | object spelled inductionHypothesis =>
    intro depth deep rest _
    rw [List.length_cons, List.length_append] at deep
    rw [List.cons_append, List.append_assoc, List.singleton_append, value,
      listed_of_isManyRead (by decide) (begins_fields spelled)
        (inductionHypothesis depth (by omega))]
    rfl
  | padded blankBefore value blankBehind inductionHypothesis =>
    exact isRead_padded blankBefore value blankBehind inductionHypothesis
  | field blankBefore named blankBehind value inductionHypothesis =>
    exact isRead_field blankBefore named blankBehind inductionHypothesis
  | lastItem value inductionHypothesis =>
    intro depth deep
    exact isManyRead_last (by decide) fun rest =>
      inductionHypothesis depth deep _ (endsPhrase_cons (by decide) rest)
  | moreItems value more inductionHypothesis moreHypothesis =>
    intro depth deep
    rw [List.length_append, List.length_cons] at deep
    exact isManyRead_more
      (fun rest => inductionHypothesis depth (by omega) _ (endsPhrase_cons (by decide) rest))
      (moreHypothesis depth (by omega))
  | lastField field inductionHypothesis =>
    intro depth deep
    exact isManyRead_last (by decide) fun rest =>
      inductionHypothesis depth deep _ (endsPhrase_cons (by decide) rest)
  | moreFields field more inductionHypothesis moreHypothesis =>
    intro depth deep
    rw [List.length_append, List.length_cons] at deep
    exact isManyRead_more
      (fun rest => inductionHypothesis depth (by omega) _ (endsPhrase_cons (by decide) rest))
      (moreHypothesis depth (by omega))

end Reader

/-- Reads a whole text. It can hold no more values within each other than it has characters. -/
def read? (text : List Char) : Option Tree :=
  match Reader.padded (Reader.value text.length) text with
  | some (tree, []) => some tree
  | _ => none

/-- Every text of the grammar is read as what it stands for. -/
theorem read?_of_spells {tree : Tree} {text : List Char} (spelled : Spells (.padded tree) text) :
    read? text = some tree := by
  have found := Reader.isRead_of_spells spelled text.length le_rfl [] (fun _ none => nomatch none)
  rw [List.append_nil] at found
  rw [read?, found]

/-- A text stands for one thing only. -/
theorem Spells.unique {first second : Tree} {text : List Char}
    (spelled : Spells (.padded first) text) (again : Spells (.padded second) text) :
    first = second :=
  Option.some.inj ((read?_of_spells spelled).symm.trans (read?_of_spells again))

end Lexis.Json
