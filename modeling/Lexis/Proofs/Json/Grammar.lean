/-
This file defines what a JSON text is, after RFC 8259, and what it stands for. Numbers and the
pieces of strings are kept as they are spelled, with a check that JSON has such a spelling and
with what it means: a number without a fraction and without an exponent is an integer, any other
is the nearest floating-point number, and escapes may stand for halves of a character. Values
are then spelled by one relation, between a phrase of the grammar and a text. It leaves open
where blanks stand, and how numbers and characters are spelled; what a text stands for it does
not leave open, as the reader shows.
-/

import Lexis.Json.Value
import Lexis.Proofs.Decimal.Rounding

namespace Lexis.Json

/-- What a JSON text stands for. -/
inductive Tree where
  | null
  | boolean (b : Bool)
  | integer (n : Int)
  | decimal (x : Binary64)
  | text (s : String)
  | array (items : List Tree)
  | object (fields : List (String × Tree))

/-- What may stand around values and marks. -/
def isBlank (c : Char) : Bool := c = ' ' || c = '\t' || c = '\n' || c = '\r'

/-! ### Numbers -/

/-- Decimal digits, at least one. -/
def IsDigits (digits : List Char) : Prop := digits ≠ [] ∧ ∀ c ∈ digits, c.isDigit = true

instance (digits : List Char) : Decidable (IsDigits digits) :=
  decidable_of_iff (digits ≠ [] ∧ digits.all Char.isDigit = true)
    (and_congr_right fun _ => List.all_eq_true)

/-- The exponent of a number, with its mark and its sign. -/
structure Exponent where
  mark : Char
  sign : Option Char
  digits : List Char
  deriving DecidableEq, Repr

namespace Exponent

def text (exponent : Exponent) : List Char :=
  exponent.mark :: (exponent.sign.toList ++ exponent.digits)

def Valid (exponent : Exponent) : Prop :=
  (exponent.mark = 'e' ∨ exponent.mark = 'E') ∧
    (exponent.sign = none ∨ exponent.sign = some '+' ∨ exponent.sign = some '-') ∧
      IsDigits exponent.digits

instance (exponent : Exponent) : Decidable exponent.Valid :=
  inferInstanceAs (Decidable (_ ∧ _ ∧ _))

def value (exponent : Exponent) : Int :=
  let n : Int := Nat.ofDigitChars 10 exponent.digits 0
  if exponent.sign = some '-' then -n else n

end Exponent

/-- A number as it is spelled. -/
structure Numeral where
  negative : Bool
  whole : List Char
  fraction : Option (List Char)
  exponent : Option Exponent
  deriving DecidableEq, Repr

namespace Numeral

def text (numeral : Numeral) : List Char :=
  (if numeral.negative then ['-'] else []) ++ numeral.whole ++
    (numeral.fraction.elim [] ('.' :: ·) ++ numeral.exponent.elim [] Exponent.text)

/-- No digit is missing, and no zero is in front of other digits. -/
def Valid (numeral : Numeral) : Prop :=
  IsDigits numeral.whole ∧ (numeral.whole.head? = some '0' → numeral.whole = ['0']) ∧
    (∀ digits ∈ numeral.fraction, IsDigits digits) ∧
      ∀ exponent ∈ numeral.exponent, exponent.Valid

instance (numeral : Numeral) : Decidable numeral.Valid :=
  inferInstanceAs (Decidable (_ ∧ _ ∧ _ ∧ _))

/-- Integers are exact, and all other numbers are rounded. -/
def tree (numeral : Numeral) : Tree :=
  match numeral.fraction, numeral.exponent with
  | none, none =>
    let n : Int := Nat.ofDigitChars 10 numeral.whole 0
    .integer (if numeral.negative then -n else n)
  | fraction, exponent =>
    let behind := fraction.getD []
    .decimal (Binary64.ofSigned numeral.negative (Nat.ofDigitChars 10 (numeral.whole ++ behind) 0)
      (exponent.elim 0 Exponent.value - behind.length))

end Numeral

/-! ### Strings -/

/-- What the escapes of one letter stand for. -/
def shortEscapes : List (Char × Char) :=
  [('"', '"'), ('\\', '\\'), ('/', '/'), ('b', '\x08'), ('f', '\x0c'), ('n', '\n'), ('r', '\r'),
    ('t', '\t')]

/-- The value of a hexadecimal digit, of either case. -/
def hexValue? (c : Char) : Option Nat :=
  if c.isDigit then some (c.toNat - '0'.toNat)
  else if 'a' ≤ c && c ≤ 'f' then some (c.toNat - 'a'.toNat + 10)
  else if 'A' ≤ c && c ≤ 'F' then some (c.toNat - 'A'.toNat + 10)
  else none

/-- A piece of a string: a character as it is, or an escape. -/
inductive Piece where
  | plain (c : Char)
  | short (mark : Char)
  | code (first second third fourth : Char)
  deriving DecidableEq, Repr

namespace Piece

def text : Piece → List Char
  | plain c => [c]
  | short mark => ['\\', mark]
  | code first second third fourth => ['\\', 'u', first, second, third, fourth]

def Valid : Piece → Prop
  | plain c => c ≠ '"' ∧ c ≠ '\\' ∧ 0x20 ≤ c.toNat
  | short mark => (shortEscapes.lookup mark).isSome = true
  | code first second third fourth =>
    ∀ digit ∈ [first, second, third, fourth], (hexValue? digit).isSome = true

instance : (piece : Piece) → Decidable piece.Valid
  | plain _ => inferInstanceAs (Decidable (_ ∧ _ ∧ _))
  | short _ => inferInstanceAs (Decidable (_ = _))
  | code first second third fourth =>
    decidable_of_iff ([first, second, third, fourth].all fun digit => (hexValue? digit).isSome)
      List.all_eq_true

/-- The number that four hexadecimal digits stand for. -/
def codeUnit (first second third fourth : Char) : Nat :=
  [first, second, third, fourth].foldl (fun n digit => 16 * n + (hexValue? digit).getD 0) 0

end Piece

/-- Whether a code unit is the first half of a character. -/
def isHighHalf (n : Nat) : Bool := 0xD800 ≤ n && n < 0xDC00

/-- Whether a code unit is the second half of a character. -/
def isLowHalf (n : Nat) : Bool := 0xDC00 ≤ n && n < 0xE000

/-- The characters of a string, where the first half of one may have been read. Its second half
must come next. -/
def assemble : Option Nat → List Piece → Option (List Char)
  | none, [] => some []
  | none, .plain c :: rest => (assemble none rest).map (c :: ·)
  | none, .short mark :: rest =>
    match shortEscapes.lookup mark with
    | some c => (assemble none rest).map (c :: ·)
    | none => none
  | none, .code first second third fourth :: rest =>
    let unit := Piece.codeUnit first second third fourth
    if isHighHalf unit then assemble (some unit) rest
    else if isLowHalf unit then none
    else (assemble none rest).map (Char.ofNat unit :: ·)
  | some high, .code first second third fourth :: rest =>
    let low := Piece.codeUnit first second third fourth
    if isLowHalf low then
      (assemble none rest).map
        (Char.ofNat (0x10000 + (high - 0xD800) * 0x400 + (low - 0xDC00)) :: ·)
    else none
  | some _, _ => none

/-- A text between quotes stands for a string. -/
def SpellsString (s : String) (text : List Char) : Prop :=
  ∃ pieces : List Piece, (∀ piece ∈ pieces, piece.Valid) ∧ assemble none pieces = some s.toList ∧
    text = '"' :: (pieces.flatMap Piece.text ++ ['"'])

/-! ### Values -/

/-- What the grammar has a name for. -/
inductive Phrase where
  | value (tree : Tree)
  /-- A value with blanks around it. -/
  | padded (tree : Tree)
  /-- A name with a value, and blanks around both. -/
  | field (name : String) (tree : Tree)
  /-- Values with commas between them, at least one. -/
  | items (trees : List Tree)
  /-- Names with values, and commas between them, at least one. -/
  | fields (fields : List (String × Tree))

/-- A text is a phrase of JSON. -/
inductive Spells : Phrase → List Char → Prop
  | null : Spells (.value .null) ['n', 'u', 'l', 'l']
  | boolean (b : Bool) :
      Spells (.value (.boolean b))
        (if b then ['t', 'r', 'u', 'e'] else ['f', 'a', 'l', 's', 'e'])
  | number {numeral : Numeral} (valid : numeral.Valid) : Spells (.value numeral.tree) numeral.text
  | string {s : String} {text : List Char} (spelled : SpellsString s text) :
      Spells (.value (.text s)) text
  | emptyArray {blanks : List Char} (blank : ∀ c ∈ blanks, isBlank c = true) :
      Spells (.value (.array [])) ('[' :: (blanks ++ [']']))
  | array {trees : List Tree} {text : List Char} (items : Spells (.items trees) text) :
      Spells (.value (.array trees)) ('[' :: (text ++ [']']))
  | emptyObject {blanks : List Char} (blank : ∀ c ∈ blanks, isBlank c = true) :
      Spells (.value (.object [])) ('\x7b' :: (blanks ++ ['\x7d']))
  | object {fields : List (String × Tree)} {text : List Char}
      (spelled : Spells (.fields fields) text) :
      Spells (.value (.object fields)) ('\x7b' :: (text ++ ['\x7d']))
  | padded {tree : Tree} {before text behind : List Char}
      (blankBefore : ∀ c ∈ before, isBlank c = true)
      (value : Spells (.value tree) text)
      (blankBehind : ∀ c ∈ behind, isBlank c = true) :
      Spells (.padded tree) (before ++ text ++ behind)
  | field {name : String} {tree : Tree} {before spelled behind text : List Char}
      (blankBefore : ∀ c ∈ before, isBlank c = true)
      (named : SpellsString name spelled)
      (blankBehind : ∀ c ∈ behind, isBlank c = true)
      (value : Spells (.padded tree) text) :
      Spells (.field name tree) (before ++ spelled ++ behind ++ ':' :: text)
  | lastItem {tree : Tree} {text : List Char} (value : Spells (.padded tree) text) :
      Spells (.items [tree]) text
  | moreItems {tree : Tree} {trees : List Tree} {text rest : List Char}
      (value : Spells (.padded tree) text) (more : Spells (.items trees) rest) :
      Spells (.items (tree :: trees)) (text ++ ',' :: rest)
  | lastField {name : String} {tree : Tree} {text : List Char}
      (field : Spells (.field name tree) text) : Spells (.fields [(name, tree)]) text
  | moreFields {name : String} {tree : Tree} {fields : List (String × Tree)}
      {text rest : List Char} (field : Spells (.field name tree) text)
      (more : Spells (.fields fields) rest) :
      Spells (.fields ((name, tree) :: fields)) (text ++ ',' :: rest)

end Lexis.Json
