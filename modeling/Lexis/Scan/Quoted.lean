/-
This file reads character and string literals. Both read their bytes as items, where
an escape is one item of two bytes. A backslash before a byte outside the table is a
fault, but it does not end the literal: the byte behind it counts as if it stood
alone, and the fault is reported at the closing quote. A literal that is never closed
is the graver fault and hides the other.
-/

import Lexis.Scan.Bytes
import Lexis.Scan.Scanned
import Lexis.Source.Escape
import Lexis.Source.Position
import Lexis.Text.Utf8

namespace Lexis.Scan

/-! ### Strings -/

/-- What was found behind an opening quote: the bytes that the items stand for,
whether a bad escape was among them, whether the closing quote came, and how many
bytes all this took up. -/
structure StringBody where
  bytes : List UInt8
  badEscape : Bool
  closed : Bool
  size : Nat
  deriving DecidableEq, Repr

namespace StringBody

/-- The body that goes on behind an item. -/
def push (body : StringBody) (b : UInt8) (size : Nat) : StringBody :=
  { body with bytes := b :: body.bytes, size := size + body.size }

/-- The same body with a bad escape in it. -/
def spoil (body : StringBody) : StringBody := { body with badEscape := true }

end StringBody

/-- Reads up to the closing quote, or up to what comes in its place: a line feed,
which stays unread, or the end of the source. -/
def stringBody : List UInt8 → StringBody
  | [] => ⟨[], false, false, 0⟩
  | b :: rest =>
    if b = quote then ⟨[], false, true, 1⟩
    else if b = lineFeed then ⟨[], false, false, 0⟩
    else if b = Source.backslash then
      match rest with
      | [] => ⟨[], true, false, 1⟩
      | c :: behind =>
        match Source.unescape? c with
        | some value => (stringBody behind).push value 2
        | none =>
          if c = lineFeed then ⟨[], true, false, 1⟩
          else ((stringBody behind).push c 2).spoil
    else (stringBody rest).push b 1

/-! The body of a string, item by item. -/

theorem stringBody_cons (b : UInt8) (rest : List UInt8) :
    stringBody (b :: rest) =
      if b = quote then ⟨[], false, true, 1⟩
      else if b = lineFeed then ⟨[], false, false, 0⟩
      else if b = Source.backslash then
        match rest with
        | [] => ⟨[], true, false, 1⟩
        | c :: behind =>
          match Source.unescape? c with
          | some value => (stringBody behind).push value 2
          | none =>
            if c = lineFeed then ⟨[], true, false, 1⟩
            else ((stringBody behind).push c 2).spoil
      else (stringBody rest).push b 1 := by
  rw [stringBody.eq_def]

theorem stringBody_quote (rest : List UInt8) :
    stringBody (quote :: rest) = ⟨[], false, true, 1⟩ := by
  rw [stringBody_cons, if_pos rfl]

theorem stringBody_lineFeed (rest : List UInt8) :
    stringBody (lineFeed :: rest) = ⟨[], false, false, 0⟩ := by
  rw [stringBody_cons, if_neg (by decide), if_pos rfl]

theorem stringBody_backslash (rest : List UInt8) :
    stringBody (Source.backslash :: rest) =
      match rest with
      | [] => ⟨[], true, false, 1⟩
      | c :: behind =>
        match Source.unescape? c with
        | some value => (stringBody behind).push value 2
        | none =>
          if c = lineFeed then ⟨[], true, false, 1⟩
          else ((stringBody behind).push c 2).spoil := by
  rw [stringBody_cons, if_neg (by decide), if_neg (by decide), if_pos rfl]

theorem stringBody_escape {c value : UInt8} (known : Source.unescape? c = some value)
    (rest : List UInt8) :
    stringBody (Source.backslash :: c :: rest) = (stringBody rest).push value 2 := by
  rw [stringBody_backslash]
  simp only [known]

theorem stringBody_escapedLineFeed (rest : List UInt8) :
    stringBody (Source.backslash :: lineFeed :: rest) = ⟨[], true, false, 1⟩ := by
  have unknown : Source.unescape? lineFeed = none := Source.unescape?_lineFeed
  rw [stringBody_backslash]
  simp only [unknown, if_true]

theorem stringBody_badEscape {c : UInt8} (unknown : Source.unescape? c = none)
    (sameLine : c ≠ lineFeed) (rest : List UInt8) :
    stringBody (Source.backslash :: c :: rest) = ((stringBody rest).push c 2).spoil := by
  rw [stringBody_backslash]
  simp only [unknown, if_neg sameLine]

theorem stringBody_plain {b : UInt8} (unclosed : b ≠ quote) (sameLine : b ≠ lineFeed)
    (plain : b ≠ Source.backslash) (rest : List UInt8) :
    stringBody (b :: rest) = (stringBody rest).push b 1 := by
  rw [stringBody_cons, if_neg unclosed, if_neg sameLine, if_neg plain]

/-- Reads a string, at its opening quote. -/
def stringLiteral (bytes : List UInt8) : Scanned :=
  let body := stringBody (bytes.drop 1)
  let size := 1 + body.size
  if !body.closed then .fault .openString size
  else if body.badEscape then .fault .badEscape size
  else .token .str (.str (Text.decodeLossy body.bytes)) size

/-! ### Characters -/

/-- Whether the bytes begin with the quote that closes a character literal. -/
def closesChar (bytes : List UInt8) : Bool := bytes.head? = some apostrophe

/-- Reads a character literal, at its opening quote. It holds one byte of any value
but the quote, or one escape. What is not closed behind that ends there. -/
def charLiteral (bytes : List UInt8) : Scanned :=
  match bytes.drop 1 with
  | [] => .fault .badChar 1
  | b :: rest =>
    if b = apostrophe then .fault .badChar 2
    else if b = Source.backslash then
      match rest with
      | [] => .fault .badChar 2
      | c :: behind =>
        if closesChar behind then
          match Source.unescape? c with
          | some value => .token .char (.char value) 4
          | none => .fault .badEscape 4
        else .fault .badChar 3
    else if closesChar rest then .token .char (.char b) 3
    else .fault .badChar 2

theorem charLiteral_plain {opening b : UInt8} (filled : b ≠ apostrophe)
    (plain : b ≠ Source.backslash) (rest : List UInt8) :
    charLiteral (opening :: b :: apostrophe :: rest) = .token .char (.char b) 3 := by
  simp [charLiteral, filled, plain, closesChar]

theorem charLiteral_escape {opening c value : UInt8} (known : Source.unescape? c = some value)
    (rest : List UInt8) :
    charLiteral (opening :: Source.backslash :: c :: apostrophe :: rest) =
      .token .char (.char value) 4 := by
  have escapes : Source.backslash ≠ apostrophe := by decide
  simp [charLiteral, escapes, closesChar, known]

example : stringLiteral [0x22, 0x61, 0x5C, 0x71, 0x22, 0x63] = .fault .badEscape 5 := by cbv
example : stringLiteral [0x22, 0x5C, 0x71, 0x0A, 0x22] = .fault .openString 3 := by cbv

/-! ### Sizes -/

theorem stringBody_size_le (bytes : List UInt8) : (stringBody bytes).size ≤ bytes.length := by
  fun_induction stringBody bytes <;> simp_all [StringBody.push, StringBody.spoil] <;> omega

theorem stringLiteral_size (bytes : List UInt8) :
    (stringLiteral bytes).size = 1 + (stringBody (bytes.drop 1)).size := by
  unfold stringLiteral
  dsimp only
  split
  · rfl
  · split <;> rfl

theorem charLiteral_size_le {bytes : List UInt8} (nonempty : bytes ≠ []) :
    (charLiteral bytes).size ≤ bytes.length := by
  match bytes with
  | [] => exact absurd rfl nonempty
  | [_] => simp [charLiteral, Scanned.fault]
  | [_, b] =>
    simp only [charLiteral, List.drop_succ_cons, List.drop_zero]
    split
    · simp [Scanned.fault]
    · split <;> simp [closesChar, Scanned.fault]
  | [_, b, c] =>
    simp only [charLiteral, List.drop_succ_cons, List.drop_zero]
    split
    · simp [Scanned.fault]
    · split
      · simp [closesChar, Scanned.fault]
      · split <;> simp [Scanned.fault, Scanned.token]
  | _ :: b :: c :: d :: behind =>
    simp only [charLiteral, List.drop_succ_cons, List.drop_zero]
    split
    · simp [Scanned.fault]
    · split
      · split
        · split <;> simp [Scanned.fault, Scanned.token]
        · simp [Scanned.fault]
      · split <;> simp [Scanned.fault, Scanned.token]

theorem charLiteral_size_pos (bytes : List UInt8) : 0 < (charLiteral bytes).size := by
  unfold charLiteral
  repeat' split
  all_goals simp [Scanned.fault, Scanned.token]

end Lexis.Scan
