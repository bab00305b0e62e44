/-
This file writes text between quotes so that it stays on one line and shows what
it holds: the quote, the backslash and the usual controls have short escapes, and
every other character without a form of its own is written by number. Text and
single bytes have each their own rule for the numbers.
-/

import Lexis.Text.Unprintable

namespace Lexis.Text

/-- A number in hexadecimal digits, lower case, without leading zeros. -/
def hexDigits (n : Nat) : List Char :=
  Nat.toDigits 16 n

/-! ### Text -/

/-- A character as it stands between double quotes. -/
def escapeChar (c : Char) : List Char :=
  match c with
  | '\x00' => ['\\', '0']
  | '\t' => ['\\', 't']
  | '\n' => ['\\', 'n']
  | '\r' => ['\\', 'r']
  | '"' => ['\\', '"']
  | '\\' => ['\\', '\\']
  | _ =>
    if isUnprintable c then ['\\', 'u', '\x7b'] ++ hexDigits c.toNat ++ ['\x7d'] else [c]

/-- A text between double quotes. -/
def quoteText (text : String) : String :=
  String.ofList ('"' :: text.toList.flatMap escapeChar ++ ['"'])

/-! ### Bytes -/

/-- A byte as it stands between single quotes: printable ASCII as it is, and two
hexadecimal digits for what has no short escape. -/
def escapeByte (b : UInt8) : List Char :=
  if b = 0x09 then ['\\', 't']
  else if b = 0x0A then ['\\', 'n']
  else if b = 0x0D then ['\\', 'r']
  else if b = 0x22 then ['\\', '"']
  else if b = 0x27 then ['\\', '\'']
  else if b = 0x5C then ['\\', '\\']
  else if 0x20 ≤ b && b < 0x7F then [Char.ofNat b.toNat]
  else
    ['\\', 'x', Nat.digitChar (b.toNat / 16), Nat.digitChar (b.toNat % 16)]

/-- A byte between single quotes. -/
def quoteByte (b : UInt8) : String :=
  String.ofList ('\'' :: escapeByte b ++ ['\''])

example : quoteText "a\t\"e\u0301" = "\"a\\t\\\"e\\u\x7b301\x7d\"" := by decide +kernel
example : quoteByte 0xFF = "'\\xff'" := by decide +kernel

/-! ### Nothing breaks the line -/

theorem escapeByte_no_lineFeed (b : UInt8) : '\n' ∉ escapeByte b := by
  have every : ∀ n : Fin 256, '\n' ∉ escapeByte (UInt8.ofNat n.val) := by decide +kernel
  simpa using every ⟨b.toNat, b.toNat_lt⟩

end Lexis.Text
