/-
This file reads the strings of a configuration text: with escapes between double
quotes, as they stand between single quotes, and both also over several lines between
tripled quotes. Over several lines one or two quotes may stand anywhere, also right
before the closing three, and a line break directly behind the opening is dropped.
-/

import Lexis.Toml.Reader

namespace Lexis.Toml

open Reader

/-! ### Characters -/

def isSpace (c : Char) : Bool := c = ' ' || c = '\t'

/-- The characters that may stand in comments and strings: all but the controls, of
which only the tab is let through. -/
def isPlain (c : Char) : Bool := c = '\t' || (0x20 ≤ c.toNat && c.toNat ≠ 0x7F)

def isDecimal (c : Char) : Bool := '0' ≤ c && c ≤ '9'

def isHex (c : Char) : Bool := isDecimal c || ('a' ≤ c && c ≤ 'f') || ('A' ≤ c && c ≤ 'F')

/-- The value of a hexadecimal digit. -/
def hexValue (c : Char) : Nat :=
  if isDecimal c then c.toNat - '0'.toNat
  else if 'a' ≤ c then c.toNat - 'a'.toNat + 10
  else c.toNat - 'A'.toNat + 10

/-- The number that digits of a radix stand for. -/
def number (radix : Nat) (digits : List Char) : Nat :=
  digits.foldl (fun n c => n * radix + hexValue c) 0

/-- Reads the end of a line. -/
def newline : Reader Char := fun chars =>
  match chars with
  | '\n' :: rest => some ('\n', rest)
  | '\r' :: '\n' :: rest => some ('\n', rest)
  | _ => none

/-! ### Escapes -/

/-- Reads a character given by its number. Surrogates and numbers past the last
character are no characters. -/
def numbered (count : Nat) : Reader Char := fun chars => do
  let (digits, rest) ← exactly count isHex chars
  let code := number 16 digits
  if code.isValidChar then return (Char.ofNat code, rest) else none

/-- Reads an escape. -/
def escape : Reader Char := fun chars =>
  match chars with
  | '\\' :: c :: rest =>
    match c with
    | 'b' => some ('\x08', rest)
    | 't' => some ('\t', rest)
    | 'n' => some ('\n', rest)
    | 'f' => some ('\x0c', rest)
    | 'r' => some ('\r', rest)
    | '"' => some ('"', rest)
    | '\\' => some ('\\', rest)
    | 'u' => numbered 4 rest
    | 'U' => numbered 8 rest
    | _ => none
  | _ => none

/-! ### On one line -/

/-- Reads a string in double quotes. -/
def basicString : Reader String := fun chars => do
  let (_, rest) ← text "\"" chars
  let (content, rest) :=
    many (orElse (one fun c => isPlain c && c ≠ '"' && c ≠ '\\') escape) rest
  let (_, rest) ← text "\"" rest
  return (String.ofList content, rest)

/-- Reads a string in single quotes. -/
def literalString : Reader String := fun chars => do
  let (_, rest) ← text "'" chars
  let (content, rest) := run (fun c => isPlain c && c ≠ '\'') rest
  let (_, rest) ← text "'" rest
  return (String.ofList content, rest)

/-! ### Over several lines -/

/-- Reads a backslash at the end of a line, with all blanks and line breaks up to the
next visible character. It stands for nothing. -/
def joinedLines : Reader (List Char) := fun chars => do
  let (_, rest) ← text "\\" chars
  let (_, rest) := run isSpace rest
  let (_, rest) ← newline rest
  let (_, rest) := many (orElse (one isSpace) newline) rest
  return ([], rest)

/-- Reads one or two quotes that close nothing. -/
def looseQuotes (quote : Char) : Reader (List Char) := fun chars =>
  let (quotes, rest) := run (· = quote) chars
  if quotes.isEmpty || 2 < quotes.length then none else some (quotes, rest)

/-- Reads the closing three quotes, with up to two that still belong to the string. -/
def closingQuotes (quote : Char) : Reader (List Char) := fun chars =>
  let (quotes, rest) := run (· = quote) chars
  if 3 ≤ quotes.length && quotes.length ≤ 5 then some (quotes.drop 3, rest) else none

/-- A reader of one character as a reader of a piece of a string. -/
def piece (reader : Reader Char) : Reader (List Char) := fun chars => do
  let (c, rest) ← reader chars
  return ([c], rest)

/-- Reads a string between tripled quotes out of pieces that are no quotes. -/
def multiline (quote : Char) (part : Reader (List Char)) : Reader String := fun chars => do
  let (_, rest) ← text (String.ofList [quote, quote, quote]) chars
  let (_, rest) := optional newline rest
  let (parts, rest) := many (orElse part (looseQuotes quote)) rest
  let (ending, rest) ← closingQuotes quote rest
  return (String.ofList (parts.flatten ++ ending), rest)

def multilineBasic : Reader String :=
  multiline '"'
    (orElse (piece (one fun c => isPlain c && c ≠ '"' && c ≠ '\\'))
      (orElse joinedLines (orElse (piece escape) (piece newline))))

def multilineLiteral : Reader String :=
  multiline '\'' (orElse (piece (one fun c => isPlain c && c ≠ '\'')) (piece newline))

/-- Reads a string of any sort. Three quotes always open one over several lines. -/
def string : Reader String := fun chars =>
  if ['"', '"', '"'].isPrefixOf chars then multilineBasic chars
  else if ['\'', '\'', '\''].isPrefixOf chars then multilineLiteral chars
  else orElse basicString literalString chars

end Lexis.Toml
