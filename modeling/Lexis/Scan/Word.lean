/-
This file reads words. A word takes in every letter, digit and underscore it can, and
is an identifier unless it is spelled like a keyword. Keywords carry the value of an
identifier too, so that whoever allows them as names can use it.
-/

import Lexis.Scan.Scanned
import Lexis.Scan.Bytes
import Lexis.Text.Utf8

namespace Lexis.Scan

/-- The kind of a word. -/
def wordKind (name : String) : Kind :=
  match Keyword.ofSpelling? name with
  | some keyword => .keyword keyword
  | none => .ident

/-- Reads a word, at a byte that begins one. -/
def word (bytes : List UInt8) : Scanned :=
  let lexeme := bytes.takeWhile isWordByte
  let name := Text.decodeLossy lexeme
  .token (wordKind name) (.ofName name) lexeme.length

end Lexis.Scan
