/-
This file is the table of escapes in string and character literals: which bytes
may follow a backslash, and the byte that each pair stands for.
-/

namespace Lexis.Source

def backslash : UInt8 := 0x5C

/-- The byte that a backslash and this byte stand for. -/
def unescape? (b : UInt8) : Option UInt8 :=
  if b = 0x6E then some 0x0A
  else if b = 0x72 then some 0x0D
  else if b = 0x74 then some 0x09
  else if b = 0x5C then some 0x5C
  else if b = 0x27 then some 0x27
  else if b = 0x22 then some 0x22
  else if b = 0x30 then some 0x00
  else none

/-- A line feed ends a literal also behind a backslash. -/
theorem unescape?_lineFeed : unescape? 0x0A = none := by decide

end Lexis.Source
