/-
This file names the bytes that matter to the scanners and sorts the rest into
classes. All classes are of ASCII bytes: the language has no letters outside them,
and a byte from 0x80 up belongs to none.
-/

namespace Lexis.Scan

def slash : UInt8 := 0x2F

def star : UInt8 := 0x2A

def dot : UInt8 := 0x2E

def underscore : UInt8 := 0x5F

def apostrophe : UInt8 := 0x27

def quote : UInt8 := 0x22

/-- The bytes between tokens that are no comment: space, tab and both halves of a
line break. -/
def isBlank (b : UInt8) : Bool := b = 0x20 || b = 0x09 || b = 0x0A || b = 0x0D

def isDigit (b : UInt8) : Bool := 0x30 ≤ b && b ≤ 0x39

def isLetter (b : UInt8) : Bool := (0x41 ≤ b && b ≤ 0x5A) || (0x61 ≤ b && b ≤ 0x7A)

/-- The bytes a word may begin with. -/
def isWordStart (b : UInt8) : Bool := isLetter b || b = underscore

/-- The bytes a word may go on with. -/
def isWordByte (b : UInt8) : Bool := isWordStart b || isDigit b

/-- Digits and the separator that groups them. -/
def isDigitOrSeparator (b : UInt8) : Bool := isDigit b || b = underscore

/-- The bytes of a UTF-8 character behind its first. -/
def isContinuation (b : UInt8) : Bool := 0x80 ≤ b && b < 0xC0

/-! ### Runs -/

/-- How many bytes in front belong to a class. -/
def runLength (belongs : UInt8 → Bool) (bytes : List UInt8) : Nat :=
  (bytes.takeWhile belongs).length

theorem runLength_le (belongs : UInt8 → Bool) (bytes : List UInt8) :
    runLength belongs bytes ≤ bytes.length :=
  (List.takeWhile_sublist belongs).length_le

end Lexis.Scan
