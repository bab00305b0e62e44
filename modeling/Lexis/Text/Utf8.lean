/-
This file turns text into UTF-8 bytes and bytes back into text. Bytes come from
files and need not be valid, so the decoder never fails: it reads well-formed
sequences as their characters and writes one U+FFFD for every maximal piece that
could still have begun a well-formed sequence, and for every byte that could not.
The decoder is a fold of a state machine over the bytes, with one state for
"between characters" and one for "inside a character".
-/

namespace Lexis.Text

/-- The UTF-8 bytes of a text. -/
def utf8 (text : String) : List UInt8 :=
  text.toList.flatMap String.utf8EncodeChar

theorem utf8_append (first second : String) :
    utf8 (first ++ second) = utf8 first ++ utf8 second := by
  simp [utf8]

/-- What stands for a piece of input that is no character. -/
def replacement : Char := '\uFFFD'

/-! ### The decoder -/

/-- A character that has begun: the bits read so far, how many bytes are still
to come, and the range the next of them must lie in. -/
structure PartialChar where
  bits : Nat
  missing : Nat
  low : UInt8
  high : UInt8
  deriving DecidableEq, Repr

/-- The characters of two and more bytes that a first byte can begin. The ranges
for the second byte shut out overlong forms, surrogates, and values past
U+10FFFF. -/
def PartialChar.start? (lead : UInt8) : Option PartialChar :=
  if lead < 0xC2 then none
  else if lead < 0xE0 then some ⟨lead.toNat - 0xC0, 1, 0x80, 0xBF⟩
  else if lead = 0xE0 then some ⟨0, 2, 0xA0, 0xBF⟩
  else if lead = 0xED then some ⟨0xD, 2, 0x80, 0x9F⟩
  else if lead < 0xF0 then some ⟨lead.toNat - 0xE0, 2, 0x80, 0xBF⟩
  else if lead = 0xF0 then some ⟨0, 3, 0x90, 0xBF⟩
  else if lead < 0xF4 then some ⟨lead.toNat - 0xF0, 3, 0x80, 0xBF⟩
  else if lead = 0xF4 then some ⟨4, 3, 0x80, 0x8F⟩
  else none

/-- Reads a byte between two characters. -/
def decodeFirst (b : UInt8) : List Char × Option PartialChar :=
  if b < 0x80 then ([Char.ofNat b.toNat], none)
  else match PartialChar.start? b with
    | some begun => ([], some begun)
    | none => ([replacement], none)

/-- Reads a byte in any state: the characters it completes, and the new state.
A byte that does not continue the character begun ends it as one replacement
and is then read afresh. -/
def decodeByte : Option PartialChar → UInt8 → List Char × Option PartialChar
  | none, b => decodeFirst b
  | some begun, b =>
    if begun.low ≤ b && b ≤ begun.high then
      let bits := begun.bits * 64 + (b.toNat - 0x80)
      if begun.missing ≤ 1 then ([Char.ofNat bits], none)
      else ([], some ⟨bits, begun.missing - 1, 0x80, 0xBF⟩)
    else
      let (chars, next) := decodeFirst b
      (replacement :: chars, next)

/-- The characters of a byte sequence that is entered in the given state. -/
def decodeFrom : Option PartialChar → List UInt8 → List Char
  | none, [] => []
  | some _, [] => [replacement]
  | state, b :: rest =>
    let (chars, next) := decodeByte state b
    chars ++ decodeFrom next rest

/-- The text of any byte sequence. -/
def decodeLossy (bytes : List UInt8) : String :=
  String.ofList (decodeFrom none bytes)

/-- The text of bytes that are valid UTF-8, and nothing for others: only of valid
bytes is the text encoded as the same bytes again. -/
def decode? (bytes : List UInt8) : Option String :=
  let text := decodeLossy bytes
  if utf8 text = bytes then some text else none

/-- ASCII bytes are read as themselves, whatever follows. -/
theorem decodeFrom_ascii {b : UInt8} (ascii : b < 0x80) (rest : List UInt8) :
    decodeFrom none (b :: rest) = Char.ofNat b.toNat :: decodeFrom none rest := by
  simp [decodeFrom, decodeByte, decodeFirst, ascii]

example : decodeLossy [0x61, 0xE2, 0x82, 0x62] = "a\uFFFDb" := by decide +kernel
example : decodeLossy [0xF0, 0x80, 0x80] = "\uFFFD\uFFFD\uFFFD" := by decide +kernel

end Lexis.Text
