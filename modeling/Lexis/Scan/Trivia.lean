/-
This file measures what lies between tokens. It is made of elements: a blank byte,
a comment from `//` to the end of its line, or a comment from `/*` to the first `*/`
behind it. A comment that is not closed reaches to the end of the source, and that
is no error. Elements are measured one at a time, and every element is at least one
byte long, so skipping them all comes to an end.
-/

import Lexis.Scan.Bytes
import Lexis.Source.Position

namespace Lexis.Scan

/-! ### One element -/

/-- The rest of a line, with the line feed if there is one. -/
def lineRestSize (bytes : List UInt8) : Nat :=
  min (runLength (· ≠ lineFeed) bytes + 1) bytes.length

/-- The rest of a block comment behind its opening, with the closing `*/` if there
is one. -/
def blockRestSize : List UInt8 → Nat
  | [] => 0
  | b :: rest =>
    if b = star && rest.head? = some slash then 2 else 1 + blockRestSize rest

/-- The size of the element that the bytes begin with, zero if they begin with
none. A slash before any other byte is an operator. -/
def elementSize : List UInt8 → Nat
  | [] => 0
  | b :: rest =>
    if isBlank b then 1
    else if b = slash then
      match rest with
      | [] => 0
      | c :: body =>
        if c = slash then 2 + lineRestSize body
        else if c = star then 2 + blockRestSize body
        else 0
    else 0

theorem blockRestSize_le (bytes : List UInt8) : blockRestSize bytes ≤ bytes.length := by
  induction bytes with
  | nil => exact Nat.le_refl 0
  | cons b rest inductionHypothesis =>
    unfold blockRestSize
    split
    · rename_i closing
      cases rest with
      | nil => simp at closing
      | cons c behind => simp
    · simp only [List.length_cons]
      omega

theorem elementSize_le (bytes : List UInt8) : elementSize bytes ≤ bytes.length := by
  match bytes with
  | [] => exact Nat.le_refl 0
  | [b] =>
    simp only [elementSize]
    split <;> simp
  | b :: c :: body =>
    have line : lineRestSize body ≤ body.length := Nat.min_le_right _ _
    have block := blockRestSize_le body
    simp only [elementSize, List.length_cons]
    split
    · omega
    · split
      · split
        · omega
        · split <;> omega
      · omega

/-! ### All elements -/

/-- The size of everything in front of the next token. -/
def triviaSize (bytes : List UInt8) : Nat :=
  let size := elementSize bytes
  if 0 < size then size + triviaSize (bytes.drop size) else 0
termination_by bytes.length
decreasing_by
  have bound := elementSize_le bytes
  simp only [List.length_drop]
  omega

theorem triviaSize_le (bytes : List UInt8) : triviaSize bytes ≤ bytes.length := by
  fun_induction triviaSize bytes with
  | case1 bytes size positive inductionHypothesis =>
    have bound := elementSize_le bytes
    simp only [List.length_drop] at inductionHypothesis
    omega
  | case2 bytes size none => exact Nat.zero_le _

/-- What remains behind the trivia begins with no further element. -/
theorem elementSize_drop_triviaSize (bytes : List UInt8) :
    elementSize (bytes.drop (triviaSize bytes)) = 0 := by
  fun_induction triviaSize bytes with
  | case1 bytes size positive inductionHypothesis =>
    rwa [List.drop_drop] at inductionHypothesis
  | case2 bytes size none =>
    simp only [List.drop_zero]
    omega

example : triviaSize [0x20, 0x2F, 0x2A, 0x2F, 0x2A, 0x2F, 0x09, 0x78] = 7 := by decide +kernel

end Lexis.Scan
