/-
This file reads numbers. A number is an integer, in decimal, in octal behind a
leading zero, or in the radix that `0x`, `0o` or `0b` names, or it is decimal with a
point and then stands for the nearest floating-point number. First the extent of the
number is found, by classes of bytes alone, and then its digits are read; so digits
that do not fit make one illegal token and not two tokens. Underscores may group
digits, one at a time and with a digit on each side; behind the mark of a radix one
may also come first.
-/

import Lexis.Decimal.Rounding
import Lexis.Scan.Bytes
import Lexis.Scan.Scanned

namespace Lexis.Scan

/-! ### Digits -/

/-- The value of a digit of any radix up to thirty-six. -/
def digitValue? (b : UInt8) : Option Nat :=
  if 0x30 ≤ b && b ≤ 0x39 then some (b.toNat - 0x30)
  else if 0x41 ≤ b && b ≤ 0x5A then some (b.toNat - 0x41 + 10)
  else if 0x61 ≤ b && b ≤ 0x7A then some (b.toNat - 0x61 + 10)
  else none

/-- The value of a digit of the radix. -/
def digit? (radix : Nat) (b : UInt8) : Option Nat :=
  (digitValue? b).filter (· < radix)

/-- Whether the bytes begin with a digit of the radix. -/
def beginsWithDigit (radix : Nat) (bytes : List UInt8) : Bool :=
  match bytes with
  | [] => false
  | b :: _ => (digit? radix b).isSome

/-- The digits of a run without its separators, or nothing if a byte is no digit or a
separator is misplaced. The flag tells whether a separator may come next. -/
def readDigits (radix : Nat) : Bool → List UInt8 → Option (List Nat)
  | _, [] => some []
  | separable, b :: rest =>
    if b = underscore then
      if separable && beginsWithDigit radix rest then readDigits radix false rest else none
    else
      match digit? radix b with
      | some d => (readDigits radix true rest).map (d :: ·)
      | none => none

/-- The number that digits stand for, the first weighing most. -/
def positional (radix : Nat) (digits : List Nat) : Nat :=
  digits.foldl (fun n d => n * radix + d) 0

/-! ### Values -/

/-- Integers lie below this bound, the first that a signed word does not hold. -/
def integerBound : Nat := 0x8000000000000000

/-- The integer of a run of digits. -/
def integer (radix : Nat) (separable : Bool) (run : List UInt8) :
    Except Fault (Kind × Value) :=
  match readDigits radix separable run with
  | none | some [] => .error .badInteger
  | some digits =>
    let n := positional radix digits
    if n < integerBound then .ok (.int, .int (Int64.ofNat n)) else .error .badInteger

/-- The number of two runs of decimal digits with a point between them. One of the
runs may be empty. -/
def pointed (whole fraction : List UInt8) : Except Fault (Kind × Value) :=
  match readDigits 10 false whole, readDigits 10 false fraction with
  | some before, some behind =>
    if before.isEmpty && behind.isEmpty then .error .badFloat
    else
      let n := positional 10 (before ++ behind)
      .ok (.float, .float (Binary64.ofDecimal n (-(behind.length : Int))))
  | _, _ => .error .badFloat

/-! ### Extents -/

/-- The radix that a mark names. -/
def radixOfMark? (b : UInt8) : Option Nat :=
  if b = 0x78 || b = 0x58 then some 16
  else if b = 0x6F || b = 0x4F then some 8
  else if b = 0x62 || b = 0x42 then some 2
  else none

/-- The radix of a number that begins with a zero and a mark. -/
def markedRadix? : List UInt8 → Option Nat
  | b :: mark :: _ => if b = 0x30 then radixOfMark? mark else none
  | _ => none

/-- The radix of a number without a mark: octal behind a leading zero. -/
def plainRadix (run : List UInt8) : Nat :=
  if 1 < run.length && run.head? = some 0x30 then 8 else 10

/-- Reads a number, at a digit or at a point with a digit behind it. -/
def number (bytes : List UInt8) : Scanned :=
  match markedRadix? bytes with
  | some radix =>
    let run := (bytes.drop 2).takeWhile isWordByte
    ⟨integer radix true run, 2 + run.length⟩
  | none =>
    let whole := bytes.takeWhile isDigitOrSeparator
    let behind := bytes.drop whole.length
    if behind.head? = some dot then
      let fraction := (behind.drop 1).takeWhile isDigitOrSeparator
      ⟨pointed whole fraction, whole.length + 1 + fraction.length⟩
    else ⟨integer (plainRadix whole) false whole, whole.length⟩

example : (number [0x30, 0x78, 0x5F, 0x66]).outcome = .ok (.int, .int 15) := by cbv
example : (number [0x30, 0x39]).outcome = .error .badInteger := by cbv

/-! ### Sizes -/

theorem number_size_le (bytes : List UInt8) : (number bytes).size ≤ bytes.length := by
  unfold number
  split
  · rename_i radix marked
    match bytes with
    | [] | [_] => simp [markedRadix?] at marked
    | b :: mark :: rest =>
      have run : (rest.takeWhile isWordByte).length ≤ rest.length := runLength_le _ _
      simp only [List.drop_succ_cons, List.drop_zero, List.length_cons]
      omega
  · have whole : (bytes.takeWhile isDigitOrSeparator).length ≤ bytes.length := runLength_le _ _
    dsimp only
    split
    · rename_i pointBehind
      generalize (bytes.takeWhile isDigitOrSeparator).length = size at *
      have fraction :
          (((bytes.drop size).drop 1).takeWhile isDigitOrSeparator).length ≤
            ((bytes.drop size).drop 1).length := runLength_le _ _
      have nonempty : bytes.drop size ≠ [] := by
        intro nothing
        simp [nothing] at pointBehind
      have left := List.length_pos_iff.mpr nonempty
      simp only [List.length_drop] at fraction left
      dsimp only
      omega
    · exact whole

/-- A number takes up its first byte at least. -/
theorem number_size_pos {b : UInt8} {rest : List UInt8}
    (begins : isDigit b = true ∨ b = dot) : 0 < (number (b :: rest)).size := by
  unfold number
  split
  · dsimp only
    omega
  · dsimp only
    split
    · dsimp only
      omega
    · rename_i noPoint
      cases begins with
      | inl digit => simp [isDigitOrSeparator, digit]
      | inr point =>
        subst point
        simp [isDigitOrSeparator, isDigit, dot, underscore] at noPoint

end Lexis.Scan
