/-
This file finds the floating-point number nearest to a decimal. The decimal is a
quotient of two integers, and the only rounding is one integer division: the
quotient is scaled by a power of two until its integer part has fifty-three bits
(fewer, where the numbers run out of exponents), and that part is rounded to the
nearest integer, a half going to the even one. The pattern is then that integer
added to the exponent field, and a carry out of the fraction moves the exponent by
itself.
-/

import Lexis.Decimal.Binary64

namespace Lexis.Binary64

/-! ### Division -/

/-- The integer nearest to a quotient; a half goes to the even neighbour. -/
def divNearest (num den : Nat) : Nat :=
  let whole := num / den
  let rest := num % den
  if 2 * rest < den then whole
  else if den < 2 * rest then whole + 1
  else whole + whole % 2

/-- A quotient scaled by a power of two, as a pair of integers. -/
def scaled (num den : Nat) (shift : Int) : Nat × Nat :=
  if 0 ≤ shift then (num * Nat.pow 2 shift.toNat, den)
  else (num, den * Nat.pow 2 (-shift).toNat)

/-! ### The nearest number -/

/-- The exponent at which a positive quotient has fifty-three bits before the
point: the bit lengths give it but for one place, which a comparison settles. -/
def exponentOf (num den : Nat) : Int :=
  let guess : Int := (Nat.log2 num : Int) - Nat.log2 den
  let (upper, lower) := scaled num den (-guess)
  let top := if upper < lower then guess - 1 else guess
  max (top - 52) minExponent

/-- The number nearest to a quotient of integers, infinite past the largest. -/
def ofRatio (num den : Nat) : Binary64 :=
  if num = 0 then zero
  else
    let exponent := exponentOf num den
    let (upper, lower) := scaled num den (-exponent)
    let magnitude := divNearest upper lower + (exponent - minExponent).toNat * leadingBit
    if infinityBits ≤ magnitude then infinity else ⟨UInt64.ofNat magnitude⟩

/-- The number nearest to `digits * 10 ^ exponent`. Exponents that leave the range
whatever the digits are settled beforehand, so that no power of ten is larger than
the text that asked for it. -/
def ofDecimal (digits : Nat) (exponent : Int) : Binary64 :=
  if digits = 0 then zero
  else if 310 < exponent then infinity
  else if 0 ≤ exponent then ofRatio (digits * Nat.pow 10 exponent.toNat) 1
  else if (Nat.log2 digits : Int) + 1200 < -exponent then zero
  else ofRatio digits (Nat.pow 10 (-exponent).toNat)

/-- The same number with the other sign. -/
def neg (x : Binary64) : Binary64 := ⟨x.bits ^^^ 0x8000000000000000⟩

example : ofDecimal 1 0 = ⟨0x3FF0000000000000⟩ := by decide +kernel
example : ofDecimal 3 (-1) = ⟨0x3FD3333333333333⟩ := by decide +kernel
example : ofDecimal 5 (-324) = ⟨1⟩ := by decide +kernel
example : ofDecimal 17976931348623157 292 = ⟨0x7FEFFFFFFFFFFFFF⟩ := by decide +kernel
example : ofDecimal 17976931348623159 292 = infinity := by decide +kernel

end Lexis.Binary64
