/-
This file holds the 64-bit binary floating-point numbers as what they are in
memory: one bit of sign, eleven of exponent, fifty-two of fraction. The library
never computes with them. It reads a decimal into the nearest of them and writes
one back in the fewest digits, and both need only the number behind the bits,
which is an integer times a power of two.
-/

namespace Lexis

/-- A floating-point number, kept as its bit pattern. -/
structure Binary64 where
  bits : UInt64
  deriving DecidableEq, Repr, Inhabited

namespace Binary64

/-- What a bit pattern stands for. A finite number is `significand * 2 ^ exponent`,
with its sign apart so that zero has two. -/
inductive Meaning where
  | notANumber
  | infinite (negative : Bool)
  | finite (negative : Bool) (significand : Nat) (exponent : Int)
  deriving DecidableEq, Repr

/-- The smallest exponent, that of the subnormal numbers and of the first normal
ones. -/
def minExponent : Int := -1074

/-- The weight of the sign in a pattern. -/
def signBit : Nat := 0x8000000000000000

/-- The weight of the lowest bit of the exponent field, and the bit that a normal
number has in front of its fraction. -/
def leadingBit : Nat := 0x10000000000000

def isNegative (x : Binary64) : Bool := signBit ≤ x.bits.toNat

/-- The pattern without its sign. Among finite numbers it grows with them. -/
def magnitudeBits (x : Binary64) : Nat := x.bits.toNat % signBit

/-- The magnitude bits of infinity; every finite number has smaller ones. -/
def infinityBits : Nat := 0x7FF0000000000000

def meaning (x : Binary64) : Meaning :=
  let field : Nat := x.magnitudeBits / leadingBit
  let fraction : Nat := x.magnitudeBits % leadingBit
  if field = 0x7FF then
    if fraction = 0 then .infinite x.isNegative else .notANumber
  else if field = 0 then .finite x.isNegative fraction minExponent
  else .finite x.isNegative (leadingBit + fraction) (minExponent + ((field - 1 : Nat) : Int))

/-- Neither infinite nor the result of an undefined operation. -/
def isFinite (x : Binary64) : Bool := x.magnitudeBits < infinityBits

def zero : Binary64 := ⟨0⟩

def infinity : Binary64 := ⟨UInt64.ofNat infinityBits⟩

end Binary64

end Lexis
