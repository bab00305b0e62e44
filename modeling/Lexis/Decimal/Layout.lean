/-
This file lays the digits of a number out as text. The digits come from the
shortest search; a layout decides which exponents are written with the point in
place and which in scientific form, whether a positive exponent shows its sign,
and which way a tie between two shortest texts goes. In place there is always a
digit on both sides of the point; in scientific form there is a point only if a
second digit follows.
-/

import Lexis.Decimal.Shortest

namespace Lexis.Decimal

/-- The decisions of one output format about floating-point numbers. -/
structure Layout where
  /-- The smallest scientific exponent that is written with the point in place. -/
  plainFrom : Int
  /-- The largest scientific exponent that is written with the point in place. -/
  plainTo : Int
  /-- Whether a positive exponent is written with its sign. -/
  plusSign : Bool
  tie : Tie
  deriving DecidableEq, Repr

/-- Digits with the point in place, for a number whose first digit has the weight
`10 ^ exponent`. -/
def plainText (digits : List Char) (exponent : Int) : List Char :=
  if exponent < 0 then
    ['0', '.'] ++ List.replicate (-exponent - 1).toNat '0' ++ digits
  else
    let before := exponent.toNat + 1
    let whole := digits.take before ++ List.replicate (before - digits.length) '0'
    let fraction := digits.drop before
    whole ++ '.' :: (if fraction.isEmpty then ['0'] else fraction)

/-- Digits with the point after the first and the exponent behind an `e`. -/
def scientificText (digits : List Char) (exponent : Int) (plusSign : Bool) : List Char :=
  let fraction := digits.drop 1
  let mantissa := digits.take 1 ++ (if fraction.isEmpty then [] else '.' :: fraction)
  let sign := if exponent < 0 then ['-'] else if plusSign then ['+'] else []
  mantissa ++ 'e' :: sign ++ Nat.toDigits 10 exponent.natAbs

namespace Layout

/-- The text of a positive decimal. -/
def digitsText (layout : Layout) (d : Digits) : List Char :=
  let digits := Nat.toDigits 10 d.digits
  let exponent := d.exponent + digits.length - 1
  if layout.plainFrom ≤ exponent && exponent ≤ layout.plainTo then plainText digits exponent
  else scientificText digits exponent layout.plusSign

/-- The text of a finite number. Zero keeps its sign. -/
def finiteText (layout : Layout) (negative : Bool) (significand : Nat) (exponent : Int) :
    String :=
  let magnitude :=
    if significand = 0 then ['0', '.', '0']
    else layout.digitsText (shortest significand exponent layout.tie)
  String.ofList (if negative then '-' :: magnitude else magnitude)

end Layout

end Lexis.Decimal
