/-
This file reads the numbers and dates of a configuration text. Integers have 64 bits,
and a decimal too large to be a floating-point number is refused, as are days and times
that no calendar or clock shows.
-/

import Lexis.Decimal.Rounding
import Lexis.Toml.Strings
import Lexis.Toml.Value

namespace Lexis.Toml

open Reader

/-! ### Integers -/

/-- Reads digits, which single underscores may group. -/
def digits (belongs : Char → Bool) : Reader (List Char) := fun chars => do
  let grouped : Reader Char := fun chars => do
    let (_, rest) ← text "_" chars
    one belongs rest
  let (first, rest) ← one belongs chars
  let (others, rest) := many (orElse (one belongs) grouped) rest
  return (first :: others, rest)

/-- Reads a sign, if there is one, and tells whether it is a minus. -/
def sign (chars : List Char) : Bool × List Char :=
  match chars with
  | '-' :: rest => (true, rest)
  | '+' :: rest => (false, rest)
  | _ => (false, chars)

/-- Reads a decimal integer, which has no leading zero. -/
def wholeNumber : Reader (Bool × List Char) := fun chars => do
  let (negative, rest) := sign chars
  match rest with
  | '0' :: rest => return ((negative, ['0']), rest)
  | _ =>
    let (found, rest) ← digits isDecimal rest
    return ((negative, found), rest)

/-- An integer of 64 bits. -/
def integerNode? (n : Int) : Option Node :=
  if Int64.minValue.toInt ≤ n && n ≤ Int64.maxValue.toInt then some (.integer n) else none

/-- Reads an integer in the radix of its mark. -/
def markedInteger (mark : String) (radix : Nat) (belongs : Char → Bool) : Reader Node :=
  fun chars => do
    let (_, rest) ← text mark chars
    let (found, rest) ← digits belongs rest
    return (← integerNode? (number radix found), rest)

def integer : Reader Node :=
  orElse (markedInteger "0x" 16 isHex) <|
    orElse (markedInteger "0o" 8 fun c => '0' ≤ c && c ≤ '7') <|
      orElse (markedInteger "0b" 2 fun c => c = '0' || c = '1') fun chars => do
        let ((negative, found), rest) ← wholeNumber chars
        let n : Int := number 10 found
        return (← integerNode? (if negative then -n else n), rest)

/-! ### Floating-point numbers -/

/-- Reads a point and the digits behind it. -/
def fraction : Reader (List Char) := fun chars => do
  let (_, rest) ← text "." chars
  digits isDecimal rest

/-- Reads an exponent. -/
def exponent : Reader Int := fun chars => do
  let (_, rest) ← one (fun c => c = 'e' || c = 'E') chars
  let (negative, rest) := sign rest
  let (found, rest) ← digits isDecimal rest
  let n : Int := number 10 found
  return (if negative then -n else n, rest)

/-- Reads a decimal with a fraction, an exponent, or both. -/
def decimal : Reader Node := fun chars => do
  let ((negative, whole), rest) ← wholeNumber chars
  let (behind, rest) := optional fraction rest
  let (power, rest) := optional exponent rest
  if behind.isNone && power.isNone then none
  let places := behind.getD []
  let x := Binary64.ofDecimal (number 10 (whole ++ places)) (power.getD 0 - places.length)
  if negative then return (.float x.neg, rest)
  else if x = Binary64.infinity then none
  else return (.float x, rest)

/-- Reads one of the numbers that have names. -/
def namedNumber : Reader Node := fun chars =>
  let (negative, rest) := sign chars
  let withSign (x : Binary64) : Binary64 := if negative then x.neg else x
  match text "inf" rest with
  | some (_, rest) => some (.float (withSign .infinity), rest)
  | none =>
    match text "nan" rest with
    | some (_, rest) => some (.float (withSign ⟨0x7FF8000000000000⟩), rest)
    | none => none

/-! ### Dates and times -/

/-- Reads a number of so many digits that lies in a range. -/
def field (count low high : Nat) : Reader Nat := fun chars => do
  let (found, rest) ← exactly count isDecimal chars
  let n := number 10 found
  if low ≤ n && n ≤ high then return (n, rest) else none

/-- How many days a month has. -/
def monthLength (year month : Nat) : Nat :=
  if month = 2 then
    if year % 4 = 0 && (year % 100 ≠ 0 || year % 400 = 0) then 29 else 28
  else if month = 4 || month = 6 || month = 9 || month = 11 then 30
  else 31

def date : Reader Unit := fun chars => do
  let (year, rest) ← field 4 0 9999 chars
  let (_, rest) ← text "-" rest
  let (month, rest) ← field 2 1 12 rest
  let (_, rest) ← text "-" rest
  let (_, rest) ← field 2 1 (monthLength year month) rest
  return ((), rest)

/-- Reads a time of day. A minute may end in a leap second. -/
def time : Reader Unit := fun chars => do
  let (_, rest) ← field 2 0 23 chars
  let (_, rest) ← text ":" rest
  let (_, rest) ← field 2 0 59 rest
  let (_, rest) ← text ":" rest
  let (_, rest) ← field 2 0 60 rest
  let secondFraction : Reader Unit := fun chars => do
    let (_, rest) ← text "." chars
    let (_, rest) ← one isDecimal rest
    return ((), (run isDecimal rest).2)
  return ((), (optional secondFraction rest).2)

/-- Reads the difference from universal time. -/
def offset : Reader Unit := fun chars =>
  match chars with
  | 'Z' :: rest | 'z' :: rest => some ((), rest)
  | '+' :: rest | '-' :: rest => do
    let (_, rest) ← field 2 0 23 rest
    let (_, rest) ← text ":" rest
    let (_, rest) ← field 2 0 59 rest
    return ((), rest)
  | _ => none

/-- Reads a date, a time, or both with a letter or a space between them. -/
def dateTime : Reader Node := fun chars =>
  match date chars with
  | some (_, rest) =>
    let timeBehind : Reader Unit := fun chars => do
      let (_, rest) ← one (fun c => c = 'T' || c = 't' || c = ' ') chars
      let (_, rest) ← time rest
      return ((), (optional offset rest).2)
    some (.dateTime, (optional timeBehind rest).2)
  | none => (time chars).map fun answer => (.dateTime, answer.2)

end Lexis.Toml
