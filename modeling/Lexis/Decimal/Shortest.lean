/-
This file writes a floating-point number in the fewest decimal digits that still
read back as it. The numbers that read back as `x` are those between the middles
of the gaps below and above it, the ends included when the last bit of `x` is
zero. The grids of multiples of `10 ^ k` are tried from coarse to fine; on each of
them only the two neighbours of `x` need a look, because any other point of the
interval has one of them between itself and `x`. The first grid that meets the
interval gives the digits, and of two neighbours inside the nearer is taken.
-/

import Lexis.Decimal.Binary64

namespace Lexis.Decimal

/-- Where two neighbours are equally near. -/
inductive Tie where
  | toEven
  | up
  deriving DecidableEq, Repr

/-- The positive decimal `digits * 10 ^ exponent`. -/
structure Digits where
  digits : Nat
  exponent : Int
  deriving DecidableEq, Repr

/-! ### The interval -/

/-- A positive number with the interval that reads back as it. All three are in
units of `2 ^ unit`, a quarter of the last bit, so that the middles are integers. -/
structure Target where
  low : Nat
  value : Nat
  high : Nat
  unit : Int
  closed : Bool
  deriving DecidableEq, Repr

/-- The interval around `significand * 2 ^ exponent`. Just below a power of two the
numbers lie twice as close, unless there is no smaller exponent. -/
def Target.around (significand : Nat) (exponent : Int) : Target where
  low :=
    if significand = Binary64.leadingBit && Binary64.minExponent < exponent then 4 * significand - 1
    else 4 * significand - 2
  value := 4 * significand
  high := 4 * significand + 2
  unit := exponent - 2
  closed := significand % 2 = 0

/-- A target on the grid of `10 ^ k`: `low`, `value` and `high` are now counts of
grid steps, each divided by `step`. -/
structure Gridded where
  low : Nat
  value : Nat
  high : Nat
  step : Nat
  closed : Bool
  deriving DecidableEq, Repr

/-- Multiplies the powers of two and of ten out to the side where they are
integers. -/
def Target.onGrid (target : Target) (k : Int) : Gridded :=
  let up := Nat.pow 2 target.unit.toNat * Nat.pow 10 (-k).toNat
  { low := target.low * up
    value := target.value * up
    high := target.high * up
    step := Nat.pow 2 (-target.unit).toNat * Nat.pow 10 k.toNat
    closed := target.closed }

namespace Gridded

/-- Whether the grid point reads back. -/
def accepts (g : Gridded) (point : Nat) : Bool :=
  let n := point * g.step
  if g.closed then g.low ≤ n && n ≤ g.high else g.low < n && n < g.high

/-- Whether of the neighbours `point` and `point + 1` the upper one is written. -/
def takesUpper (g : Gridded) (tie : Tie) (point : Nat) : Bool :=
  let below := g.value - point * g.step
  let above := (point + 1) * g.step - g.value
  if above < below then true
  else if below < above then false
  else match tie with
    | .up => true
    | .toEven => point % 2 = 1

/-- The point of the grid that is written, if one reads back. -/
def choose? (g : Gridded) (tie : Tie) : Option Nat :=
  let point := g.value / g.step
  match g.accepts point, g.accepts (point + 1) with
  | true, true => some (if g.takesUpper tie point then point + 1 else point)
  | true, false => some point
  | false, true => some (point + 1)
  | false, false => none

end Gridded

/-! ### The search -/

/-- Tries the grids from `10 ^ k` down, the given number of times. -/
def search (target : Target) (tie : Tie) : Nat → Int → Option Digits
  | 0, _ => none
  | tries + 1, k =>
    match (target.onGrid k).choose? tie with
    | some point => some ⟨point, k⟩
    | none => search target tie tries (k - 1)

/-- No floating-point number reaches the next power of ten, and the grid of the
last one is finer than any gap between two of them. -/
def coarsest : Int := 309

def finest : Int := -324

/-- The fewest digits that read back as `significand * 2 ^ exponent`. -/
def shortest (significand : Nat) (exponent : Int) (tie : Tie) : Digits :=
  (search (.around significand exponent) tie (coarsest - finest + 1).toNat coarsest).getD
    ⟨0, 0⟩

example : shortest 1 (-1074) .toEven = ⟨5, -324⟩ := by decide +kernel
example : shortest 0x13333333333333 (-54) .toEven = ⟨3, -1⟩ := by decide +kernel
example : shortest Binary64.leadingBit (-77) .toEven = ⟨29802322387695312, -24⟩ := by decide +kernel
example : shortest Binary64.leadingBit (-77) .up = ⟨29802322387695313, -24⟩ := by decide +kernel

end Lexis.Decimal
