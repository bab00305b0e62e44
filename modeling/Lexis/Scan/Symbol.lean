/-
This file reads operators and delimiters, and takes whatever begins no token. A symbol is
matched from its first byte on, and as long as the byte ahead makes a longer symbol of it
that byte is taken in. A byte that begins nothing is illegal, and if it begins a UTF-8
character, the rest of the character goes with it and is not reported again.
-/

import Lexis.Scan.Bytes
import Lexis.Scan.Scanned
import Lexis.Text.Utf8

namespace Lexis.Scan

/-! ### Matching

All functions count the bytes that are taken in behind the first byte of the symbol. -/

/-- Whether the byte ahead is the expected one, which is then taken in. Past the end there
are zeros. -/
def matchNext (bytes : List UInt8) (expected : UInt8) (taken : Nat) : Bool × Nat :=
  if bytes.getD (taken + 1) 0 = expected then (true, taken + 1) else (false, taken)

/-- The long symbol if its next byte is ahead, and else the short one. -/
def pick (bytes : List UInt8) (next : UInt8) (long short : Kind) (taken : Nat) : Kind × Nat :=
  match matchNext bytes next taken with
  | (true, taken) => (long, taken)
  | (false, taken) => (short, taken)

/-- The first of two long symbols whose next byte is ahead, and else the short one. -/
def pickOfTwo (bytes : List UInt8) (first : UInt8) (firstLong : Kind) (second : UInt8)
    (secondLong short : Kind) (taken : Nat) : Kind × Nat :=
  match matchNext bytes first taken with
  | (true, taken) => (firstLong, taken)
  | (false, taken) => pick bytes second secondLong short taken

/-- A symbol that can be doubled: with an equals sign behind it or without, in either case. -/
def pickDoubled (bytes : List UInt8) (again : UInt8) (doubledAssign doubled assign single : Kind)
    (taken : Nat) : Kind × Nat :=
  match matchNext bytes again taken with
  | (true, taken) => pick bytes 0x3D doubledAssign doubled taken
  | (false, taken) => pick bytes 0x3D assign single taken

/-- A symbol that is longer only if it is tripled: of two alike the second is not taken in. -/
def pickTripled (bytes : List UInt8) (again : UInt8) (tripled single : Kind) (taken : Nat) :
    Kind × Nat :=
  if bytes.getD (taken + 1) 0 = again && bytes.getD (taken + 2) 0 = again then
    (tripled, taken + 2)
  else (single, taken)

/-- The symbol that the bytes begin with, and how many bytes it has behind its first. -/
def matchSymbol? (bytes : List UInt8) : Option (Kind × Nat) :=
  match bytes.headD 0 with
  | 0x2B => some (pickOfTwo bytes 0x2B (.operator .inc) 0x3D (.operator .addAssign)
      (.operator .add) 0)
  | 0x2D => some (pickOfTwo bytes 0x2D (.operator .dec) 0x3D (.operator .subAssign)
      (.operator .sub) 0)
  | 0x2A => some (pickDoubled bytes 0x2A (.operator .powAssign) (.operator .pow)
      (.operator .mulAssign) (.operator .mul) 0)
  | 0x2F => some (pick bytes 0x3D (.operator .divAssign) (.operator .div) 0)
  | 0x25 => some (pick bytes 0x3D (.operator .modAssign) (.operator .mod) 0)
  | 0x26 => some (pickOfTwo bytes 0x26 (.operator .and) 0x3D (.operator .bitAndAssign)
      (.operator .bitAnd) 0)
  | 0x7C => some (pickOfTwo bytes 0x7C (.operator .or) 0x3D (.operator .bitOrAssign)
      (.operator .bitOr) 0)
  | 0x5E => some (pickOfTwo bytes 0x5E (.operator .xor) 0x3D (.operator .bitXorAssign)
      (.operator .bitXor) 0)
  | 0x7E => some (.operator .bitNot, 0)
  | 0x3C => some (pickDoubled bytes 0x3C (.operator .shiftLeftAssign) (.operator .shiftLeft)
      (.operator .lessEqual) (.operator .less) 0)
  | 0x3E => some (pickDoubled bytes 0x3E (.operator .shiftRightAssign) (.operator .shiftRight)
      (.operator .greaterEqual) (.operator .greater) 0)
  | 0x21 => some (pick bytes 0x3D (.operator .notEqual) (.operator .not) 0)
  | 0x3D => some (pick bytes 0x3D (.operator .equal) (.operator .assign) 0)
  | 0x2E => some (pickTripled bytes 0x2E (.delimiter .ellipsis) (.delimiter .dot) 0)
  | 0x3F => some (.operator .question, 0)
  | 0x28 => some (.delimiter .leftParen, 0)
  | 0x29 => some (.delimiter .rightParen, 0)
  | 0x7B => some (.delimiter .leftBrace, 0)
  | 0x7D => some (.delimiter .rightBrace, 0)
  | 0x5B => some (.delimiter .leftBracket, 0)
  | 0x5D => some (.delimiter .rightBracket, 0)
  | 0x2C => some (.delimiter .comma, 0)
  | 0x3A => some (.delimiter .colon, 0)
  | 0x3B => some (.delimiter .semicolon, 0)
  | _ => none

/-! ### Symbols and stray bytes -/

/-- How many bytes an illegal byte takes with it, itself included. -/
def straySize : List UInt8 → Nat
  | [] => 0
  | lead :: rest => if lead < 0xC0 then 1 else 1 + runLength isContinuation rest

/-- Reads a symbol, or the byte that begins nothing. -/
def symbol (bytes : List UInt8) : Scanned :=
  match matchSymbol? bytes with
  | some (kind, taken) => .token kind .none (taken + 1)
  | none => .fault .strayByte (straySize bytes)

/-! ### Sizes -/

theorem straySize_le (bytes : List UInt8) : straySize bytes ≤ bytes.length := by
  match bytes with
  | [] => exact Nat.le_refl 0
  | lead :: rest =>
    have run := runLength_le isContinuation rest
    simp only [straySize, List.length_cons]
    split <;> omega

section Matching

variable {bytes : List UInt8} {taken : Nat}

/-- A byte that is ahead is there, if it is not the zero that stands for none. -/
theorem lt_of_ahead {expected : UInt8} (visible : expected ≠ 0) {place : Nat}
    (ahead : bytes.getD place 0 = expected) : place < bytes.length := by
  refine Nat.lt_of_not_le fun past => visible ?_
  rw [← ahead, List.getD_eq_getElem?_getD, List.getElem?_eq_none past, Option.getD_none]

theorem matchNext_lt {expected : UInt8} (visible : expected ≠ 0) (inside : taken < bytes.length) :
    (matchNext bytes expected taken).2 < bytes.length := by
  unfold matchNext
  split
  · rename_i ahead
    exact lt_of_ahead visible ahead
  · exact inside

theorem pick_lt {next : UInt8} (visible : next ≠ 0) (long short : Kind)
    (inside : taken < bytes.length) : (pick bytes next long short taken).2 < bytes.length := by
  have bound := matchNext_lt visible inside
  unfold pick
  split <;> simp_all

theorem pickOfTwo_lt {first second : UInt8} (firstVisible : first ≠ 0) (secondVisible : second ≠ 0)
    (firstLong secondLong short : Kind) (inside : taken < bytes.length) :
    (pickOfTwo bytes first firstLong second secondLong short taken).2 < bytes.length := by
  have bound := matchNext_lt firstVisible inside
  unfold pickOfTwo
  split
  · simp_all
  · rename_i matched
    rw [matched] at bound
    exact pick_lt secondVisible secondLong short bound

theorem pickDoubled_lt {again : UInt8} (visible : again ≠ 0)
    (doubledAssign doubled assign single : Kind) (inside : taken < bytes.length) :
    (pickDoubled bytes again doubledAssign doubled assign single taken).2 < bytes.length := by
  have bound := matchNext_lt visible inside
  unfold pickDoubled
  split
  all_goals
    rename_i matched
    rw [matched] at bound
    exact pick_lt (by decide) _ _ bound

theorem pickTripled_lt {again : UInt8} (visible : again ≠ 0) (tripled single : Kind)
    (inside : taken < bytes.length) :
    (pickTripled bytes again tripled single taken).2 < bytes.length := by
  unfold pickTripled
  split
  · rename_i ahead
    exact lt_of_ahead visible (of_decide_eq_true (Bool.and_eq_true_iff.mp ahead).2)
  · exact inside

/-- A symbol does not reach past the end. -/
theorem matchSymbol?_lt {found : Kind × Nat} (matched : matchSymbol? bytes = some found) :
    found.2 < bytes.length := by
  cases bytes with
  | nil => exact nomatch matched
  | cons lead rest =>
    have inside : 0 < (lead :: rest).length := Nat.zero_lt_succ _
    unfold matchSymbol? at matched
    split at matched
    all_goals cases matched
    -- One alternative for each way to match.
    all_goals first
      | exact inside
      | exact pick_lt (by decide) _ _ inside
      | exact pickOfTwo_lt (by decide) (by decide) _ _ _ inside
      | exact pickDoubled_lt (by decide) _ _ _ _ inside
      | exact pickTripled_lt (by decide) _ _ inside

end Matching

theorem symbol_size {bytes : List UInt8} (nonempty : bytes ≠ []) :
    0 < (symbol bytes).size ∧ (symbol bytes).size ≤ bytes.length := by
  unfold symbol
  split
  · rename_i found
    exact ⟨Nat.succ_pos _, matchSymbol?_lt found⟩
  · refine ⟨?_, straySize_le bytes⟩
    match bytes with
    | [] => exact absurd rfl nonempty
    | lead :: rest =>
      simp only [Scanned.fault, straySize]
      split <;> omega

end Lexis.Scan
