/-
This file reads one token of any sort. The first byte decides what it is, and only a
point needs a look at the next one. At the end of the source the token is the end
itself, with no bytes; any other takes up at least one byte and no more than there
are, which is what lets reading token by token come to an end.
-/

import Lexis.Scan.Number
import Lexis.Scan.Quoted
import Lexis.Scan.Symbol
import Lexis.Scan.Word

namespace Lexis.Scan

/-- Reads the token that the bytes begin with. -/
def front (bytes : List UInt8) : Scanned :=
  match bytes with
  | [] => .token .eof .none 0
  | b :: rest =>
    if isWordStart b then word bytes
    else if isDigit b || (b = dot && beginsWithDigit 10 rest) then number bytes
    else if b = apostrophe then charLiteral bytes
    else if b = quote then stringLiteral bytes
    else symbol bytes

/-- The choice of a scanner, in a source that goes on behind the bytes. -/
theorem front_cons_append (b : UInt8) (rest behind : List UInt8) :
    front (b :: rest ++ behind) =
      if isWordStart b then word (b :: rest ++ behind)
      else if isDigit b || (b = dot && beginsWithDigit 10 (rest ++ behind)) then
        number (b :: rest ++ behind)
      else if b = apostrophe then charLiteral (b :: rest ++ behind)
      else if b = quote then stringLiteral (b :: rest ++ behind)
      else symbol (b :: rest ++ behind) := rfl

/-! ### Sizes -/

/-- No token reaches past the end of the source. -/
theorem front_size_le (bytes : List UInt8) : (front bytes).size ≤ bytes.length := by
  match bytes with
  | [] => exact Nat.le_refl 0
  | b :: rest =>
    have nonempty : b :: rest ≠ [] := List.cons_ne_nil b rest
    unfold front
    dsimp only
    split
    · exact runLength_le isWordByte _
    · split
      · exact number_size_le _
      · split
        · exact charLiteral_size_le nonempty
        · split
          · rw [stringLiteral_size]
            have body := stringBody_size_le rest
            simp only [List.drop_succ_cons, List.drop_zero, List.length_cons]
            omega
          · exact (symbol_size nonempty).2

/-- Before the end of the source every token has at least one byte. -/
theorem front_size_pos {bytes : List UInt8} (nonempty : bytes ≠ []) : 0 < (front bytes).size := by
  match bytes with
  | [] => exact absurd rfl nonempty
  | b :: rest =>
    unfold front
    dsimp only
    split
    · rename_i begins
      simp [word, Scanned.token, isWordByte, begins]
    · split
      · rename_i begins
        refine number_size_pos ?_
        simp only [Bool.or_eq_true, Bool.and_eq_true, decide_eq_true_eq] at begins
        exact begins.imp_right And.left
      · split
        · exact charLiteral_size_pos _
        · split
          · rw [stringLiteral_size]
            omega
          · exact (symbol_size nonempty).1

end Lexis.Scan
