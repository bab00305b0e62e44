/-
This file proves that the name hash of a text is a polynomial in its characters. The exact
integer has the seed and then the scalar values for digits, at base 33 and with the first
character in the highest place; the hash is that integer cut down to a signed word of 64 bits.
A step shifts bits out at the top and adds to a word that may already be negative, but every
operation of it is right modulo 2 ^ 64, so it does not matter how often a word has wrapped
before. What a text adds to a hash therefore does not depend on the hash that it is added to.

An addition that wraps does not fail. What could fail is a shift by too many places, or a
character that the word has no room for; so the hash is taken once more with steps that fail
there, and it never does.
-/

import Lexis.Text.Hash
import Mathlib.Algebra.BigOperators.Fin
import Mathlib.Data.Int.ModEq
import Mathlib.Tactic.Ring

namespace Lexis.Text

/-! ### Hashing without failure -/

/-- A shift upwards, unless it is as far as the word is wide. Bits may be lost at the top. -/
def shiftLeft? (h : Int64) (places : Nat) : Option Int64 :=
  if places < 64 then some (h <<< Int64.ofNat places) else none

/-- The scalar value of a character as a word, if the word has room for it. -/
def scalarWord? (c : Char) : Option Int64 :=
  if c.toNat < 2 ^ 63 then some (Int64.ofNat c.toNat) else none

/-- Takes one more character into a hash, if no operation fails. -/
def mixHash? (h : Int64) (c : Char) : Option Int64 := do
  let shifted ← shiftLeft? h 5
  let scalar ← scalarWord? c
  return shifted + h + scalar

/-- The hash of a text, if no operation fails on the way. -/
def nameHash? (text : String) : Option Int64 :=
  text.toList.foldlM mixHash? hashSeed

theorem toNat_lt_word (c : Char) : c.toNat < 2 ^ 63 :=
  c.val.toNat_lt.trans (by decide)

theorem mixHash?_eq_some (h : Int64) (c : Char) : mixHash? h c = some (mixHash h c) := by
  unfold mixHash? shiftLeft? scalarWord?
  rw [if_pos (by decide), if_pos (toNat_lt_word c)]
  rfl

theorem nameHash?_eq_some (text : String) : nameHash? text = some (nameHash text) := by
  unfold nameHash? nameHash
  generalize hashSeed = h
  induction text.toList generalizing h with
  | nil => rfl
  | cons c rest inductionHypothesis =>
    rw [List.foldlM_cons, mixHash?_eq_some]
    exact inductionHypothesis (mixHash h c)

/-! ### Words as residues -/

/-- A word is the signed residue of an integer just if it is congruent to it: no two words are
congruent. -/
theorem toInt_eq_bmod_iff {word : Int64} {n : ℤ} :
    word.toInt = n.bmod (2 ^ 64) ↔ word.toInt ≡ n [ZMOD 2 ^ 64] := by
  constructor
  · intro residue
    rw [residue]
    exact Int.bmod_emod
  · intro congruent
    calc word.toInt = word.toInt.bmod (2 ^ 64) := word.toInt_bmod.symm
      _ = (word.toInt % (2 ^ 64 : ℕ)).bmod (2 ^ 64) := (Int.emod_bmod _ _).symm
      _ = (n % (2 ^ 64 : ℕ)).bmod (2 ^ 64) := congrArg (Int.bmod · (2 ^ 64)) congruent
      _ = n.bmod (2 ^ 64) := Int.emod_bmod _ _

theorem toInt_add_modEq (first second : Int64) :
    (first + second).toInt ≡ first.toInt + second.toInt [ZMOD 2 ^ 64] :=
  toInt_eq_bmod_iff.mp (first.toInt_add second)

/-- The bits that a shift loses count for multiples of `2 ^ 64`, whatever the sign is. -/
theorem toInt_shiftLeft_modEq (h : Int64) :
    (h <<< 5).toInt ≡ h.toInt * 32 [ZMOD 2 ^ 64] := by
  have product : h <<< 5 = h * 32 := by
    apply Int64.toBitVec_inj.mp
    rw [Int64.toBitVec_shiftLeft, Int64.toBitVec_mul]
    exact BitVec.shiftLeft_eq_mul_twoPow h.toBitVec 5
  rw [product]
  exact toInt_eq_bmod_iff.mp (h.toInt_mul 32)

theorem toInt_scalar (c : Char) : (Int64.ofNat c.toNat).toInt = c.toNat :=
  Int64.toInt_ofNat_of_lt (toNat_lt_word c)

/-! ### The polynomial -/

/-- A step multiplies by 33 and adds the scalar value. -/
theorem toInt_mixHash_modEq (h : Int64) (c : Char) :
    (mixHash h c).toInt ≡ h.toInt * 33 + c.toNat [ZMOD 2 ^ 64] := by
  calc (mixHash h c).toInt
      ≡ (h <<< 5 + h).toInt + (Int64.ofNat c.toNat).toInt [ZMOD 2 ^ 64] := toInt_add_modEq _ _
    _ = (h <<< 5 + h).toInt + c.toNat := by rw [toInt_scalar]
    _ ≡ (h <<< 5).toInt + h.toInt + c.toNat [ZMOD 2 ^ 64] := (toInt_add_modEq _ _).add_right _
    _ ≡ h.toInt * 32 + h.toInt + c.toNat [ZMOD 2 ^ 64] :=
      ((toInt_shiftLeft_modEq h).add_right _).add_right _
    _ = h.toInt * 33 + c.toNat := by ring

/-- The scalar values of characters as digits at base 33, with the first in the highest
place. -/
def scalarSum (characters : List Char) : ℤ :=
  ∑ i : Fin characters.length,
    (characters[i].toNat : ℤ) * 33 ^ (characters.length - (i + 1))

/-- The integer that the hash of a text would be in a word without end: the seed, and below it
the scalar values. -/
def exactHash (text : String) : ℤ :=
  5381 * 33 ^ text.length + scalarSum text.toList

theorem scalarSum_cons (c : Char) (rest : List Char) :
    scalarSum (c :: rest) = c.toNat * 33 ^ rest.length + scalarSum rest := by
  unfold scalarSum
  refine (Fin.sum_univ_succ _).trans ?_
  simp

/-- Hashing goes on from any word as from the seed: the word moves up by one place for every
character. -/
theorem toInt_foldl_mixHash_modEq (h : Int64) (characters : List Char) :
    (characters.foldl mixHash h).toInt ≡
      h.toInt * 33 ^ characters.length + scalarSum characters [ZMOD 2 ^ 64] := by
  induction characters generalizing h with
  | nil => simp [scalarSum]
  | cons c rest inductionHypothesis =>
    calc (rest.foldl mixHash (mixHash h c)).toInt
        ≡ (mixHash h c).toInt * 33 ^ rest.length + scalarSum rest [ZMOD 2 ^ 64] :=
          inductionHypothesis _
      _ ≡ (h.toInt * 33 + c.toNat) * 33 ^ rest.length + scalarSum rest [ZMOD 2 ^ 64] :=
          ((toInt_mixHash_modEq h c).mul_right _).add_right _
      _ = h.toInt * 33 ^ (c :: rest).length + scalarSum (c :: rest) := by
          rw [scalarSum_cons, List.length_cons]
          ring

theorem toInt_nameHash_modEq (text : String) :
    (nameHash text).toInt ≡ exactHash text [ZMOD 2 ^ 64] := by
  rw [exactHash, ← String.length_toList]
  exact toInt_foldl_mixHash_modEq hashSeed text.toList

/-- A text that goes on adds its scalar values to the hash of its beginning, moved up. -/
theorem toInt_nameHash_append_modEq (first second : String) :
    (nameHash (first ++ second)).toInt ≡
      (nameHash first).toInt * 33 ^ second.length + scalarSum second.toList [ZMOD 2 ^ 64] := by
  rw [nameHash_append, ← String.length_toList]
  exact toInt_foldl_mixHash_modEq (nameHash first) second.toList

/-- The hash of a text is its exact hash cut down to a signed word, and no text is so long that
hashing it fails. So the hash of two texts in a row follows from their hashes and the length of
the second, which adds to any hash what it adds to the seed. -/
theorem nameHash_wraps_polynomial :
    (∀ text : String, nameHash? text = some (nameHash text) ∧
      (nameHash text).toInt = (exactHash text).bmod (2 ^ 64)) ∧
    ∀ first second : String,
      (nameHash (first ++ second)).toInt ≡
        (nameHash first).toInt * 33 ^ second.length + (nameHash second).toInt -
          5381 * 33 ^ second.length [ZMOD 2 ^ 64] := by
  constructor
  · intro text
    exact ⟨nameHash?_eq_some text, toInt_eq_bmod_iff.mpr (toInt_nameHash_modEq text)⟩
  · intro first second
    calc (nameHash (first ++ second)).toInt
        ≡ (nameHash first).toInt * 33 ^ second.length + scalarSum second.toList
            [ZMOD 2 ^ 64] := toInt_nameHash_append_modEq first second
      _ = (nameHash first).toInt * 33 ^ second.length + exactHash second -
            5381 * 33 ^ second.length := by
          unfold exactHash
          ring
      _ ≡ (nameHash first).toInt * 33 ^ second.length + (nameHash second).toInt -
            5381 * 33 ^ second.length [ZMOD 2 ^ 64] :=
          ((toInt_nameHash_modEq second).symm.add_left _).sub_right _

-- Eleven letters are enough to wrap.
example : nameHash "fallthrough" = -4573206335853016987 := by decide

end Lexis.Text
