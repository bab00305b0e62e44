/-
This file shows that numbers are written as JSON has them, and as numbers that are read back as
the same. For integers that is plain. For floating-point numbers a layout only moves the point,
and fills up with zeros where it must; so its text stands for the same decimal as the shortest
digits, and those lie in the interval of the number.
-/

import Lexis.Json.Printer
import Lexis.Proofs.Decimal.Shortest
import Lexis.Proofs.Json.Grammar
import Lexis.Proofs.Printing

namespace Lexis.Json

open Decimal (Layout Digits plainText scientificText)

/-! ### Integers -/

theorem isDigits_toDigits (n : Nat) : IsDigits (Nat.toDigits 10 n) :=
  ⟨Nat.toDigits_ne_nil, fun _ => Scan.isDigit_of_mem_toDigits⟩

/-- An integer is written with all its digits. -/
theorem spells_integer (n : Int) : Spells (.value (.integer n)) (toString n).toList := by
  let numeral : Numeral := ⟨decide (n < 0), Nat.toDigits 10 n.natAbs, none, none⟩
  have valid : numeral.Valid := by
    refine ⟨isDigits_toDigits _, fun first => ?_, nofun, nofun⟩
    rcases Nat.eq_zero_or_pos n.natAbs with zero | positive
    · show Nat.toDigits 10 n.natAbs = ['0']
      rw [zero]
      rfl
    · exact absurd first (Scan.head_toDigits_ne_zero positive)
  have tree : numeral.tree = .integer n := by
    show Tree.integer (if decide (n < 0) = true then
      -(Nat.ofDigitChars 10 (Nat.toDigits 10 n.natAbs) 0 : Int) else _) = _
    rw [Nat.ofDigitChars_ten_toDigits]
    simp only [decide_eq_true_eq, Tree.integer.injEq]
    split <;> omega
  have text : numeral.text = (toString n).toList := by
    show (if decide (n < 0) = true then ['-'] else []) ++ Nat.toDigits 10 n.natAbs ++ ([] ++ []) = _
    rw [Int.toString_eq_repr, Int.repr_eq_if, List.append_nil, List.append_nil]
    rcases lt_or_ge n 0 with negative | nonnegative
    · rw [if_pos (decide_eq_true negative), if_neg (not_le.mpr negative), String.toList_append,
        Nat.toList_repr, show (-n).toNat = n.natAbs by omega]
      rfl
    · rw [if_neg (by simpa using nonnegative), if_pos nonnegative, Nat.toList_repr,
        show n.toNat = n.natAbs by omega]
      rfl
  rw [← text, ← tree]
  exact .number valid

/-! ### The point -/

theorem ofDigitChars_zeros_append (digits : List Char) (n : Nat) :
    Nat.ofDigitChars 10 (List.replicate n '0' ++ digits) 0 = Nat.ofDigitChars 10 digits 0 := by
  rw [Nat.ofDigitChars_append, Nat.ofDigitChars_replicate_zero, Nat.mul_zero]

/-- Zeros before and behind digits are digits. -/
theorem isDigits_zeros {digits : List Char} (decimal : IsDigits digits) (n m : Nat) :
    IsDigits (List.replicate n '0' ++ digits ++ List.replicate m '0') := by
  refine ⟨?_, fun c member => ?_⟩
  · exact List.append_ne_nil_of_left_ne_nil (List.append_ne_nil_of_right_ne_nil _ decimal.1) _
  · simp only [List.mem_append] at member
    rcases member with (zero | inside) | zero
    · rw [List.eq_of_mem_replicate zero]
      rfl
    · exact decimal.2 c inside
    · rw [List.eq_of_mem_replicate zero]
      rfl

/-- Digits before and behind a point that stand for the same decimal as digits whose first has the
weight `10 ^ exponent`. There is a digit on both sides of the point, and no zero too many. -/
structure Pointed (digits : List Char) (exponent : Int) (whole behind : List Char) : Prop where
  wholeDigits : IsDigits whole
  noLeadingZero : whole.head? = some '0' → whole = ['0']
  behindDigits : IsDigits behind
  value : (Nat.ofDigitChars 10 (whole ++ behind) 0 : ℚ) * 10 ^ (-behind.length : Int) =
    Nat.ofDigitChars 10 digits 0 * 10 ^ (exponent + 1 - digits.length)

section Point

variable {digits : List Char} (decimal : IsDigits digits) (leading : digits.head? ≠ some '0')

include decimal

/-- A decimal below one. -/
theorem pointed_small {exponent : Int} (small : exponent < 0) :
    Pointed digits exponent ['0'] (List.replicate (-exponent - 1).toNat '0' ++ digits) := by
  have zeros := isDigits_zeros decimal (-exponent - 1).toNat 0
  rw [List.replicate_zero, List.append_nil] at zeros
  have same : Nat.ofDigitChars 10 (['0'] ++ (List.replicate (-exponent - 1).toNat '0' ++ digits))
      0 = Nat.ofDigitChars 10 digits 0 :=
    ofDigitChars_zeros_append digits ((-exponent - 1).toNat + 1)
  have places : (-(List.replicate (-exponent - 1).toNat '0' ++ digits).length : Int) =
      exponent + 1 - digits.length := by
    rw [List.length_append, List.length_replicate]
    omega
  exact ⟨by decide, fun _ => rfl, zeros, by rw [same, places]⟩

include leading

/-- The point stands between two of the digits. -/
theorem pointed_inside {places : Nat} (inside : places + 1 < digits.length) :
    Pointed digits places (digits.take (places + 1)) (digits.drop (places + 1)) := by
  have taken : (digits.take (places + 1)).length = places + 1 :=
    List.length_take_of_le inside.le
  refine ⟨⟨?_, fun c member => decimal.2 c (List.mem_of_mem_take member)⟩, ?_,
    ⟨?_, fun c member => decimal.2 c (List.mem_of_mem_drop member)⟩, ?_⟩
  · exact List.ne_nil_of_length_eq_add_one taken
  · rw [List.head?_take, if_neg (Nat.succ_ne_zero _)]
    exact fun zero => absurd zero leading
  · rw [ne_eq, List.drop_eq_nil_iff]
    exact not_le.mpr inside
  · rw [List.take_append_drop, List.length_drop, Nat.cast_sub inside.le]
    congr 2
    push_cast
    ring

/-- The point stands behind all digits, and maybe behind some zeros. -/
theorem pointed_outside {places : Nat} (outside : digits.length ≤ places + 1) :
    Pointed digits places (digits ++ List.replicate (places + 1 - digits.length) '0') ['0'] := by
  have whole := isDigits_zeros decimal 0 (places + 1 - digits.length)
  rw [List.replicate_zero, List.nil_append] at whole
  refine ⟨whole, ?_, by decide, ?_⟩
  · rw [List.head?_append_of_ne_nil _ decimal.1]
    exact fun zero => absurd zero leading
  · have shifted : Nat.ofDigitChars 10
        (digits ++ List.replicate (places + 1 - digits.length) '0' ++ ['0']) 0 =
          10 ^ (places + 1 - digits.length + 1) * Nat.ofDigitChars 10 digits 0 := by
      rw [List.append_assoc, ← List.replicate_succ', Nat.ofDigitChars_append,
        Nat.ofDigitChars_replicate_zero]
    have power : ((places : Int) + 1 - digits.length) =
        ((places + 1 - digits.length + 1 : Nat) : Int) + (-1) := by omega
    rw [shifted, power, zpow_add₀ (by norm_num), zpow_natCast]
    push_cast
    simp only [List.length_singleton, Nat.cast_one]
    ring

/-- Digits with the point in place stand for the same decimal. -/
theorem exists_pointed_plainText (exponent : Int) :
    ∃ whole behind, plainText digits exponent = whole ++ '.' :: behind ∧
      Pointed digits exponent whole behind := by
  unfold plainText
  split
  · rename_i small
    exact ⟨_, _, rfl, pointed_small decimal small⟩
  · rename_i large
    obtain ⟨places, rfl⟩ := Int.eq_ofNat_of_zero_le (not_lt.mp large)
    dsimp only
    rw [Int.toNat_natCast]
    rcases Nat.lt_or_ge (places + 1) digits.length with inside | outside
    · have pointed := pointed_inside decimal leading inside
      rw [if_neg (mt List.isEmpty_iff.mp pointed.behindDigits.1), Nat.sub_eq_zero_of_le inside.le,
        List.replicate_zero, List.append_nil]
      exact ⟨_, _, rfl, pointed⟩
    · rw [List.drop_of_length_le outside, List.take_of_length_le outside]
      exact ⟨_, _, rfl, pointed_outside decimal leading outside⟩

end Point

/-! ### Layouts -/

/-- A text that is a number of JSON, with or without a minus sign in front of it, and stands for
a decimal that is rounded when it is read. -/
def IsDecimal (text : List Char) (q : ℚ) : Prop :=
  ∀ negative : Bool, ∃ (numeral : Numeral) (digits : Nat) (power : Int), numeral.Valid ∧
    numeral.text = (if negative then ['-'] else []) ++ text ∧
    numeral.tree = .decimal (Binary64.ofSigned negative digits power) ∧
    (digits : ℚ) * 10 ^ power = q

/-- The exponent that a layout writes. -/
def writtenExponent (exponent : Int) (plusSign : Bool) : Exponent where
  mark := 'e'
  sign := if exponent < 0 then some '-' else if plusSign then some '+' else none
  digits := Nat.toDigits 10 exponent.natAbs

theorem valid_writtenExponent (exponent : Int) (plusSign : Bool) :
    (writtenExponent exponent plusSign).Valid := by
  refine ⟨Or.inl rfl, ?_, isDigits_toDigits _⟩
  unfold writtenExponent
  dsimp only
  split
  · exact Or.inr (Or.inr rfl)
  · split
    · exact Or.inr (Or.inl rfl)
    · exact Or.inl rfl

theorem text_writtenExponent (exponent : Int) (plusSign : Bool) :
    (writtenExponent exponent plusSign).text =
      'e' :: (if exponent < 0 then ['-'] else if plusSign then ['+'] else []) ++
        Nat.toDigits 10 exponent.natAbs := by
  unfold writtenExponent Exponent.text
  dsimp only
  split
  · rfl
  · split <;> rfl

theorem value_writtenExponent (exponent : Int) (plusSign : Bool) :
    (writtenExponent exponent plusSign).value = exponent := by
  have digits : Nat.ofDigitChars 10 (writtenExponent exponent plusSign).digits 0 =
      exponent.natAbs := Nat.ofDigitChars_ten_toDigits
  rw [Exponent.value, digits]
  unfold writtenExponent
  dsimp only
  rcases lt_or_ge exponent 0 with small | large
  · rw [if_pos small, if_pos rfl]
    omega
  · have unsigned : ¬(if plusSign = true then some '+' else none) = some '-' := by
      split <;> decide
    rw [if_neg (not_lt.mpr large), if_neg unsigned]
    omega

theorem isDecimal_of_pointed {digits : List Char} {exponent : Int} {whole behind : List Char}
    (pointed : Pointed digits exponent whole behind) :
    IsDecimal (whole ++ '.' :: behind)
      (Nat.ofDigitChars 10 digits 0 * 10 ^ (exponent + 1 - digits.length)) := by
  obtain ⟨wholeDigits, noLeadingZero, behindDigits, value⟩ := pointed
  intro negative
  refine ⟨⟨negative, whole, some behind, none⟩, _, _, ⟨wholeDigits, noLeadingZero, ?_, nofun⟩, ?_,
    rfl, ?_⟩
  · rintro _ ⟨⟩
    exact behindDigits
  · simp [Numeral.text]
  · rw [← value]
    show (Nat.ofDigitChars 10 (whole ++ behind) 0 : ℚ) * 10 ^ ((0 : Int) - behind.length) = _
    rw [zero_sub]

/-- In scientific form the first digit stands alone, and the others, if any, are behind a point. -/
theorem isDecimal_scientificText {digits : List Char} (decimal : IsDigits digits)
    (leading : digits.head? ≠ some '0') (exponent : Int) (plusSign : Bool) :
    IsDecimal (scientificText digits exponent plusSign)
      (Nat.ofDigitChars 10 digits 0 * 10 ^ (exponent + 1 - digits.length)) := by
  obtain ⟨c, rest, rfl⟩ := List.exists_cons_of_ne_nil decimal.1
  intro negative
  let written := writtenExponent exponent plusSign
  have first : [c].head? = some '0' → [c] = ['0'] := fun zero => absurd zero leading
  have alone : IsDigits [c] := ⟨List.cons_ne_nil _ _, fun e member =>
    decimal.2 e (List.mem_singleton.mp member ▸ List.mem_cons_self)⟩
  have exponential : ∀ e ∈ some written, e.Valid := by
    rintro _ ⟨⟩
    exact valid_writtenExponent _ _
  have text (fraction : Option (List Char)) (same : fraction.elim [] ('.' :: ·) =
      if rest.isEmpty then [] else '.' :: rest) :
      (⟨negative, [c], fraction, some written⟩ : Numeral).text =
        (if negative then ['-'] else []) ++ scientificText (c :: rest) exponent plusSign := by
    show (if negative then ['-'] else []) ++ [c] ++
      (fraction.elim [] ('.' :: ·) ++ written.text) = _
    rw [same, text_writtenExponent, scientificText]
    simp only [List.append_assoc, List.cons_append, List.drop_succ_cons, List.drop_zero,
      List.take_succ_cons, List.take_zero]
  have power : exponent - rest.length = exponent + 1 - (c :: rest).length := by
    rw [List.length_cons, Nat.cast_succ]
    ring
  cases rest with
  | nil =>
    refine ⟨⟨negative, [c], none, some written⟩, _, _, ⟨alone, first, nofun, exponential⟩,
      text none rfl, rfl, ?_⟩
    rw [← power, ← value_writtenExponent exponent plusSign]
    rfl
  | cons e rest =>
    refine ⟨⟨negative, [c], some (e :: rest), some written⟩, _, _,
      ⟨alone, first, ?_, exponential⟩, text _ rfl, rfl, ?_⟩
    · rintro _ ⟨⟩
      exact ⟨List.cons_ne_nil _ _, fun f member => decimal.2 f (List.mem_cons_of_mem _ member)⟩
    · rw [← power, ← value_writtenExponent exponent plusSign]
      rfl

/-- A layout writes a positive decimal as a number that stands for it. -/
theorem isDecimal_digitsText (layout : Layout) {d : Digits} (positive : 0 < d.digits) :
    IsDecimal (layout.digitsText d) (d.digits * 10 ^ d.exponent) := by
  have decimal := isDigits_toDigits d.digits
  have leading := Scan.head_toDigits_ne_zero positive
  have value : Nat.ofDigitChars 10 (Nat.toDigits 10 d.digits) 0 = d.digits :=
    Nat.ofDigitChars_ten_toDigits
  unfold Layout.digitsText
  dsimp only
  generalize Nat.toDigits 10 d.digits = digits at decimal leading value ⊢
  have power : d.exponent = d.exponent + digits.length - 1 + 1 - digits.length := by ring
  have meant : (d.digits : ℚ) * 10 ^ d.exponent = Nat.ofDigitChars 10 digits 0 *
      10 ^ (d.exponent + digits.length - 1 + 1 - digits.length) := by
    rw [← power, value]
  rw [meant]
  split
  · obtain ⟨whole, behind, text, pointed⟩ := exists_pointed_plainText decimal leading
      (d.exponent + digits.length - 1)
    rw [text]
    exact isDecimal_of_pointed pointed
  · exact isDecimal_scientificText decimal leading _ _

/-- A layout writes zero as zero, and any other magnitude as a decimal in its interval. -/
theorem exists_isDecimal_magnitude (layout : Layout) {significand : Nat} {exponent : Int}
    (canonical : Binary64.Canonical significand exponent) :
    ∃ q, IsDecimal (if significand = 0 then ['0', '.', '0']
        else layout.digitsText (Decimal.shortest significand exponent layout.tie)) q ∧
      (significand = 0 → q = 0) ∧
      (0 < significand → (Decimal.Target.around significand exponent).Holds q) := by
  rcases Nat.eq_zero_or_pos significand with zero | positive
  · have pointed : Pointed ['0'] 0 ['0'] ['0'] :=
      ⟨by decide, fun _ => rfl, by decide, by norm_num [Nat.ofDigitChars]⟩
    rw [if_pos zero]
    exact ⟨_, isDecimal_of_pointed pointed, fun _ => by norm_num [Nat.ofDigitChars],
      fun positive => absurd zero positive.ne'⟩
  · have holds := Decimal.shortest_holds positive canonical.least layout.tie
    have some := Nat.pos_of_ne_zero (Binary64.ne_zero_of_holds canonical positive holds)
    rw [if_neg positive.ne']
    exact ⟨_, isDecimal_digitsText layout some, fun zero => absurd zero positive.ne',
      fun _ => holds⟩

/-- A finite number is written as a number that is read back as it. -/
theorem spells_finiteText (layout : Layout) {x : Binary64} {negative : Bool} {significand : Nat}
    {exponent : Int} (known : x.meaning = .finite negative significand exponent) :
    Spells (.value (.decimal x)) (layout.finiteText negative significand exponent).toList := by
  obtain ⟨q, decimal, zero, holds⟩ :=
    exists_isDecimal_magnitude layout (Binary64.meaning_finite known).1
  have text : (layout.finiteText negative significand exponent).toList =
      (if negative then ['-'] else []) ++ if significand = 0 then ['0', '.', '0']
        else layout.digitsText (Decimal.shortest significand exponent layout.tie) := by
    rw [Layout.finiteText, String.toList_ofList]
    cases negative <;> rfl
  obtain ⟨numeral, digits, power, valid, spelled, tree, rfl⟩ := decimal negative
  have nothing (none : significand = 0) : digits = 0 := by
    have product := zero none
    rw [mul_eq_zero, or_iff_left (zpow_ne_zero _ (by norm_num))] at product
    exact_mod_cast product
  rw [text, ← spelled, ← Binary64.ofSigned_eq known nothing holds, ← tree]
  exact .number valid

/-- A number that JSON has is written as a number that is read back as it; any other is written as
null. -/
theorem spells_number (x : Binary64) :
    Spells (.value (if x.isFinite then .decimal x else .null)) (number x).toList := by
  by_cases finite : x.isFinite = true
  · obtain ⟨negative, significand, exponent, known⟩ := (Binary64.isFinite_iff x).mp finite
    rw [if_pos finite, number, known]
    exact spells_finiteText numberLayout known
  · have text : number x = "null" := by
      unfold number
      split
      · rename_i negative significand exponent known
        exact absurd ((Binary64.isFinite_iff x).mpr ⟨_, _, _, known⟩) finite
      · rfl
    rw [if_neg finite, text]
    exact .null

end Lexis.Json
