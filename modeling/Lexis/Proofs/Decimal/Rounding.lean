/-
This file shows which decimals are read as a given finite number: all that lie between the
middles of the gaps below and above it, and the middles themselves if its last bit is zero.
A decimal there has the same leading bit as the number, or it lies just below a power of two;
so the one division that rounds is made at the exponent of the number, or at the next smaller
one, and it gives the significand, or twice the leading bit. Either way the pattern is the same.
-/

import Mathlib.Algebra.Order.Field.Power
import Mathlib.Data.Rat.Cast.Order
import Mathlib.Tactic.FieldSimp
import Mathlib.Tactic.GCongr
import Mathlib.Tactic.Linarith
import Mathlib.Tactic.Positivity
import Mathlib.Tactic.Ring
import Lexis.Decimal.Rounding
import Lexis.Decimal.Shortest

namespace Lexis

/-- Whether a number lies in the interval that reads back. -/
def Decimal.Target.Holds (target : Target) (q : ℚ) : Prop :=
  if target.closed then target.low * 2 ^ target.unit ≤ q ∧ q ≤ target.high * 2 ^ target.unit
  else target.low * 2 ^ target.unit < q ∧ q < target.high * 2 ^ target.unit

namespace Binary64

open Decimal (Target)

/-! ### Division -/

/-- Division to the nearest gives the integer in whose middle the quotient lies, and of two that
are equally near the even one. -/
theorem divNearest_eq {num den n : Nat} (positive : 0 < den)
    (low : 2 * n * den ≤ 2 * num + den) (high : 2 * num ≤ 2 * n * den + den)
    (even : 2 * n * den = 2 * num + den ∨ 2 * num = 2 * n * den + den → n % 2 = 0) :
    divNearest num den = n := by
  have parts := Nat.div_add_mod num den
  have small := Nat.mod_lt num positive
  rw [divNearest]
  generalize num / den = whole at parts
  generalize num % den = rest at parts small
  subst parts
  have near : n = whole ∨ n = whole + 1 := by
    have notBelow : whole ≤ n := by
      by_contra below
      have step := Nat.mul_le_mul_left den (Nat.succ_le_of_lt (Nat.lt_of_not_le below))
      have apart : den * (n + 1) = n * den + den := by ring
      nlinarith
    have notAbove : n ≤ whole + 1 := by
      by_contra above
      have step := Nat.mul_le_mul_left den (Nat.succ_le_of_lt (Nat.lt_of_not_le above))
      nlinarith
    omega
  rcases near with rfl | rfl
  · have belowHalf : 2 * rest ≤ den := by nlinarith
    split
    · rfl
    · have half : den = 2 * rest := by omega
      have last := even (Or.inr (by rw [half]; ring))
      rw [if_neg (by omega)]
      omega
  · have aboveHalf : den ≤ 2 * rest := by nlinarith
    rw [if_neg (by omega)]
    split
    · rfl
    · have half : den = 2 * rest := by omega
      have last := even (Or.inl (by rw [half]; ring))
      omega

/-- Scaling multiplies a quotient by the power of two. -/
theorem scaled_spec (num : Nat) {den : Nat} (positive : 0 < den) (shift : Int) :
    0 < (scaled num den shift).2 ∧
      ((scaled num den shift).1 : ℚ) = num / den * 2 ^ shift * (scaled num den shift).2 := by
  have divisor : (den : ℚ) ≠ 0 := by exact_mod_cast positive.ne'
  unfold scaled
  split
  · rename_i nonnegative
    obtain ⟨n, rfl⟩ := Int.eq_ofNat_of_zero_le nonnegative
    refine ⟨positive, ?_⟩
    simp only [Int.toNat_natCast, zpow_natCast, Nat.pow_eq]
    push_cast
    field_simp
  · rename_i negative
    obtain ⟨n, rfl⟩ : ∃ n : Nat, shift = -n := ⟨(-shift).toNat, by omega⟩
    refine ⟨Nat.mul_pos positive (Nat.pow_pos (by decide)), ?_⟩
    simp only [neg_neg, Int.toNat_natCast, zpow_neg, zpow_natCast, Nat.pow_eq]
    push_cast
    field_simp

/-- The lengths of two numbers in bits give the length of their quotient but for one bit. -/
theorem quotient_log2 {num den : Nat} (nonzero : num ≠ 0) (positive : den ≠ 0) :
    (2 : ℚ) ^ ((Nat.log2 num : Int) - Nat.log2 den - 1) ≤ num / den ∧
      (num : ℚ) / den < 2 ^ ((Nat.log2 num : Int) - Nat.log2 den + 1) := by
  have divisor : (0 : ℚ) < den := by exact_mod_cast Nat.pos_of_ne_zero positive
  have two : (2 : ℚ) ≠ 0 := two_ne_zero
  have numLow : (2 : ℚ) ^ (Nat.log2 num : Int) ≤ num := by
    exact_mod_cast Nat.log2_self_le nonzero
  have numHigh : (num : ℚ) < 2 ^ ((Nat.log2 num : Int) + 1) := by
    exact_mod_cast Nat.lt_log2_self
  have denLow : (2 : ℚ) ^ (Nat.log2 den : Int) ≤ den := by
    exact_mod_cast Nat.log2_self_le positive
  have denHigh : (den : ℚ) < 2 ^ ((Nat.log2 den : Int) + 1) := by
    exact_mod_cast Nat.lt_log2_self
  constructor
  · rw [le_div_iff₀ divisor]
    calc (2 : ℚ) ^ ((Nat.log2 num : Int) - Nat.log2 den - 1) * den
        ≤ 2 ^ ((Nat.log2 num : Int) - Nat.log2 den - 1) * 2 ^ ((Nat.log2 den : Int) + 1) := by
          gcongr
      _ = 2 ^ (Nat.log2 num : Int) := by
          rw [← zpow_add₀ two]
          congr 1
          ring
      _ ≤ num := numLow
  · rw [div_lt_iff₀ divisor]
    calc (num : ℚ) < 2 ^ ((Nat.log2 num : Int) + 1) := numHigh
      _ = 2 ^ ((Nat.log2 num : Int) - Nat.log2 den + 1) * 2 ^ (Nat.log2 den : Int) := by
          rw [← zpow_add₀ two]
          congr 1
          ring
      _ ≤ 2 ^ ((Nat.log2 num : Int) - Nat.log2 den + 1) * den := by gcongr

/-- The exponent is that of the first bit of a quotient, less fifty-two, unless there is none so
small. -/
theorem exponentOf_spec {num den : Nat} (nonzero : num ≠ 0) (positive : 0 < den) :
    ∃ top : Int, exponentOf num den = max (top - 52) minExponent ∧
      (2 : ℚ) ^ top ≤ num / den ∧ (num : ℚ) / den < 2 ^ (top + 1) := by
  obtain ⟨under, beyond⟩ := quotient_log2 nonzero positive.ne'
  have unfolded (guess : Int) (known : guess = (Nat.log2 num : Int) - Nat.log2 den) :
      exponentOf num den = max ((if (scaled num den (-guess)).1 < (scaled num den (-guess)).2
        then guess - 1 else guess) - 52) minExponent := by
    rw [known]
    rfl
  generalize (Nat.log2 num : Int) - Nat.log2 den = guess at under beyond unfolded
  rw [unfolded guess rfl]
  obtain ⟨divides, quotient⟩ := scaled_spec num positive (-guess)
  have settles : (scaled num den (-guess)).1 < (scaled num den (-guess)).2 ↔
      (num : ℚ) / den < 2 ^ guess := by
    have lower : (0 : ℚ) < (scaled num den (-guess)).2 := by exact_mod_cast divides
    rw [← Nat.cast_lt (α := ℚ), quotient, mul_lt_iff_lt_one_left lower, zpow_neg,
      mul_inv_lt_iff₀ (zpow_pos zero_lt_two _), one_mul]
  by_cases below : (num : ℚ) / den < 2 ^ guess
  · refine ⟨guess - 1, ?_, under, ?_⟩
    · rw [if_pos (settles.mpr below)]
    · rwa [sub_add_cancel]
  · refine ⟨guess, ?_, not_lt.mp below, beyond⟩
    rw [if_neg (settles.not.mpr below)]

/-! ### Patterns -/

/-- A significand with its exponent, as finite numbers have them. -/
structure Canonical (significand : Nat) (exponent : Int) : Prop where
  short : significand < 2 * leadingBit
  least : minExponent ≤ exponent
  greatest : exponent ≤ 971
  /-- Only with the smallest exponent may the leading bit be missing. -/
  leading : significand < leadingBit → exponent = minExponent

/-- The pattern of a positive number. -/
def pattern (significand : Nat) (exponent : Int) : Nat :=
  significand + (exponent - minExponent).toNat * leadingBit

/-- A finite number is its sign and its pattern. -/
theorem meaning_finite {x : Binary64} {negative : Bool} {significand : Nat} {exponent : Int}
    (known : x.meaning = .finite negative significand exponent) :
    Canonical significand exponent ∧ negative = x.isNegative ∧
      x.magnitudeBits = pattern significand exponent := by
  have parts := Nat.div_add_mod x.magnitudeBits leadingBit
  have fraction := Nat.mod_lt x.magnitudeBits (show 0 < leadingBit by decide)
  have field : x.magnitudeBits / leadingBit < 0x800 :=
    Nat.div_lt_of_lt_mul (Nat.mod_lt _ (by decide))
  unfold meaning at known
  dsimp only at known
  split at known
  · split at known <;> exact nomatch known
  · rename_i finite
    split at known
    · rename_i subnormal
      obtain ⟨sign, short, least⟩ := Meaning.finite.inj known
      rw [← short, ← least]
      refine ⟨⟨by omega, le_rfl, by decide, fun _ => rfl⟩, sign.symm, ?_⟩
      rw [subnormal, Nat.mul_zero, Nat.zero_add] at parts
      rw [parts, pattern, sub_self, Int.toNat_zero, Nat.zero_mul, Nat.add_zero]
    · rename_i normal
      obtain ⟨sign, short, least⟩ := Meaning.finite.inj known
      rw [← short, ← least]
      refine ⟨⟨by omega, by omega, ?_, fun missing => by omega⟩, sign.symm, ?_⟩
      · simp only [minExponent]
        omega
      · rw [pattern, add_sub_cancel_left, Int.toNat_natCast]
        generalize x.magnitudeBits / leadingBit = quotient at *
        simp only [leadingBit] at *
        omega

theorem pattern_lt {significand : Nat} {exponent : Int}
    (canonical : Canonical significand exponent) : pattern significand exponent < infinityBits := by
  obtain ⟨short, least, greatest, -⟩ := canonical
  simp only [pattern, infinityBits, leadingBit, minExponent] at *
  omega

/-- Just the finite numbers have a significand and an exponent. -/
theorem isFinite_iff (x : Binary64) :
    x.isFinite = true ↔
      ∃ negative significand exponent, x.meaning = .finite negative significand exponent := by
  constructor
  · intro finite
    have bound : x.magnitudeBits < infinityBits := of_decide_eq_true finite
    have field : x.magnitudeBits / leadingBit ≠ 0x7FF := by
      simp only [infinityBits, leadingBit] at bound ⊢
      omega
    unfold meaning
    dsimp only
    rw [if_neg field]
    split <;> exact ⟨_, _, _, rfl⟩
  · rintro ⟨negative, significand, exponent, known⟩
    obtain ⟨canonical, -, bits⟩ := meaning_finite known
    exact decide_eq_true (bits ▸ pattern_lt canonical)

/-- The other sign is the other half of the patterns. -/
theorem ofNat_neg {x : Binary64} (negative : x.isNegative = true) :
    neg ⟨UInt64.ofNat x.magnitudeBits⟩ = x := by
  have high : 2 ^ 63 ≤ x.bits.toNat := of_decide_eq_true negative
  have bound : x.bits.toNat < 2 ^ 64 := x.bits.toNat_lt
  have field : x.bits.toNat / 2 ^ 63 = 1 := by omega
  have joined : (x.bits.toNat % 2 ^ 63) ^^^ 2 ^ 63 = x.bits.toNat := by
    rw [← Nat.div_add_mod (x.bits.toNat % 2 ^ 63 ^^^ 2 ^ 63) (2 ^ 63), Nat.xor_div_two_pow,
      Nat.xor_mod_two_pow, Nat.mod_mod, Nat.mod_self, Nat.xor_zero,
      Nat.div_eq_of_lt (Nat.mod_lt _ (by decide)), Nat.div_self (by decide), Nat.zero_xor]
    omega
  have bits : (UInt64.ofNat x.magnitudeBits ^^^ 0x8000000000000000).toNat = x.bits.toNat := by
    have fits : x.magnitudeBits < UInt64.size :=
      Nat.lt_trans (Nat.mod_lt _ (show 0 < signBit by decide)) (by decide)
    rw [UInt64.toNat_xor, UInt64.toNat_ofNat_of_lt' fits]
    exact joined
  exact congrArg Binary64.mk (UInt64.toNat_inj.mp bits)

/-- A number without a sign is its pattern. -/
theorem ofNat_magnitudeBits {x : Binary64} (positive : x.isNegative = false) :
    (⟨UInt64.ofNat x.magnitudeBits⟩ : Binary64) = x := by
  have low : x.bits.toNat < signBit := Nat.lt_of_not_le (of_decide_eq_false positive)
  rw [magnitudeBits, Nat.mod_eq_of_lt low, UInt64.ofNat_toNat]

/-! ### Reading back -/

variable {significand : Nat} {exponent : Int}

/-- A number is nearest to a significand, in units of the last bit. -/
structure Near (significand : Nat) (exponent : Int) (near : ℚ) : Prop where
  low : significand - 1 / 2 ≤ near
  high : near ≤ significand + 1 / 2
  /-- Numbers below a power of two lie twice as close. -/
  boundary : significand = leadingBit → minExponent < exponent → significand - 1 / 4 ≤ near
  even : near = significand - 1 / 2 ∨ near = significand + 1 / 2 → significand % 2 = 0

/-- How far below a number the numbers begin that are nearest to it, in units of its last bit. -/
def gapBelow (significand : Nat) (exponent : Int) : ℚ :=
  if significand = leadingBit ∧ minExponent < exponent then 1 / 4 else 1 / 2

theorem gapBelow_le (significand : Nat) (exponent : Int) : gapBelow significand exponent ≤ 1 / 2 := by
  unfold gapBelow
  split <;> norm_num

/-- The interval of a number, in units of its last bit. -/
theorem holds_around_iff (positive : 0 < significand) {near : ℚ} :
    (Target.around significand exponent).Holds (near * 2 ^ exponent) ↔
      if significand % 2 = 0 then
        significand - gapBelow significand exponent ≤ near ∧ near ≤ significand + 1 / 2
      else significand - gapBelow significand exponent < near ∧ near < significand + 1 / 2 := by
  have scale : (0 : ℚ) < 2 ^ exponent := zpow_pos zero_lt_two _
  have unit : (2 : ℚ) ^ (exponent - 2) = 2 ^ exponent / 4 := by
    rw [zpow_sub₀ two_ne_zero]
    norm_num
  have lowest : ((Target.around significand exponent).low : ℚ) * 2 ^ (exponent - 2) =
      (significand - gapBelow significand exponent) * 2 ^ exponent := by
    rw [unit]
    simp only [Target.around, gapBelow, Bool.and_eq_true, decide_eq_true_eq]
    split
    · rw [Nat.cast_sub (by omega)]
      push_cast
      ring
    · rw [Nat.cast_sub (by omega)]
      push_cast
      ring
  have highest : ((Target.around significand exponent).high : ℚ) * 2 ^ (exponent - 2) =
      (significand + 1 / 2) * 2 ^ exponent := by
    rw [unit]
    simp only [Target.around]
    push_cast
    ring
  unfold Target.Holds
  rw [show (Target.around significand exponent).unit = exponent - 2 from rfl, lowest, highest]
  simp only [mul_le_mul_iff_left₀ scale, mul_lt_mul_iff_left₀ scale]
  simp only [Target.around, decide_eq_true_eq]

/-- In the interval of a significand everything is nearest to it. -/
theorem near_of_holds (positive : 0 < significand) {near : ℚ}
    (holds : (Target.around significand exponent).Holds (near * 2 ^ exponent)) :
    Near significand exponent near := by
  have around := (holds_around_iff positive).mp holds
  have least : (significand : ℚ) - 1 / 2 ≤ significand - gapBelow significand exponent :=
    sub_le_sub_left (gapBelow_le _ _) _
  by_cases closed : significand % 2 = 0
  · rw [if_pos closed] at around
    refine ⟨least.trans around.1, around.2, fun only greater => ?_, fun _ => closed⟩
    simpa only [gapBelow, if_pos (And.intro only greater)] using around.1
  · rw [if_neg closed] at around
    refine ⟨least.trans around.1.le, around.2.le, fun only greater => ?_, fun edge => ?_⟩
    · exact absurd (only ▸ rfl) closed
    · rcases edge with edge | edge
      · exact absurd edge (least.trans_lt around.1).ne'
      · exact absurd edge around.2.ne

/-- A quotient that is scaled and divided gives the integer it is nearest to. -/
theorem divNearest_scaled (num : Nat) {den n : Nat} (divisor : 0 < den) {shift : Int}
    (low : (n : ℚ) - 1 / 2 ≤ num / den * 2 ^ shift)
    (high : num / den * 2 ^ shift ≤ (n : ℚ) + 1 / 2)
    (even : num / den * 2 ^ shift = (n : ℚ) - 1 / 2 ∨ num / den * 2 ^ shift = (n : ℚ) + 1 / 2 →
      n % 2 = 0) :
    divNearest (scaled num den shift).1 (scaled num den shift).2 = n := by
  obtain ⟨positive, quotient⟩ := scaled_spec num divisor shift
  generalize scaled num den shift = pair at positive quotient
  obtain ⟨upper, lower⟩ := pair
  dsimp only at positive quotient
  generalize (num : ℚ) / den * 2 ^ shift = ratio at low high even quotient
  have lowerPositive : (0 : ℚ) < lower := by exact_mod_cast positive
  refine divNearest_eq positive ?_ ?_ ?_
  · rw [← Nat.cast_le (α := ℚ)]
    push_cast
    rw [quotient]
    linarith [mul_le_mul_of_nonneg_right low lowerPositive.le]
  · rw [← Nat.cast_le (α := ℚ)]
    push_cast
    rw [quotient]
    linarith [mul_le_mul_of_nonneg_right high lowerPositive.le]
  · intro edge
    refine even (edge.imp (fun edge => ?_) fun edge => ?_)
    · have edge : (2 * n * lower : ℚ) = 2 * upper + lower := by exact_mod_cast edge
      refine mul_right_cancel₀ lowerPositive.ne' ?_
      rw [← quotient]
      linarith
    · have edge : (2 * upper : ℚ) = 2 * n * lower + lower := by exact_mod_cast edge
      refine mul_right_cancel₀ lowerPositive.ne' ?_
      rw [← quotient]
      linarith

/-- The exponent found for a quotient in the interval of a number is that of the number, except
just below a power of two, where it is one smaller. -/
theorem exponentOf_near (canonical : Canonical significand exponent) {num den : Nat}
    (nonzero : num ≠ 0) (divisor : 0 < den) {near : ℚ}
    (ratio : (num : ℚ) / den = near * 2 ^ exponent) (nearest : Near significand exponent near) :
    exponentOf num den = exponent ∨
      exponentOf num den = exponent - 1 ∧ significand = leadingBit ∧ minExponent < exponent ∧
        near < significand := by
  obtain ⟨top, found, under, beyond⟩ := exponentOf_spec nonzero divisor
  rw [ratio] at under beyond
  have leading : ((leadingBit : Nat) : ℚ) = 2 ^ (52 : Int) := by norm_num [leadingBit]
  have short : (significand : ℚ) + 1 ≤ 2 ^ (53 : Int) := by
    have double : (2 : ℚ) ^ (53 : Int) = 2 * leadingBit := by norm_num [leadingBit]
    rw [double]
    exact_mod_cast canonical.short
  have positive : (0 : ℚ) < 2 ^ exponent := zpow_pos zero_lt_two _
  have atMost {bits : Int} (bound : near < 2 ^ bits) : top < bits + exponent := by
    refine (zpow_lt_zpow_iff_right₀ (one_lt_two (α := ℚ))).mp (under.trans_lt ?_)
    rw [zpow_add₀ two_ne_zero]
    exact mul_lt_mul_of_pos_right bound positive
  have atLeast {bits : Int} (bound : 2 ^ bits ≤ near) : bits + exponent < top + 1 := by
    refine (zpow_lt_zpow_iff_right₀ (one_lt_two (α := ℚ))).mp (lt_of_le_of_lt ?_ beyond)
    rw [zpow_add₀ two_ne_zero]
    exact mul_le_mul_of_nonneg_right bound positive.le
  have above : top < 53 + exponent := atMost (by linarith [nearest.high])
  have least := canonical.least
  rcases le_or_gt ((leadingBit : Nat) : ℚ) near with full | below
  · have filled := atLeast (leading ▸ full)
    exact Or.inl (by omega)
  · have missing := atMost (leading ▸ below)
    rcases least.eq_or_lt with same | greater
    · exact Or.inl (by omega)
    · -- With room for a smaller exponent only the leading bit can round up from below.
      have leads : leadingBit ≤ significand :=
        not_lt.mp fun missing => greater.ne' (canonical.leading missing)
      have only : significand = leadingBit := by
        have : (significand : ℚ) < leadingBit + 1 := by linarith [nearest.low]
        have : significand < leadingBit + 1 := by exact_mod_cast this
        omega
      have filled : 51 + exponent < top + 1 := by
        refine atLeast (le_trans ?_ nearest.low)
        rw [only, leading]
        norm_num
      exact Or.inr ⟨by omega, only, greater, only ▸ below⟩

/-- Any quotient nearest to a significand gives the pattern of the number. -/
theorem magnitude_near (canonical : Canonical significand exponent) {num den : Nat}
    (nonzero : num ≠ 0) (divisor : 0 < den) {near : ℚ}
    (ratio : (num : ℚ) / den = near * 2 ^ exponent) (nearest : Near significand exponent near) :
    divNearest (scaled num den (-exponentOf num den)).1 (scaled num den (-exponentOf num den)).2 +
      (exponentOf num den - minExponent).toNat * leadingBit = pattern significand exponent := by
  have scale : (2 : ℚ) ^ exponent ≠ 0 := (zpow_pos zero_lt_two _).ne'
  rcases exponentOf_near canonical nonzero divisor ratio nearest with
    same | ⟨smaller, only, greater, below⟩
  · have unscaled : (num : ℚ) / den * 2 ^ (-exponent) = near := by
      rw [ratio, zpow_neg, mul_inv_cancel_right₀ scale]
    rw [same, divNearest_scaled num divisor (unscaled ▸ nearest.low) (unscaled ▸ nearest.high)
      (unscaled ▸ nearest.even)]
    rfl
  · -- One exponent lower the leading bit is twice as much, and carries into the exponent.
    have unscaled : (num : ℚ) / den * 2 ^ (-(exponent - 1)) = 2 * near := by
      rw [ratio, neg_sub, sub_eq_add_neg, zpow_add₀ two_ne_zero, zpow_one, zpow_neg]
      field_simp
    have close := nearest.boundary only greater
    have doubled : divNearest (scaled num den (-(exponent - 1))).1
        (scaled num den (-(exponent - 1))).2 = 2 * significand := by
      refine divNearest_scaled num divisor ?_ ?_ fun _ => Nat.mul_mod_right 2 significand
      · rw [unscaled]
        push_cast
        linarith
      · rw [unscaled]
        push_cast
        linarith
    rw [smaller, doubled, pattern, only]
    simp only [leadingBit, minExponent] at greater ⊢
    omega

/-- Any quotient in the interval of a number is read as it. -/
theorem ofRatio_eq (canonical : Canonical significand exponent) (positive : 0 < significand)
    {num den : Nat} (divisor : 0 < den)
    (holds : (Target.around significand exponent).Holds (num / den)) :
    ofRatio num den = ⟨UInt64.ofNat (pattern significand exponent)⟩ := by
  have scale : (0 : ℚ) < 2 ^ exponent := zpow_pos zero_lt_two _
  obtain ⟨near, ratio⟩ : ∃ near, (num : ℚ) / den = near * 2 ^ exponent :=
    ⟨num / den / 2 ^ exponent, (div_mul_cancel₀ _ scale.ne').symm⟩
  rw [ratio] at holds
  have nearest := near_of_holds positive holds
  have one : (1 : ℚ) ≤ significand := by exact_mod_cast positive
  have nonzero : num ≠ 0 := by
    rintro rfl
    rw [Nat.cast_zero, zero_div] at ratio
    have := mul_pos (show 0 < near by linarith [nearest.low]) scale
    linarith
  unfold ofRatio
  rw [if_neg nonzero]
  dsimp only
  rw [magnitude_near canonical nonzero divisor ratio nearest,
    if_neg (Nat.not_le.mpr (pattern_lt canonical))]

/-- Everything in the interval of a number lies within the range of all numbers. -/
theorem range_of_holds (canonical : Canonical significand exponent) (positive : 0 < significand)
    {q : ℚ} (holds : (Target.around significand exponent).Holds q) :
    (2 : ℚ) ^ (-1075 : Int) ≤ q ∧ q < 2 ^ (1024 : Int) := by
  have scale : (0 : ℚ) < 2 ^ exponent := zpow_pos zero_lt_two _
  obtain ⟨near, rfl⟩ : ∃ near, q = near * 2 ^ exponent := ⟨q / 2 ^ exponent, by field_simp⟩
  have nearest := near_of_holds positive holds
  have one : (1 : ℚ) ≤ significand := by exact_mod_cast positive
  have short : (significand : ℚ) + 1 ≤ 2 ^ (53 : Int) := by
    have bound := canonical.short
    simp only [leadingBit] at bound
    norm_num
    exact_mod_cast bound
  constructor
  · calc (2 : ℚ) ^ (-1075 : Int) = 1 / 2 * 2 ^ minExponent := by
          rw [show (-1075 : Int) = -1 + minExponent from rfl, zpow_add₀ two_ne_zero, zpow_neg_one,
            one_div]
      _ ≤ 1 / 2 * 2 ^ exponent := by
          have := canonical.least
          gcongr
          exact one_le_two
      _ ≤ near * 2 ^ exponent :=
          mul_le_mul_of_nonneg_right (by linarith [nearest.low]) scale.le
  · calc near * 2 ^ exponent < 2 ^ (53 : Int) * 2 ^ exponent :=
          mul_lt_mul_of_pos_right (by linarith [nearest.high]) scale
      _ ≤ 2 ^ (53 : Int) * 2 ^ (971 : Int) := by
          have := canonical.greatest
          gcongr
          exact one_le_two
      _ = 2 ^ (1024 : Int) := by
          rw [← zpow_add₀ two_ne_zero]
          rfl

theorem ne_zero_of_holds (canonical : Canonical significand exponent)
    (positive : 0 < significand) {digits : Nat} {power : Int}
    (holds : (Target.around significand exponent).Holds (digits * 10 ^ power)) :
    digits ≠ 0 := by
  obtain ⟨least, -⟩ := range_of_holds canonical positive holds
  rintro rfl
  have : (0 : ℚ) < 2 ^ (-1075 : Int) := zpow_pos zero_lt_two _
  rw [Nat.cast_zero, zero_mul] at least
  linarith

/-- A decimal below all numbers that are too large has no large power. -/
theorem power_le_of_lt {digits : Nat} (nonzero : digits ≠ 0) {power : Int}
    (bound : (digits : ℚ) * 10 ^ power < 2 ^ (1024 : Int)) : power ≤ 310 := by
  by_contra large
  have one : (1 : ℚ) ≤ digits := by exact_mod_cast Nat.pos_of_ne_zero nonzero
  have past : (2 : Nat) ^ 1024 < 10 ^ 310 := by decide +kernel
  have beyond : (2 : ℚ) ^ (1024 : Int) < digits * 10 ^ power := by
    calc (2 : ℚ) ^ (1024 : Int) < 10 ^ (310 : Int) := by exact_mod_cast past
      _ ≤ 10 ^ power := zpow_le_zpow_right₀ (by norm_num) (not_le.mp large).le
      _ ≤ digits * 10 ^ power := le_mul_of_one_le_left (zpow_pos (by norm_num) _).le one
  exact lt_asymm bound beyond

/-- A decimal above all numbers that are too small has no small power. -/
theorem neg_power_le_of_le {digits : Nat} {power : Int}
    (bound : (2 : ℚ) ^ (-1075 : Int) ≤ digits * 10 ^ power) :
    -power ≤ (Nat.log2 digits : Int) + 1200 := by
  by_contra small
  obtain ⟨n, rfl⟩ : ∃ n : Nat, power = -n := ⟨(-power).toNat, by omega⟩
  have bits : (digits : ℚ) < 2 ^ ((Nat.log2 digits : Int) + 1) := by
    exact_mod_cast Nat.lt_log2_self
  have coarser : (10 : ℚ) ^ (-n : Int) ≤ 2 ^ (-n : Int) := by
    rw [zpow_neg, zpow_neg, zpow_natCast, zpow_natCast]
    gcongr
    norm_num
  have beneath : (digits : ℚ) * 10 ^ (-n : Int) < 2 ^ (-1075 : Int) := by
    calc (digits : ℚ) * 10 ^ (-n : Int) < 2 ^ ((Nat.log2 digits : Int) + 1) * 10 ^ (-n : Int) :=
          mul_lt_mul_of_pos_right bits (zpow_pos (by norm_num) _)
      _ ≤ 2 ^ ((Nat.log2 digits : Int) + 1) * 2 ^ (-n : Int) := by gcongr
      _ = 2 ^ ((Nat.log2 digits : Int) + 1 - n) := by rw [← zpow_add₀ two_ne_zero, sub_eq_add_neg]
      _ ≤ 2 ^ (-1075 : Int) := zpow_le_zpow_right₀ one_le_two (by omega)
  exact not_le.mpr beneath bound

/-- Any decimal in the interval of a number is read as it. -/
theorem ofDecimal_eq (canonical : Canonical significand exponent) (positive : 0 < significand)
    {digits : Nat} {power : Int}
    (holds : (Target.around significand exponent).Holds (digits * 10 ^ power)) :
    ofDecimal digits power = ⟨UInt64.ofNat (pattern significand exponent)⟩ := by
  obtain ⟨least, greatest⟩ := range_of_holds canonical positive holds
  have nonzero := ne_zero_of_holds canonical positive holds
  have notLarge := not_lt.mpr (power_le_of_lt nonzero greatest)
  have notSmall := not_lt.mpr (neg_power_le_of_le least)
  unfold ofDecimal
  rw [if_neg nonzero, if_neg notLarge]
  split
  · rename_i whole
    refine ofRatio_eq canonical positive Nat.one_pos ?_
    obtain ⟨n, rfl⟩ := Int.eq_ofNat_of_zero_le whole
    rw [zpow_natCast] at holds
    rw [Nat.cast_one, div_one, Nat.pow_eq]
    push_cast
    exact holds
  · rename_i fraction
    refine ofRatio_eq canonical positive (Nat.pow_pos (by decide)) ?_
    obtain ⟨n, rfl⟩ : ∃ n : Nat, power = -n := ⟨(-power).toNat, by omega⟩
    rw [zpow_neg, zpow_natCast] at holds
    rw [neg_neg, Int.toNat_natCast, Nat.pow_eq]
    push_cast
    rw [div_eq_mul_inv]
    exact holds

/-- A decimal with a sign. -/
def ofSigned (negative : Bool) (digits : Nat) (power : Int) : Binary64 :=
  if negative then neg (ofDecimal digits power) else ofDecimal digits power

/-- Any decimal in the interval of a finite number is read as it, if it has the same sign; and
zero is read as zero. -/
theorem ofSigned_eq {x : Binary64} {negative : Bool}
    (known : x.meaning = .finite negative significand exponent) {digits : Nat} {power : Int}
    (zero : significand = 0 → digits = 0)
    (holds : 0 < significand → (Target.around significand exponent).Holds (digits * 10 ^ power)) :
    ofSigned negative digits power = x := by
  obtain ⟨canonical, rfl, bits⟩ := meaning_finite known
  have magnitude : ofDecimal digits power = ⟨UInt64.ofNat x.magnitudeBits⟩ := by
    rcases Nat.eq_zero_or_pos significand with none | positive
    · have least := canonical.leading (none ▸ (by decide))
      rw [bits, none, least, zero none]
      rfl
    · rw [bits]
      exact ofDecimal_eq canonical positive (holds positive)
  rw [ofSigned, magnitude]
  cases sign : x.isNegative with
  | true => exact ofNat_neg sign
  | false => exact ofNat_magnitudeBits sign

end Binary64

end Lexis
