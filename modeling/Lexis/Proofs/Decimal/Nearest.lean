/-
This file proves that a decimal is read as the number nearest to it. Without their signs the
finite numbers stand in one row: their patterns are the natural numbers up to that of infinity,
and a greater pattern is a greater number. What is rounded lies between two neighbours of the
row, which are whole multiples of one power of two; so whatever other number is taken lies
behind one of the neighbours, and only these have to be compared.

That the row has no gaps also shows that the nearest number is only one: two numbers equally
near, both with an even significand, would have a third between them.
-/

import Mathlib.Algebra.Order.Floor.Semifield
import Mathlib.Data.Rat.Floor
import Mathlib.Order.Monotone.Basic
import Lexis.Proofs.Decimal.Rounding

namespace Lexis.Binary64

/-- The number that a finite pattern stands for. -/
def toRat? (x : Binary64) : Option ℚ :=
  match x.meaning with
  | .finite negative significand exponent =>
    some ((if negative then -1 else 1) * (significand * 2 ^ exponent))
  | _ => none

/-- The middle between the largest finite number and the power of two behind it. -/
def overflow : ℚ := 2 ^ 1024 - 2 ^ 970

/-- What it means that a number is the nearest to a quotient that is not negative. From a
middle on that is infinity. Before it, it is a finite number without a sign, no other finite
number is nearer, and if another is as near, its own significand is the even one. -/
def IsNearest (x : Binary64) (q : ℚ) : Prop :=
  if overflow ≤ q then x = infinity
  else ∃ significand exponent, x.meaning = .finite false significand exponent ∧
    ∀ (y : Binary64) (other : ℚ), y ≠ x → y.toRat? = some other →
      |q - significand * 2 ^ exponent| ≤ |q - other| ∧
        (|q - significand * 2 ^ exponent| = |q - other| → significand % 2 = 0)

/-! ### The row of numbers -/

/-- The number of a pattern without a sign. It goes on behind the finite patterns. -/
def magnitude (bits : Nat) : ℚ :=
  if bits / leadingBit = 0 then bits * 2 ^ minExponent
  else (leadingBit + (bits % leadingBit : Nat)) *
    2 ^ (minExponent + ((bits / leadingBit - 1 : Nat) : Int))

/-- The number of a significand in its place, which may also be one too large: then it is the
first with the next exponent. -/
theorem magnitude_add {significand shift : Nat} (full : leadingBit ≤ significand ∨ shift = 0)
    (short : significand ≤ 2 * leadingBit) :
    magnitude (significand + shift * leadingBit) =
      significand * 2 ^ (minExponent + (shift : Int)) := by
  have positive : 0 < leadingBit := by decide
  unfold magnitude
  rw [Nat.add_mul_div_right _ _ positive, Nat.add_mul_mod_self_right]
  rcases Nat.lt_or_ge significand leadingBit with missing | leads
  · obtain rfl := full.resolve_left (Nat.not_le.mpr missing)
    rw [Nat.div_eq_of_lt missing, if_pos (Nat.zero_add 0), Nat.zero_mul, Nat.add_zero,
      Nat.cast_zero, add_zero]
  · rcases Nat.lt_or_eq_of_le short with within | rfl
    · have quotient : significand / leadingBit = 1 :=
        Nat.div_eq_of_lt_le (by rwa [Nat.one_mul]) within
      have rest : significand % leadingBit = significand - leadingBit := by
        rw [Nat.mod_eq_sub_mod leads, Nat.mod_eq_of_lt (by omega)]
      rw [quotient, if_neg (by omega), rest, Nat.cast_sub leads, add_sub_cancel,
        Nat.add_sub_cancel_left]
    · rw [Nat.mul_div_cancel _ positive, if_neg (by omega), Nat.mul_mod_left,
        show 2 + shift - 1 = shift + 1 by omega, Nat.cast_zero, add_zero, Nat.cast_add,
        Nat.cast_one, ← add_assoc, zpow_add_one₀ two_ne_zero]
      push_cast
      ring

/-- Every pattern is a significand in its place. -/
theorem exists_significand (bits : Nat) :
    ∃ significand shift, bits = significand + shift * leadingBit ∧
      (leadingBit ≤ significand ∨ shift = 0) ∧ significand < 2 * leadingBit := by
  have parts := Nat.div_add_mod bits leadingBit
  have rest := Nat.mod_lt bits (show 0 < leadingBit by decide)
  cases quotient : bits / leadingBit with
  | zero =>
    rw [quotient] at parts
    exact ⟨bits % leadingBit, 0, by omega, .inr rfl, by omega⟩
  | succ shift =>
    rw [quotient, Nat.mul_succ, Nat.mul_comm] at parts
    exact ⟨leadingBit + bits % leadingBit, shift, by omega, .inl (by omega), by omega⟩

/-- A greater pattern is a greater number. -/
theorem magnitude_strictMono : StrictMono magnitude := by
  refine strictMono_nat_of_lt_succ fun bits => ?_
  obtain ⟨significand, shift, rfl, full, short⟩ := exists_significand bits
  rw [Nat.add_right_comm, magnitude_add full short.le,
    magnitude_add (full.imp_left Nat.le_succ_of_le) short]
  have unit : (0 : ℚ) < 2 ^ (minExponent + (shift : Int)) := zpow_pos zero_lt_two _
  have grows : (significand : ℚ) < (significand + 1 : Nat) := by exact_mod_cast Nat.lt_succ_self _
  exact mul_lt_mul_of_pos_right grows unit

/-- A finite number is that of its pattern, and it is even if the pattern is. -/
theorem magnitude_of_meaning {x : Binary64} {negative : Bool} {significand : Nat}
    {exponent : Int} (known : x.meaning = .finite negative significand exponent) :
    magnitude x.magnitudeBits = significand * 2 ^ exponent ∧
      x.magnitudeBits % 2 = significand % 2 := by
  obtain ⟨canonical, -, bits⟩ := meaning_finite known
  obtain ⟨shift, apart⟩ := Int.eq_ofNat_of_zero_le (sub_nonneg.mpr canonical.least)
  have exponents : exponent = minExponent + (shift : Int) := by omega
  rw [pattern, apart, Int.toNat_natCast] at bits
  rw [bits]
  constructor
  · rw [magnitude_add _ canonical.short.le, exponents]
    refine (Nat.lt_or_ge significand leadingBit).symm.imp_right fun missing => ?_
    have smallest := canonical.leading missing
    omega
  · have even : shift * leadingBit % 2 = 0 :=
      Nat.mod_eq_zero_of_dvd (Dvd.dvd.mul_left (by decide) shift)
    omega

/-- Every pattern before infinity is that of a finite number without a sign. -/
theorem exists_meaning {bits : Nat} (finite : bits < infinityBits) :
    ∃ significand exponent,
      (⟨UInt64.ofNat bits⟩ : Binary64).meaning = .finite false significand exponent ∧
        magnitude bits = significand * 2 ^ exponent ∧ bits % 2 = significand % 2 := by
  have fits : bits < signBit := Nat.lt_trans finite (by decide)
  have toNat : (UInt64.ofNat bits).toNat = bits :=
    UInt64.toNat_ofNat_of_lt' (Nat.lt_trans fits (by decide))
  have same : (⟨UInt64.ofNat bits⟩ : Binary64).magnitudeBits = bits := by
    rw [magnitudeBits, toNat, Nat.mod_eq_of_lt fits]
  have positive : (⟨UInt64.ofNat bits⟩ : Binary64).isNegative = false := by
    rw [isNegative, toNat]
    exact decide_eq_false (Nat.not_le.mpr fits)
  obtain ⟨negative, significand, exponent, known⟩ :=
    (isFinite_iff ⟨UInt64.ofNat bits⟩).mp (decide_eq_true (same.symm ▸ finite))
  obtain ⟨-, sign, -⟩ := meaning_finite known
  rw [positive] at sign
  subst sign
  have number := magnitude_of_meaning known
  rw [same] at number
  exact ⟨significand, exponent, known, number⟩

/-! ### The nearest in the row -/

/-- No number in the row is nearer, and as near only if the pattern is even. -/
def Closest (bits : Nat) (q : ℚ) : Prop :=
  ∀ other, other ≠ bits → |q - magnitude bits| ≤ |q - magnitude other| ∧
    (|q - magnitude bits| = |q - magnitude other| → bits % 2 = 0)

/-- Of two numbers the smaller is the nearer up to their middle. -/
theorem abs_sub_le_iff {a b : ℚ} (less : a < b) (q : ℚ) :
    (|q - a| ≤ |q - b| ↔ 2 * q ≤ a + b) ∧ (|q - b| ≤ |q - a| ↔ a + b ≤ 2 * q) := by
  rcases abs_cases (q - a) with ⟨first, _⟩ | ⟨first, _⟩ <;>
    rcases abs_cases (q - b) with ⟨second, _⟩ | ⟨second, _⟩ <;>
    rw [first, second] <;>
    refine ⟨⟨fun _ => ?_, fun _ => ?_⟩, fun _ => ?_, fun _ => ?_⟩ <;> linarith

/-- It is enough to compare a number with its neighbours in the row. -/
theorem closest_of_neighbours {bits : Nat} {q : ℚ}
    (before : ∀ other, other + 1 = bits → magnitude other + magnitude bits ≤ 2 * q ∧
      (2 * q ≤ magnitude other + magnitude bits → bits % 2 = 0))
    (behind : 2 * q ≤ magnitude bits + magnitude (bits + 1) ∧
      (magnitude bits + magnitude (bits + 1) ≤ 2 * q → bits % 2 = 0)) : Closest bits q := by
  intro other apart
  rcases Nat.lt_or_gt_of_ne apart with less | more
  · obtain ⟨previous, rfl⟩ := Nat.exists_eq_add_one_of_ne_zero (Nat.ne_zero_of_lt less)
    obtain ⟨reached, even⟩ := before previous rfl
    have beyond := magnitude_strictMono.monotone (Nat.le_of_lt_succ less)
    obtain ⟨smaller, greater⟩ := abs_sub_le_iff (magnitude_strictMono less) q
    refine ⟨greater.mpr (by linarith), fun edge => even ?_⟩
    have middle := smaller.mp edge.ge
    linarith
  · obtain ⟨reached, even⟩ := behind
    have beyond := magnitude_strictMono.monotone (Nat.succ_le_of_lt more)
    obtain ⟨smaller, greater⟩ := abs_sub_le_iff (magnitude_strictMono more) q
    refine ⟨smaller.mpr (by linarith), fun edge => even ?_⟩
    have middle := greater.mp edge.ge
    linarith

/-- An integer that a number between two others is rounded to, of two equally near to the even
one. -/
inductive Rounds (whole : Nat) (near : ℚ) : Nat → Prop
  | down (below : near ≤ whole + 1 / 2) (even : near = whole + 1 / 2 → whole % 2 = 0) :
      Rounds whole near whole
  | up (above : whole + 1 / 2 ≤ near) (even : near = whole + 1 / 2 → (whole + 1) % 2 = 0) :
      Rounds whole near (whole + 1)

/-- Division to the nearest rounds the quotient. -/
theorem divNearest_rounds (num : Nat) {den : Nat} (positive : 0 < den) :
    Rounds (num / den) (num / den) (divNearest num den) := by
  have parts := Nat.div_add_mod num den
  unfold divNearest
  dsimp only
  generalize num / den = whole at parts
  generalize num % den = rest at parts
  have divisor : (0 : ℚ) < den := by exact_mod_cast positive
  have quotient : (num : ℚ) / den = whole + rest / den := by
    rw [← parts]
    push_cast
    field_simp
  have half : (rest : ℚ) / den = 1 / 2 ↔ 2 * rest = den := by
    rw [div_eq_div_iff divisor.ne' two_ne_zero, one_mul, mul_comm]
    exact_mod_cast Iff.rfl
  rw [quotient]
  split
  · rename_i below
    have less : (rest : ℚ) / den < 1 / 2 := by
      rw [div_lt_div_iff₀ divisor two_pos, one_mul, mul_comm]
      exact_mod_cast below
    exact .down (by linarith) fun edge => by linarith
  · split
    · rename_i above
      have greater : 1 / 2 < (rest : ℚ) / den := by
        rw [div_lt_div_iff₀ two_pos divisor, one_mul, mul_comm (rest : ℚ)]
        exact_mod_cast above
      exact .up (by linarith) fun edge => by linarith
    · have middle := half.mpr (by omega)
      rw [middle]
      rcases Nat.mod_two_eq_zero_or_one whole with even | odd
      · rw [even]
        exact .down le_rfl fun _ => even
      · rw [odd]
        exact .up le_rfl fun _ => by omega

/-- What is rounded in units of its exponent is the closest number. -/
theorem Rounds.closest {whole shift n : Nat} {near : ℚ} (rounds : Rounds whole near n)
    (full : leadingBit ≤ whole ∨ shift = 0) (short : whole < 2 * leadingBit)
    (low : whole ≤ near) (high : near < whole + 1) :
    Closest (n + shift * leadingBit) (near * 2 ^ (minExponent + (shift : Int))) := by
  have lower := magnitude_add full short.le
  have upper := magnitude_add (full.imp_left Nat.le_succ_of_le) (Nat.succ_le_of_lt short)
  have unit : (0 : ℚ) < 2 ^ (minExponent + (shift : Int)) := zpow_pos zero_lt_two _
  generalize (2 : ℚ) ^ (minExponent + (shift : Int)) = scale at lower upper unit ⊢
  push_cast at upper
  have above := mul_le_mul_of_nonneg_right low unit.le
  have below := mul_lt_mul_of_pos_right high unit
  have evenUnits : shift * leadingBit % 2 = 0 :=
    Nat.mod_eq_zero_of_dvd (Dvd.dvd.mul_left (by decide) shift)
  -- A middle that is reached exactly is that of the two neighbours that were rounded to.
  have middle (reached : (whole + 1 / 2) * scale ≤ near * scale)
      (notPassed : near * scale ≤ (whole + 1 / 2) * scale) : near = whole + 1 / 2 :=
    mul_right_cancel₀ unit.ne' (le_antisymm notPassed reached)
  cases rounds with
  | down nearer even =>
    have half := mul_le_mul_of_nonneg_right nearer unit.le
    refine closest_of_neighbours (fun other next => ?_) ⟨?_, fun reached => ?_⟩
    · have less : magnitude other < magnitude (whole + shift * leadingBit) :=
        magnitude_strictMono (by omega)
      exact ⟨by linarith, fun notPassed => by linarith⟩
    · rw [Nat.add_right_comm, lower, upper]
      linarith
    · rw [Nat.add_right_comm, lower, upper] at reached
      have last := even (middle (by linarith) half)
      omega
  | up nearer even =>
    have half := mul_le_mul_of_nonneg_right nearer unit.le
    have more := magnitude_strictMono (Nat.lt_succ_self (whole + 1 + shift * leadingBit))
    refine closest_of_neighbours (fun other next => ?_)
      ⟨by linarith, fun reached => by linarith⟩
    obtain rfl : other = whole + shift * leadingBit := by omega
    rw [lower, upper]
    refine ⟨by linarith, fun notPassed => ?_⟩
    have last := even (middle half (by linarith))
    omega

/-- The middle from which on infinity is the nearest lies behind the last finite pattern. -/
theorem overflow_middle :
    magnitude (infinityBits - 1) + magnitude infinityBits = 2 * overflow := by
  have last : magnitude (infinityBits - 1) = (2 * leadingBit - 1 : Nat) * 2 ^ (971 : Int) :=
    @magnitude_add (2 * leadingBit - 1) 2045 (.inl (by decide)) (by decide)
  have next : magnitude infinityBits = (2 * leadingBit : Nat) * 2 ^ (971 : Int) :=
    @magnitude_add (2 * leadingBit) 2045 (.inl (by decide)) le_rfl
  have whole : (2 : ℚ) ^ 1024 = 2 ^ 53 * 2 ^ 971 := pow_add 2 53 971
  have double : (2 : ℚ) ^ 971 = 2 ^ 970 * 2 := pow_succ 2 970
  rw [last, next, overflow, whole, show (2 : ℚ) ^ (971 : Int) = 2 ^ 971 from rfl, double]
  generalize (2 : ℚ) ^ 970 = unit
  norm_num [leadingBit]
  ring

/-- The closest pattern is finite just before that middle. -/
theorem Closest.overflow_le_iff {bits : Nat} {q : ℚ} (closest : Closest bits q) :
    overflow ≤ q ↔ infinityBits ≤ bits := by
  have middle := overflow_middle
  constructor
  · intro large
    by_contra finite
    have less : bits < infinityBits := Nat.lt_of_not_le finite
    obtain ⟨nearer, even⟩ := closest infinityBits less.ne'
    obtain ⟨smaller, greater⟩ := abs_sub_le_iff (magnitude_strictMono less) q
    have bound := smaller.mp nearer
    -- Only the last finite pattern reaches up to the middle, and it is odd.
    have last : infinityBits - 1 ≤ bits :=
      magnitude_strictMono.le_iff_le.mp (by linarith)
    have odd : bits % 2 = 1 := by
      simp only [infinityBits] at last less
      omega
    have beyond := magnitude_strictMono.monotone (Nat.le_sub_one_of_lt less)
    have zero := even (le_antisymm nearer (greater.mpr (by linarith)))
    omega
  · intro infinite
    have less : infinityBits - 1 < bits := by
      simp only [infinityBits] at infinite ⊢
      omega
    have bound := (abs_sub_le_iff (magnitude_strictMono less) q).2.mp (closest _ less.ne).1
    have beyond := magnitude_strictMono.monotone infinite
    linarith

/-- A number with a sign is no nearer to a quotient without one than zero is. -/
theorem abs_le_of_negative {q : ℚ} (nonnegative : 0 ≤ q) (significand : Nat) (exponent : Int) :
    |q - 0| ≤ |q - -1 * (significand * 2 ^ exponent)| := by
  have product : (0 : ℚ) ≤ significand * 2 ^ exponent :=
    mul_nonneg (Nat.cast_nonneg _) (zpow_pos zero_lt_two _).le
  rw [abs_of_nonneg (by linarith), abs_of_nonneg (by linarith)]
  linarith

theorem magnitude_zero : magnitude 0 = 0 := by simp [magnitude]

/-- The closest in the row is the nearest of all numbers. -/
theorem Closest.isNearest {bits : Nat} {q : ℚ} (closest : Closest bits q)
    (nonnegative : 0 ≤ q) :
    IsNearest (if infinityBits ≤ bits then infinity else ⟨UInt64.ofNat bits⟩) q := by
  rw [IsNearest]
  by_cases infinite : infinityBits ≤ bits
  · rw [if_pos (closest.overflow_le_iff.mpr infinite), if_pos infinite]
  rw [if_neg (closest.overflow_le_iff.not.mpr infinite), if_neg infinite]
  obtain ⟨significand, exponent, known, number, parity⟩ :=
    exists_meaning (Nat.lt_of_not_le infinite)
  refine ⟨significand, exponent, known, fun y other apart value => ?_⟩
  rw [← number, ← parity]
  unfold toRat? at value
  split at value
  · rename_i negative otherSignificand otherExponent otherKnown
    obtain rfl := Option.some_inj.mp value
    obtain ⟨-, sign, -⟩ := meaning_finite otherKnown
    cases negative with
    | false =>
      rw [if_neg Bool.false_ne_true, one_mul, ← (magnitude_of_meaning otherKnown).1]
      refine closest _ fun same => apart ?_
      rw [← ofNat_magnitudeBits sign.symm, same]
    | true =>
      have further := abs_le_of_negative nonnegative otherSignificand otherExponent
      rw [if_pos rfl]
      rcases eq_or_ne 0 bits with rfl | apartFromZero
      · rw [magnitude_zero]
        exact ⟨further, fun _ => rfl⟩
      · obtain ⟨nearer, even⟩ := closest 0 apartFromZero
        rw [magnitude_zero] at nearer even
        exact ⟨nearer.trans further, fun edge =>
          even (le_antisymm nearer (further.trans_eq edge.symm))⟩
  · exact nomatch value

/-- Infinity is the nearest from the middle on. -/
theorem isNearest_infinity {q : ℚ} (large : overflow ≤ q) : IsNearest infinity q := by
  rw [IsNearest, if_pos large]

/-- Zero is the nearest to what is smaller than half the smallest number. -/
theorem isNearest_zero {q : ℚ} (nonnegative : 0 ≤ q) (small : q < 2 ^ (-1075 : Int)) :
    IsNearest zero q := by
  have first : magnitude 1 = 2 ^ (-1075 : Int) * 2 := by
    have only : magnitude 1 = (1 : Nat) * 2 ^ minExponent := by
      unfold magnitude
      rw [if_pos (by decide)]
    rw [only, Nat.cast_one, one_mul, show minExponent = -1075 + 1 from rfl,
      zpow_add_one₀ two_ne_zero]
  have closest : Closest 0 q := by
    refine closest_of_neighbours (fun other next => absurd next (Nat.succ_ne_zero other))
      ⟨?_, fun _ => rfl⟩
    rw [magnitude_zero, zero_add, zero_add, first]
    linarith
  exact closest.isNearest nonnegative

/-! ### Reading -/

/-- At its exponent a quotient has fifty-three bits before the point, or fewer at the smallest
exponent. -/
theorem scaled_exponentOf {num den : Nat} (nonzero : num ≠ 0) (positive : 0 < den) :
    ∃ (shift : Nat) (near : ℚ), exponentOf num den = minExponent + (shift : Int) ∧
      (num : ℚ) / den = near * 2 ^ (minExponent + (shift : Int)) ∧
      near < 2 * leadingBit ∧ (leadingBit ≤ near ∨ shift = 0) := by
  obtain ⟨top, exponent, under, beyond⟩ := exponentOf_spec nonzero positive
  obtain ⟨shift, apart⟩ : ∃ shift : Nat, exponentOf num den = minExponent + (shift : Int) :=
    ⟨(exponentOf num den - minExponent).toNat, by omega⟩
  have scale : (0 : ℚ) < 2 ^ (minExponent + (shift : Int)) := zpow_pos zero_lt_two _
  have bits : (leadingBit : ℚ) = 2 ^ (52 : Int) := by norm_num [leadingBit]
  rw [apart] at exponent
  refine ⟨shift, num / den / 2 ^ (minExponent + (shift : Int)), apart,
    (div_mul_cancel₀ _ scale.ne').symm, ?_, ?_⟩
  · rw [div_lt_iff₀ scale, bits, ← zpow_one_add₀ two_ne_zero, ← zpow_add₀ two_ne_zero]
    exact beyond.trans_le (zpow_le_zpow_right₀ one_le_two (by omega))
  · refine (Nat.eq_zero_or_pos shift).symm.imp_left fun above => ?_
    rw [le_div_iff₀ scale, bits, ← zpow_add₀ two_ne_zero]
    exact (zpow_le_zpow_right₀ one_le_two (by omega)).trans under

/-- A quotient is read as the number nearest to it. -/
theorem ofRatio_nearest (num : Nat) {den : Nat} (positive : 0 < den) :
    IsNearest (ofRatio num den) (num / den) := by
  unfold ofRatio
  split
  · rename_i nothing
    rw [nothing, Nat.cast_zero, zero_div]
    exact isNearest_zero le_rfl (zpow_pos zero_lt_two _)
  · rename_i nonzero
    obtain ⟨shift, near, exponent, ratio, short, full⟩ := scaled_exponentOf nonzero positive
    obtain ⟨lowerPositive, quotient⟩ := scaled_spec num positive (-exponentOf num den)
    have rounds := divNearest_rounds (scaled num den (-exponentOf num den)).1 lowerPositive
    dsimp only
    generalize scaled num den (-exponentOf num den) = pair at lowerPositive quotient rounds
    obtain ⟨upper, lower⟩ := pair
    dsimp only at lowerPositive quotient rounds ⊢
    have unscaled : (upper : ℚ) / lower = near := by
      rw [quotient, exponent, ratio, zpow_neg,
        mul_inv_cancel_right₀ (zpow_pos zero_lt_two _).ne',
        mul_div_cancel_right₀ _ (Nat.cast_ne_zero.mpr lowerPositive.ne')]
    have floor : upper / lower = ⌊near⌋₊ := by
      rw [← unscaled, Nat.floor_div_eq_div]
    have nonnegative : 0 ≤ near := by
      rw [← unscaled]
      positivity
    have low : (⌊near⌋₊ : ℚ) ≤ near := Nat.floor_le nonnegative
    have high : near < ⌊near⌋₊ + 1 := Nat.lt_floor_add_one near
    have wide : ⌊near⌋₊ < 2 * leadingBit := by
      rw [Nat.floor_lt nonnegative]
      exact_mod_cast short
    have leads : leadingBit ≤ ⌊near⌋₊ ∨ shift = 0 := full.imp_left Nat.le_floor
    rw [unscaled, floor] at rounds
    have closest := rounds.closest leads wide low high
    rw [exponent, add_sub_cancel_left, Int.toNat_natCast, ratio]
    exact closest.isNearest (mul_nonneg nonnegative (zpow_pos zero_lt_two _).le)

/-- A decimal is read as the number nearest to it. -/
theorem ofDecimal_nearest (digits : Nat) (power : Int) :
    IsNearest (ofDecimal digits power) (digits * 10 ^ power) := by
  have nonnegative : (0 : ℚ) ≤ digits * 10 ^ power := by positivity
  unfold ofDecimal
  split
  · rename_i nothing
    rw [nothing, Nat.cast_zero, zero_mul]
    exact isNearest_zero le_rfl (zpow_pos zero_lt_two _)
  · rename_i nonzero
    split
    · rename_i large
      have beyond : (2 : ℚ) ^ (1024 : Int) ≤ digits * 10 ^ power :=
        not_lt.mp fun bounded => not_lt.mpr (power_le_of_lt nonzero bounded) large
      refine isNearest_infinity (le_trans ?_ beyond)
      exact sub_le_self _ (pow_pos two_pos 970).le
    · split
      · rename_i whole
        obtain ⟨n, rfl⟩ := Int.eq_ofNat_of_zero_le whole
        have nearest := ofRatio_nearest (digits * 10 ^ n) Nat.one_pos
        rw [Nat.cast_one, div_one, Nat.cast_mul, Nat.cast_pow] at nearest
        rw [zpow_natCast]
        exact nearest
      · split
        · rename_i small
          refine isNearest_zero nonnegative (not_le.mp fun bounded => ?_)
          exact not_lt.mpr (neg_power_le_of_le bounded) small
        · rename_i fraction _
          obtain ⟨n, rfl⟩ : ∃ n : Nat, power = -n := ⟨(-power).toNat, by omega⟩
          have nearest := ofRatio_nearest digits (Nat.pow_pos (n := n) (show 0 < 10 by decide))
          rw [Nat.cast_pow, div_eq_mul_inv] at nearest
          rw [zpow_neg, zpow_natCast, neg_neg, Int.toNat_natCast]
          exact nearest

/-! ### No more than one -/

/-- The nearest number is finite before the middle, and closest among the finite patterns. -/
theorem IsNearest.closest {x : Binary64} {q : ℚ} (nearest : IsNearest x q)
    (bounded : ¬ overflow ≤ q) :
    x = ⟨UInt64.ofNat x.magnitudeBits⟩ ∧ x.magnitudeBits < infinityBits ∧
      ∀ other < infinityBits, other ≠ x.magnitudeBits →
        |q - magnitude x.magnitudeBits| ≤ |q - magnitude other| ∧
          (|q - magnitude x.magnitudeBits| = |q - magnitude other| →
            x.magnitudeBits % 2 = 0) := by
  rw [IsNearest, if_neg bounded] at nearest
  obtain ⟨significand, exponent, known, nearest⟩ := nearest
  obtain ⟨canonical, sign, bits⟩ := meaning_finite known
  obtain ⟨number, parity⟩ := magnitude_of_meaning known
  refine ⟨(ofNat_magnitudeBits sign.symm).symm, bits ▸ pattern_lt canonical,
    fun other finite apart => ?_⟩
  obtain ⟨otherSignificand, otherExponent, otherKnown, otherNumber, -⟩ := exists_meaning finite
  rw [number, parity]
  refine nearest ⟨UInt64.ofNat other⟩ _ ?_ ?_
  · intro same
    rw [same, known] at otherKnown
    obtain ⟨-, rfl, rfl⟩ := Meaning.finite.inj otherKnown
    exact apart (magnitude_strictMono.injective (otherNumber.trans number.symm))
  · rw [toRat?, otherKnown, otherNumber]
    simp only [Bool.false_eq_true, if_false, one_mul]

/-- Between two numbers that are equally near there is a nearer one. -/
theorem nearer_between {a b : Nat} (apart : a + 1 < b) {q : ℚ}
    (same : |q - magnitude a| = |q - magnitude b|) :
    |q - magnitude (a + 1)| < |q - magnitude a| := by
  have above := Nat.lt_succ_self a
  have middle := (abs_sub_le_iff (magnitude_strictMono (above.trans apart)) q).2.mp same.ge
  refine not_le.mp fun nearer => ?_
  have bound := (abs_sub_le_iff (magnitude_strictMono above) q).1.mp nearer
  have below := magnitude_strictMono apart
  linarith

/-- Only one number is the nearest. -/
theorem IsNearest.unique {x y : Binary64} {q : ℚ} (first : IsNearest x q)
    (second : IsNearest y q) : x = y := by
  by_cases large : overflow ≤ q
  · rw [IsNearest, if_pos large] at first second
    rw [first, second]
  obtain ⟨firstBits, firstFinite, first⟩ := first.closest large
  obtain ⟨secondBits, secondFinite, second⟩ := second.closest large
  rw [firstBits, secondBits]
  generalize x.magnitudeBits = a at first firstFinite ⊢
  generalize y.magnitudeBits = b at second secondFinite ⊢
  by_contra apart
  have different : a ≠ b := fun same => apart (same ▸ rfl)
  obtain ⟨nearer, firstEven⟩ := first b secondFinite different.symm
  obtain ⟨asNear, secondEven⟩ := second a firstFinite different
  have same := le_antisymm nearer asNear
  have evenA := firstEven same
  have evenB := secondEven same.symm
  rcases Nat.lt_or_gt_of_ne different with less | more
  · have between := nearer_between (show a + 1 < b by omega) same
    exact not_le.mpr between (first (a + 1) (by omega) (by omega)).1
  · have between := nearer_between (show b + 1 < a by omega) same.symm
    exact not_le.mpr between (second (b + 1) (by omega) (by omega)).1

end Lexis.Binary64
