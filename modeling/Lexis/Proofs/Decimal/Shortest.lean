/-
This file shows that the shortest digits of a number are read back as it. Every grid accepts
just the points that lie in the interval of the number, so whatever the search finds is there.
And it always finds something: on the finest grid one step is shorter than half of any gap
between two numbers, so the first point above the number is still in the interval.
-/

import Lexis.Proofs.Decimal.Rounding

namespace Lexis.Decimal

/-! ### Grids -/

theorem zpow_mul_pow_toNat {b : ℚ} (nonzero : b ≠ 0) (n : Int) :
    b ^ n * b ^ (-n).toNat = b ^ n.toNat := by
  rw [← zpow_natCast, ← zpow_natCast, ← zpow_add₀ nonzero]
  congr 1
  omega

theorem onGrid_eq (target : Target) (k : Int) :
    target.onGrid k =
      { low := target.low * (2 ^ target.unit.toNat * 10 ^ (-k).toNat)
        value := target.value * (2 ^ target.unit.toNat * 10 ^ (-k).toNat)
        high := target.high * (2 ^ target.unit.toNat * 10 ^ (-k).toNat)
        step := 2 ^ (-target.unit).toNat * 10 ^ k.toNat
        closed := target.closed } := by
  simp only [Target.onGrid, Nat.pow_eq]

/-- A grid accepts the points that are in the interval. -/
theorem accepts_onGrid (target : Target) (k : Int) (point : Nat) :
    (target.onGrid k).accepts point = true ↔ target.Holds (point * 10 ^ k) := by
  -- Both sides compare the same numbers, up to one common factor.
  let common : Nat := 2 ^ (-target.unit).toNat * 10 ^ (-k).toNat
  have positive : (0 : ℚ) < common := by exact_mod_cast Nat.mul_pos (by positivity) (by positivity)
  have edge (n : Nat) : ((n * (2 ^ target.unit.toNat * 10 ^ (-k).toNat) : Nat) : ℚ) =
      n * 2 ^ target.unit * common := by
    simp only [common]
    push_cast
    rw [← zpow_mul_pow_toNat two_ne_zero target.unit]
    ring
  have mark : ((point * (2 ^ (-target.unit).toNat * 10 ^ k.toNat) : Nat) : ℚ) =
      point * 10 ^ k * common := by
    simp only [common]
    push_cast
    rw [← zpow_mul_pow_toNat (by norm_num) k]
    ring
  rw [onGrid_eq]
  unfold Gridded.accepts Target.Holds
  dsimp only
  split
  · rw [Bool.and_eq_true, decide_eq_true_eq, decide_eq_true_eq, ← Nat.cast_le (α := ℚ),
      ← Nat.cast_le (α := ℚ), edge, edge, mark, mul_le_mul_iff_left₀ positive,
      mul_le_mul_iff_left₀ positive]
  · rw [Bool.and_eq_true, decide_eq_true_eq, decide_eq_true_eq, ← Nat.cast_lt (α := ℚ),
      ← Nat.cast_lt (α := ℚ), edge, edge, mark, mul_lt_mul_iff_left₀ positive,
      mul_lt_mul_iff_left₀ positive]

theorem accepts_of_choose? {g : Gridded} {tie : Tie} {point : Nat}
    (chosen : g.choose? tie = some point) : g.accepts point = true := by
  unfold Gridded.choose? at chosen
  dsimp only at chosen
  split at chosen
  · rename_i lower upper
    obtain rfl := Option.some.inj chosen
    split
    · exact upper
    · exact lower
  · rename_i lower upper
    obtain rfl := Option.some.inj chosen
    exact lower
  · rename_i lower upper
    obtain rfl := Option.some.inj chosen
    exact upper
  · exact nomatch chosen

/-! ### The search -/

/-- What the search finds is in the interval. -/
theorem holds_of_search {target : Target} {tie : Tie} {tries : Nat} {k : Int} {d : Digits}
    (found : search target tie tries k = some d) : target.Holds (d.digits * 10 ^ d.exponent) := by
  induction tries generalizing k with
  | zero => exact nomatch found
  | succ tries inductionHypothesis =>
    rw [search] at found
    split at found
    · rename_i point chosen
      obtain rfl := Option.some.inj found
      exact (accepts_onGrid target k point).mp (accepts_of_choose? chosen)
    · exact inductionHypothesis found

/-- The search finds something if one of its grids meets the interval. -/
theorem search_isSome {target : Target} {tie : Tie} {k last : Int}
    (meets : ((target.onGrid last).choose? tie).isSome = true) {tries : Nat} (reached : last ≤ k)
    (enough : k < last + tries) : (search target tie tries k).isSome = true := by
  induction tries generalizing k with
  | zero => omega
  | succ tries inductionHypothesis =>
    rw [search]
    split
    · rfl
    · rename_i missed
      have earlier : last ≠ k := by
        rintro rfl
        rw [missed] at meets
        exact nomatch meets
      exact inductionHypothesis (by omega) (by omega)

/-- A grid whose steps are shorter than the way up to the end of the interval meets it. -/
theorem choose?_isSome {g : Gridded} (positive : 0 < g.step) (low : g.low < g.value)
    (high : g.value + g.step < g.high) (tie : Tie) : (g.choose? tie).isSome = true := by
  have upper : g.accepts (g.value / g.step + 1) = true := by
    have parts := Nat.div_add_mod g.value g.step
    have rest := Nat.mod_lt g.value positive
    have point : (g.value / g.step + 1) * g.step = g.step * (g.value / g.step) + g.step := by ring
    have above : g.low < (g.value / g.step + 1) * g.step := by omega
    have below : (g.value / g.step + 1) * g.step < g.high := by omega
    unfold Gridded.accepts
    dsimp only
    split
    · exact Bool.and_eq_true_iff.mpr ⟨decide_eq_true above.le, decide_eq_true below.le⟩
    · exact Bool.and_eq_true_iff.mpr ⟨decide_eq_true above, decide_eq_true below⟩
  unfold Gridded.choose?
  dsimp only
  rw [upper]
  cases g.accepts (g.value / g.step) <;> rfl

/-- The finest grid has a point between any number and the middle above it. -/
theorem finest_meets {significand : Nat} {exponent : Int} (positive : 0 < significand)
    (least : Binary64.minExponent ≤ exponent) (tie : Tie) :
    (((Target.around significand exponent).onGrid finest).choose? tie).isSome = true := by
  have lower : (Target.around significand exponent).low < 4 * significand := by
    unfold Target.around
    dsimp only
    split <;> omega
  have shorter : 2 ^ (-(exponent - 2)).toNat * 10 ^ finest.toNat <
      2 * (2 ^ (exponent - 2).toNat * 10 ^ (-finest).toNat) := by
    have few : (-(exponent - 2)).toNat ≤ 1076 := by
      simp only [Binary64.minExponent] at least
      omega
    calc 2 ^ (-(exponent - 2)).toNat * 10 ^ finest.toNat ≤ 2 ^ 1076 * 10 ^ finest.toNat := by
          gcongr
          decide
      _ < 2 * (1 * 10 ^ (-finest).toNat) := by decide +kernel
      _ ≤ 2 * (2 ^ (exponent - 2).toNat * 10 ^ (-finest).toNat) := by
          gcongr
          exact Nat.one_le_two_pow
  rw [onGrid_eq]
  show (Gridded.choose? ⟨_ * (2 ^ (exponent - 2).toNat * _), 4 * significand *
    (2 ^ (exponent - 2).toNat * _), (4 * significand + 2) * (2 ^ (exponent - 2).toNat * _), _, _⟩
      tie).isSome = true
  generalize 2 ^ (exponent - 2).toNat * 10 ^ (-finest).toNat = up at shorter ⊢
  have upPositive : 0 < up := Nat.pos_of_mul_pos_left (Nat.zero_lt_of_lt shorter)
  refine choose?_isSome (Nat.mul_pos (Nat.pow_pos (by decide)) (Nat.pow_pos (by decide))) ?_ ?_ tie
  · exact Nat.mul_lt_mul_of_pos_right lower upPositive
  · show _ < (4 * significand + 2) * up
    rw [Nat.add_mul]
    exact Nat.add_lt_add_left shorter _

/-- The shortest digits are in the interval. -/
theorem shortest_holds {significand : Nat} {exponent : Int} (positive : 0 < significand)
    (least : Binary64.minExponent ≤ exponent) (tie : Tie) :
    let d := shortest significand exponent tie
    (Target.around significand exponent).Holds (d.digits * 10 ^ d.exponent) := by
  have found : (search (.around significand exponent) tie (coarsest - finest + 1).toNat
      coarsest).isSome = true :=
    search_isSome (finest_meets positive least tie) (by decide) (by decide)
  obtain ⟨d, found⟩ := Option.isSome_iff_exists.mp found
  rw [shortest, found]
  exact holds_of_search found

end Lexis.Decimal
