/-
This file tells which tokens are listed without a value in JSON. Words that are reserved, symbols
and illegal bytes have none to show, and nearly every literal has one that JSON can show too. But
a float may have as many digits as it likes, and it is rounded to the nearest number there is;
from a certain size on that is infinity, for which JSON has no number. So the largest floats are
listed as if they had no value.
-/

import Lexis.Dump.Record
import Lexis.Proofs.Spellings

namespace Lexis

/-- What is nearest to a quotient is finite just if the quotient lies below the middle behind the
largest number. -/
theorem Binary64.IsNearest.isFinite_iff {x : Binary64} {q : ℚ} (nearest : x.IsNearest q) :
    x.isFinite = true ↔ ¬ overflow ≤ q := by
  unfold IsNearest at nearest
  split at nearest
  · rename_i large
    subst nearest
    exact iff_of_false (by decide) (not_not_intro large)
  · rename_i bounded
    obtain ⟨significand, exponent, known, -⟩ := nearest
    exact iff_of_true ((Binary64.isFinite_iff x).mpr ⟨_, _, _, known⟩) bounded

namespace Scan

/-! ### Decimals with a point -/

/-- What it means that bytes are a decimal with a point, and the quotient that it stands for. -/
inductive DecimalOf : List UInt8 → ℚ → Prop
  | pointed {whole fraction : List UInt8} {before behind : List Nat}
      (first : Numeral 10 false whole before) (second : Numeral 10 false fraction behind) :
      DecimalOf (whole ++ dot :: fraction)
        ((Nat.ofDigits 10 (before ++ behind).reverse : Nat) / 10 ^ behind.length)

/-- The point is no part of a numeral. -/
theorem Numeral.pointless {leading : Bool} {run : List UInt8} {digits : List Nat}
    (numeral : Numeral 10 leading run digits) : dot ∉ run := by
  intro member
  have kept : dot ∈ run.filter (· ≠ underscore) :=
    List.mem_filter.mpr ⟨member, by decide⟩
  have digits := ((List.forall₂_and_left (p := IsDigit 10 ∘ some) _ _).mp
    (numeral.digits.imp fun b value digit => ⟨isDigit_some.mpr ⟨value, digit⟩, digit⟩)).1
  exact absurd (isDigit_iff.mpr (digits dot kept)) (by decide)

/-- A numeral has its digits and no others. -/
theorem Numeral.unique {radix : Nat} {leading : Bool} {run : List UInt8}
    {digits others : List Nat} (first : Numeral radix leading run digits)
    (second : Numeral radix leading run others) : digits = others :=
  Option.some_inj.mp
    ((readDigits_eq_some_iff.mpr first).symm.trans (readDigits_eq_some_iff.mpr second))

theorem DecimalOf.unique {lexeme : List UInt8} {q other : ℚ} (first : DecimalOf lexeme q)
    (second : DecimalOf lexeme other) : q = other := by
  cases first with
  | @pointed whole fraction before behind whole₁ fraction₁ =>
    generalize same : whole ++ dot :: fraction = lexeme at second
    cases second with
    | pointed whole₂ fraction₂ =>
      obtain ⟨rfl, -, rfl⟩ :=
        (List.append_cons_inj_of_notMem whole₁.pointless fraction₁.pointless).mp same
      obtain rfl := whole₁.unique whole₂
      obtain rfl := fraction₁.unique fraction₂
      rfl

/-! ### What is read of a literal -/

/-- A float was read from a decimal with a point, and stands for what is nearest to it. -/
theorem TokenRead.float {bytes : List UInt8} {value : Value} {size : Nat}
    (read : TokenRead bytes (.ok (.float, value)) size) :
    ∃ lexeme behind q x, bytes = lexeme ++ behind ∧ size = lexeme.length ∧
      DecimalOf lexeme q ∧ value = .float x ∧ x.IsNearest q := by
  cases read with
  | word begins read => cases read with | named spelled known cut => cases known
  | number begins read =>
    cases read with
    | marked named cut read => cases read
    | plain unmarked cut pointless read => cases read
    | @pointed whole fraction behind outcome unmarked before cut read =>
      cases read with
      | @float _ _ x first second nearest =>
        refine ⟨whole ++ dot :: fraction, behind, _, x, ?_, ?_, .pointed first second, rfl,
          nearest⟩
        · rw [List.append_assoc, List.cons_append]
        · rw [List.length_append, List.length_cons, Nat.add_assoc, Nat.add_comm 1]
  | char read => simpa using read.content
  | string read => simpa using read.content
  | symbol begins read =>
    cases read with
    | spelled longest => exact absurd longest.member (by decide)

/-- Every other literal stands for what JSON can show. -/
theorem Carries.toJson_ne_null {kind : Kind} {value : Value} (carried : Carries kind value)
    (literal : kind.isLiteral = true) (other : kind ≠ .float) : value.toJson ≠ .null := by
  cases carried with
  | eof => exact absurd literal (by decide)
  | float x => exact absurd rfl other
  | word | int | char | str => exact nofun
  | symbol member =>
    have every : ∀ k ∈ Kind.symbols, k.isLiteral = false := by decide
    rw [every kind member] at literal
    exact Bool.noConfusion literal

end Scan

/-! ### Values in records -/

/-- The kinds that carry no value to be shown. -/
theorem Kind.isLiteral_eq_false_iff (kind : Kind) :
    kind.isLiteral = false ↔ kind.isKeyword = true ∨ kind.isOperator = true ∨
      kind.isDelimiter = true ∨ kind = .illegal ∨ kind = .eof := by
  cases kind <;> simp [isLiteral, isKeyword, isOperator, isDelimiter]

theorem TokenRecord.value_ofToken (file : String) (token : Token) :
    (ofToken file token).value = if token.kind.isLiteral then token.value.toJson else .null :=
  rfl

/-- The tokens that are listed without a value. They are those of the kinds that carry none, and
the floats that lie beyond the range of the numbers. -/
theorem record_value_null_iff {source : List UInt8} {mode : PositionMode} {token : Token}
    (member : token ∈ (tokenize source mode).tokens) (file : String) :
    (TokenRecord.ofToken file token).value = .null ↔
      (token.kind.isKeyword = true ∨ token.kind.isOperator = true ∨
          token.kind.isDelimiter = true ∨ token.kind = .illegal ∨ token.kind = .eof) ∨
        token.kind = .float ∧
          ∃ q, Scan.DecimalOf (token.stretch.text source) q ∧ Binary64.overflow ≤ q := by
  rw [← Kind.isLiteral_eq_false_iff, TokenRecord.value_ofToken]
  by_cases literal : token.kind.isLiteral = true
  · rw [if_pos literal, literal, or_iff_right (by decide)]
    have legal : token.kind ≠ .illegal := by
      intro illegal
      rw [illegal] at literal
      exact Bool.false_ne_true literal
    obtain ⟨size, read, stop⟩ := exists_tokenRead_of_legal member legal
    by_cases float : token.kind = .float
    · rw [float] at read
      obtain ⟨lexeme, behind, q, x, bytes, rfl, decimal, stands, nearest⟩ := read.float
      rw [(text_of_stop bytes stop).1, stands, Value.toJson]
      by_cases large : Binary64.overflow ≤ q
      · rw [if_neg (nearest.isFinite_iff.not.mpr (not_not_intro large))]
        exact iff_of_true rfl ⟨float, q, decimal, large⟩
      · rw [if_pos (nearest.isFinite_iff.mpr large)]
        refine iff_of_false nofun ?_
        rintro ⟨-, other, otherDecimal, otherLarge⟩
        exact large (decimal.unique otherDecimal ▸ otherLarge)
    · exact iff_of_false (read.carries.toJson_ne_null literal float) fun lost => float lost.1
  · rw [if_neg literal]
    exact iff_of_true rfl (.inl (Bool.eq_false_iff.mpr literal))

/-- A float of 310 digits before its point. -/
def tooLarge : List UInt8 := 0x31 :: (List.replicate 309 0x30 ++ [Scan.dot, 0x30])

/-- It is listed without a value, since it lies beyond the range. -/
theorem record_value_null_iff_tooLarge :
    ∃ token ∈ (tokenize tooLarge .lineColumn).tokens, token.kind = .float ∧
      (TokenRecord.ofToken "t.us" token).value = .null ∧
      ∃ q, Scan.DecimalOf (token.stretch.text tooLarge) q ∧ Binary64.overflow ≤ q := by
  have member : ⟨.float, .float .infinity, ⟨0, 312, 1, 1, 0⟩⟩ ∈
      (tokenize tooLarge .lineColumn).tokens := by decide +kernel
  refine ⟨_, member, rfl, rfl, ?_⟩
  obtain none | ⟨-, beyond⟩ := (record_value_null_iff member "t.us").mp rfl
  · exact absurd none (by decide)
  · exact beyond

/-- So not every token without a value is reserved, a symbol or illegal. -/
theorem tooLarge_loses_value :
    ¬ ∀ token ∈ (tokenize tooLarge .columnOnly).tokens, token.kind ≠ .eof →
      ((TokenRecord.ofToken "t.us" token).value = .null ↔
        token.kind.isKeyword = true ∨ token.kind.isOperator = true ∨
          token.kind.isDelimiter = true ∨ token.kind = .illegal) := by
  intro exactly
  have member : ⟨.float, .float .infinity, ⟨0, 312, 1, 1, 0⟩⟩ ∈
      (tokenize tooLarge .columnOnly).tokens := by decide +kernel
  exact absurd ((exactly _ member (by decide)).mp rfl) (by decide)

end Lexis
