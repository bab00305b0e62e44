/-
This file gives the grammar of numbers and proves that the scanner reads it. A number is cut
by classes of bytes alone, and then the runs that were cut are asked whether they are numerals:
whether their bytes are digits of the radix and their separators stand between digits. Where a
separator may stand is said of the run as a whole, while the scanner keeps a flag for it; that
both agree is an induction over the run.

As with quoted literals the grammar derives something of any bytes that begin a number, so the
scanner finds what it derives and nothing else.
-/

import Mathlib.Data.FinEnum
import Mathlib.Data.Nat.Digits.Defs
import Lexis.Proofs.Decimal.Nearest
import Lexis.Proofs.Findings
import Lexis.Proofs.Respacing

namespace Lexis

namespace Scan

/-! ### Digits -/

/-- The digits of a radix: the figures, and behind them the letters in either case. -/
inductive Digit (radix : Nat) (b : UInt8) : Nat → Prop
  | figure {value : Nat} (narrow : value < 10) (spelled : b.toNat = 0x30 + value)
      (small : value < radix) : Digit radix b value
  | upper {place : Nat} (narrow : place < 26) (spelled : b.toNat = 0x41 + place)
      (small : 10 + place < radix) : Digit radix b (10 + place)
  | lower {place : Nat} (narrow : place < 26) (spelled : b.toNat = 0x61 + place)
      (small : 10 + place < radix) : Digit radix b (10 + place)

/-- The scanner knows just these digits. -/
theorem digit?_eq_some_iff {radix : Nat} {b : UInt8} {value : Nat} :
    digit? radix b = some value ↔ Digit radix b value := by
  rw [digit?, Option.filter_eq_some_iff, decide_eq_true_eq]
  simp only [digitValue?, Bool.and_eq_true, decide_eq_true_eq, UInt8.le_iff_toNat_le,
    UInt8.reduceToNat]
  constructor
  · rintro ⟨known, small⟩
    repeat' split at known
    · obtain rfl := Option.some_inj.mp known
      exact .figure (by omega) (by omega) small
    · obtain rfl := Option.some_inj.mp known
      rw [Nat.add_comm] at small ⊢
      exact .upper (by omega) (by omega) small
    · obtain rfl := Option.some_inj.mp known
      rw [Nat.add_comm] at small ⊢
      exact .lower (by omega) (by omega) small
    · exact nomatch known
  · rintro (⟨narrow, spelled, small⟩ | ⟨narrow, spelled, small⟩ | ⟨narrow, spelled, small⟩)
    · rw [if_pos (by omega)]
      exact ⟨congrArg some (by omega), small⟩
    · rw [if_neg (by omega), if_pos (by omega)]
      exact ⟨congrArg some (by omega), small⟩
    · rw [if_neg (by omega), if_neg (by omega), if_pos (by omega)]
      exact ⟨congrArg some (by omega), small⟩

/-- Whether a byte is there and is a digit. -/
def IsDigit (radix : Nat) (found : Option UInt8) : Prop :=
  ∃ b ∈ found, ∃ value, Digit radix b value

theorem isDigit_some {radix : Nat} {b : UInt8} :
    IsDigit radix (some b) ↔ ∃ value, Digit radix b value := by
  simp only [IsDigit, Option.mem_some_iff, exists_eq_left']

theorem not_isDigit_none {radix : Nat} : ¬ IsDigit radix none :=
  fun ⟨_, member, _⟩ => nomatch member

theorem beginsWithDigit_iff {radix : Nat} {bytes : List UInt8} :
    beginsWithDigit radix bytes = true ↔ IsDigit radix bytes.head? := by
  cases bytes with
  | nil => exact iff_of_false Bool.false_ne_true not_isDigit_none
  | cons b rest =>
    rw [List.head?_cons, isDigit_some, beginsWithDigit, Option.isSome_iff_exists]
    exact exists_congr fun value => digit?_eq_some_iff

/-- The decimal digits are the bytes of their class. -/
theorem isDigit_iff {b : UInt8} : isDigit b = true ↔ IsDigit 10 (some b) := by
  have starts : beginsWithDigit 10 [b] = true ↔ IsDigit 10 (some b) := beginsWithDigit_iff
  rw [← starts]
  refine ⟨fun digit => ?_, isDigit_of_beginsWithDigit⟩
  have every : ∀ d : UInt8, isDigit d = true → beginsWithDigit 10 [d] = true := by
    decide +kernel
  exact every b digit

theorem not_digit_underscore {radix value : Nat} : ¬ Digit radix underscore value := by
  rw [← digit?_eq_some_iff]
  exact nofun

/-! ### Numerals -/

/-- What it means that a run is a numeral with these digits. Its bytes but for the separators
are the digits, and every separator has a digit directly behind it and one directly before it;
at the front of the run the one before may be missing if that is allowed. -/
structure Numeral (radix : Nat) (leading : Bool) (run : List UInt8) (digits : List Nat) :
    Prop where
  digits : List.Forall₂ (Digit radix) (run.filter (· ≠ underscore)) digits
  separated : ∀ before behind, run = before ++ underscore :: behind →
    IsDigit radix behind.head? ∧
      (IsDigit radix before.getLast? ∨ leading = true ∧ before = [])

theorem numeral_nil {radix : Nat} {leading : Bool} {digits : List Nat} :
    Numeral radix leading [] digits ↔ digits = [] := by
  constructor
  · rintro ⟨digits, -⟩
    exact List.forall₂_nil_left_iff.mp digits
  · rintro rfl
    exact ⟨.nil, fun before behind split => absurd split (by simp)⟩

theorem isDigit_getLast?_cons {radix : Nat} {b : UInt8} {before : List UInt8} :
    IsDigit radix (b :: before).getLast? ↔
      IsDigit radix before.getLast? ∨ before = [] ∧ ∃ value, Digit radix b value := by
  rw [List.getLast?_cons, isDigit_some]
  cases before using List.reverseRecOn with
  | nil => simp [not_isDigit_none]
  | append_singleton before c => simp [isDigit_some]

/-- A separator at the front must be allowed there, and must not be followed by another. -/
theorem numeral_underscore {radix : Nat} {leading : Bool} {rest : List UInt8}
    {digits : List Nat} :
    Numeral radix leading (underscore :: rest) digits ↔
      (leading = true ∧ IsDigit radix rest.head?) ∧ Numeral radix false rest digits := by
  constructor
  · rintro ⟨digits, separated⟩
    obtain ⟨starts, before | ⟨allowed, -⟩⟩ := separated [] rest rfl
    · exact absurd before not_isDigit_none
    refine ⟨⟨allowed, starts⟩, digits, fun before behind split => ?_⟩
    obtain ⟨later, earlier | ⟨-, nothing⟩⟩ :=
      separated (underscore :: before) behind (congrArg (underscore :: ·) split)
    · obtain earlier | ⟨-, value, digit⟩ := isDigit_getLast?_cons.mp earlier
      · exact ⟨later, .inl earlier⟩
      · exact absurd digit not_digit_underscore
    · exact nomatch nothing
  · rintro ⟨⟨allowed, starts⟩, digits, separated⟩
    refine ⟨digits, fun before behind split => ?_⟩
    cases before with
    | nil =>
      obtain ⟨-, rfl⟩ := List.cons.inj split
      exact ⟨starts, .inr ⟨allowed, rfl⟩⟩
    | cons first before =>
      obtain ⟨rfl, tails⟩ := List.cons.inj split
      obtain ⟨later, earlier | ⟨no, -⟩⟩ := separated before behind tails
      · exact ⟨later, .inl (isDigit_getLast?_cons.mpr (.inl earlier))⟩
      · exact nomatch no

/-- Behind a digit a separator is always allowed. -/
theorem numeral_cons {radix : Nat} {leading : Bool} {b : UInt8} (noSeparator : b ≠ underscore)
    {rest : List UInt8} {digits : List Nat} :
    Numeral radix leading (b :: rest) digits ↔
      ∃ value others, Digit radix b value ∧ Numeral radix true rest others ∧
        digits = value :: others := by
  have kept : (b :: rest).filter (· ≠ underscore) = b :: rest.filter (· ≠ underscore) :=
    List.filter_cons_of_pos (decide_eq_true noSeparator)
  constructor
  · rintro ⟨digits, separated⟩
    rw [kept, List.forall₂_cons_left_iff] at digits
    obtain ⟨value, others, digit, later, rfl⟩ := digits
    refine ⟨value, others, digit, ⟨later, fun before behind split => ?_⟩, rfl⟩
    obtain ⟨starts, earlier | ⟨-, nothing⟩⟩ :=
      separated (b :: before) behind (congrArg (b :: ·) split)
    · exact ⟨starts, (isDigit_getLast?_cons.mp earlier).imp_right fun nothing =>
        ⟨rfl, nothing.1⟩⟩
    · exact nomatch nothing
  · rintro ⟨value, others, digit, ⟨later, separated⟩, rfl⟩
    refine ⟨kept ▸ .cons digit later, fun before behind split => ?_⟩
    cases before with
    | nil =>
      obtain ⟨rfl, -⟩ := List.cons.inj split
      exact absurd rfl noSeparator
    | cons first before =>
      obtain ⟨rfl, tails⟩ := List.cons.inj split
      obtain ⟨starts, earlier⟩ := separated before behind tails
      exact ⟨starts, .inl (isDigit_getLast?_cons.mpr (earlier.imp_right fun nothing =>
        ⟨nothing.2, value, digit⟩))⟩

/-- A run that begins with a digit is no numeral without digits. -/
theorem Numeral.ne_nil {radix : Nat} {leading : Bool} {run : List UInt8}
    {digits : List Nat} (numeral : Numeral radix leading run digits)
    (first : IsDigit radix run.head?) : digits ≠ [] := by
  cases run with
  | nil => exact absurd first not_isDigit_none
  | cons b rest =>
    obtain ⟨value, digit⟩ := isDigit_some.mp first
    have noSeparator : b ≠ underscore := by
      rintro rfl
      exact not_digit_underscore digit
    obtain ⟨_, _, -, -, rfl⟩ := (numeral_cons noSeparator).mp numeral
    exact List.cons_ne_nil _ _

/-- The scanner reads just the numerals. -/
theorem readDigits_eq_some_iff {radix : Nat} {leading : Bool} {run : List UInt8}
    {digits : List Nat} :
    readDigits radix leading run = some digits ↔ Numeral radix leading run digits := by
  induction run generalizing leading digits with
  | nil => rw [readDigits, numeral_nil, Option.some_inj, eq_comm]
  | cons b rest inductionHypothesis =>
    rw [readDigits]
    split
    · rename_i separator
      rw [separator, numeral_underscore, ← beginsWithDigit_iff, ← Bool.and_eq_true_iff]
      split
      · rename_i allowed
        rw [inductionHypothesis]
        exact (and_iff_right allowed).symm
      · rename_i misplaced
        exact iff_of_false nofun fun placed => misplaced placed.1
    · rename_i noSeparator
      rw [numeral_cons noSeparator]
      simp only [← digit?_eq_some_iff, ← inductionHypothesis]
      cases digit? radix b with
      | none => simp
      | some value =>
        simp only [Option.map_eq_some_iff, Option.some_inj, exists_and_left, exists_eq_left']
        exact exists_congr fun others => and_congr_right fun _ => eq_comm

/-- The number of digits, read from the other end. -/
theorem positional_eq_ofDigits (radix : Nat) (digits : List Nat) :
    positional radix digits = Nat.ofDigits radix digits.reverse := by
  rw [positional, Nat.ofDigits_eq_foldr, List.foldr_reverse]
  simp only [Nat.cast_id, Nat.mul_comm, Nat.add_comm]

/-! ### The grammar of numbers -/

/-- What it means that a run stands for an integer: it is a numeral of one digit or more, and
the number of its digits is not too large. -/
def IntegerOf (radix : Nat) (leading : Bool) (run : List UInt8) (n : Nat) : Prop :=
  ∃ digits, digits ≠ [] ∧ Numeral radix leading run digits ∧
    n = Nat.ofDigits radix digits.reverse ∧ n ≤ 2 ^ 63 - 1

/-- What a run gives that was cut as an integer. -/
inductive IntegerRead (radix : Nat) (leading : Bool) (run : List UInt8) :
    Except Fault (Kind × Value) → Prop
  | int {n : Nat} {value : Int64} (stands : IntegerOf radix leading run n)
      (same : value.toInt = n) : IntegerRead radix leading run (.ok (.int, .int value))
  | badInteger (none : ∀ n, ¬ IntegerOf radix leading run n) :
      IntegerRead radix leading run (.error .badInteger)

/-- What two runs give that were cut with a point between them: the number nearest to the
decimal that they show. -/
inductive FloatRead (whole fraction : List UInt8) : Except Fault (Kind × Value) → Prop
  | float {before behind : List Nat} {value : Binary64} (first : Numeral 10 false whole before)
      (second : Numeral 10 false fraction behind)
      (nearest : value.IsNearest
        ((Nat.ofDigits 10 (before ++ behind).reverse : Nat) / 10 ^ behind.length)) :
      FloatRead whole fraction (.ok (.float, .float value))
  | badFloat (none : ¬ ∃ before behind, Numeral 10 false whole before ∧
      Numeral 10 false fraction behind) : FloatRead whole fraction (.error .badFloat)

/-- The marks of the radixes, which stand behind a zero. -/
inductive RadixMark : UInt8 → Nat → Prop
  | hexLower : RadixMark 0x78 16
  | hexUpper : RadixMark 0x58 16
  | octalLower : RadixMark 0x6F 8
  | octalUpper : RadixMark 0x4F 8
  | binaryLower : RadixMark 0x62 2
  | binaryUpper : RadixMark 0x42 2

def Marked (bytes : List UInt8) : Prop :=
  ∃ mark radix rest, bytes = 0x30 :: mark :: rest ∧ RadixMark mark radix

/-- All bytes of a class that there are before others. -/
structure Run (belongs : UInt8 → Bool) (run behind : List UInt8) : Prop where
  all : ∀ b ∈ run, belongs b = true
  ends : ∀ b ∈ behind.head?, belongs b = false

/-- What bytes give that begin a number, and how many of them the number takes up. -/
inductive NumberRead : List UInt8 → Except Fault (Kind × Value) → Nat → Prop
  | marked {mark : UInt8} {radix : Nat} {run behind : List UInt8}
      {outcome : Except Fault (Kind × Value)} (named : RadixMark mark radix)
      (cut : Run isWordByte run behind) (read : IntegerRead radix true run outcome) :
      NumberRead (0x30 :: mark :: (run ++ behind)) outcome (2 + run.length)
  | plain {run behind : List UInt8} {outcome : Except Fault (Kind × Value)}
      (unmarked : ¬ Marked (run ++ behind)) (cut : Run isDigitOrSeparator run behind)
      (pointless : behind.head? ≠ some dot)
      (read : IntegerRead (if 1 < run.length ∧ run.head? = some 0x30 then 8 else 10) false run
        outcome) : NumberRead (run ++ behind) outcome run.length
  | pointed {whole fraction behind : List UInt8} {outcome : Except Fault (Kind × Value)}
      (unmarked : ¬ Marked (whole ++ dot :: (fraction ++ behind)))
      (before : ∀ b ∈ whole, isDigitOrSeparator b = true)
      (cut : Run isDigitOrSeparator fraction behind) (read : FloatRead whole fraction outcome) :
      NumberRead (whole ++ dot :: (fraction ++ behind)) outcome
        (whole.length + 1 + fraction.length)

/-- Bytes that begin a number: a digit, or a point with a digit behind it. -/
def BeginsNumber (bytes : List UInt8) : Prop :=
  IsDigit 10 bytes.head? ∨ ∃ rest, bytes = dot :: rest ∧ IsDigit 10 rest.head?

/-! ### What the scanner makes of a run -/

theorem IntegerRead.scanned {radix : Nat} {leading : Bool} {run : List UInt8}
    {outcome : Except Fault (Kind × Value)} (read : IntegerRead radix leading run outcome) :
    integer radix leading run = outcome := by
  cases read with
  | @int n value stands same =>
    obtain ⟨digits, nonempty, numeral, number, small⟩ := stands
    obtain ⟨first, others, rfl⟩ := List.exists_cons_of_ne_nil nonempty
    have bound : n < 2 ^ 63 := by omega
    have word : Int64.ofNat n = value :=
      Int64.toInt_inj.mp ((Int64.toInt_ofNat_of_lt bound).trans same.symm)
    rw [integer, readDigits_eq_some_iff.mpr numeral]
    dsimp only
    rw [positional_eq_ofDigits, ← number, if_pos (show n < integerBound from bound), word]
  | badInteger none =>
    unfold integer
    split
    · rfl
    · rfl
    · rename_i digits nonempty read
      dsimp only
      split
      · rename_i small
        refine absurd ⟨digits, ?_, readDigits_eq_some_iff.mp read, rfl, ?_⟩ (none _)
        · rintro rfl
          exact nonempty rfl
        · rw [← positional_eq_ofDigits]
          simp only [integerBound] at small
          omega
      · rfl

theorem exists_integerRead (radix : Nat) (leading : Bool) (run : List UInt8) :
    ∃ outcome, IntegerRead radix leading run outcome := by
  by_cases stands : ∃ n, IntegerOf radix leading run n
  · obtain ⟨n, stands⟩ := stands
    have bound : n < 2 ^ 63 := by
      obtain ⟨-, -, -, -, small⟩ := stands
      omega
    exact ⟨_, .int stands (Int64.toInt_ofNat_of_lt bound)⟩
  · exact ⟨_, .badInteger (not_exists.mp stands)⟩

/-- The value of a decimal with a point. -/
theorem ofDecimal_digits_nearest (before behind : List Nat) :
    (Binary64.ofDecimal (positional 10 (before ++ behind)) (-(behind.length : Int))).IsNearest
      ((Nat.ofDigits 10 (before ++ behind).reverse : Nat) / 10 ^ behind.length) := by
  have nearest := Binary64.ofDecimal_nearest (positional 10 (before ++ behind))
    (-(behind.length : Int))
  rw [zpow_neg, zpow_natCast, ← div_eq_mul_inv] at nearest
  rw [← positional_eq_ofDigits]
  exact nearest

theorem FloatRead.scanned {whole fraction : List UInt8}
    {outcome : Except Fault (Kind × Value)} (read : FloatRead whole fraction outcome)
    (filled : ∀ before behind, Numeral 10 false whole before →
      Numeral 10 false fraction behind → before ≠ [] ∨ behind ≠ []) :
    pointed whole fraction = outcome := by
  cases read with
  | @float before behind value first second nearest =>
    have nonempty : (before.isEmpty && behind.isEmpty) = false := by
      rcases filled before behind first second with nonempty | nonempty
      · rw [List.isEmpty_eq_false_iff.mpr nonempty, Bool.false_and]
      · rw [List.isEmpty_eq_false_iff.mpr nonempty, Bool.and_false]
    rw [pointed, readDigits_eq_some_iff.mpr first, readDigits_eq_some_iff.mpr second]
    dsimp only
    rw [nonempty, if_neg Bool.false_ne_true,
      (ofDecimal_digits_nearest before behind).unique nearest]
  | badFloat none =>
    unfold pointed
    split
    · rename_i before behind first second
      exact absurd ⟨before, behind, readDigits_eq_some_iff.mp first,
        readDigits_eq_some_iff.mp second⟩ none
    · rfl

theorem exists_floatRead (whole fraction : List UInt8) :
    ∃ outcome, FloatRead whole fraction outcome := by
  by_cases numerals : ∃ before behind, Numeral 10 false whole before ∧
      Numeral 10 false fraction behind
  · obtain ⟨before, behind, first, second⟩ := numerals
    exact ⟨_, .float first second (ofDecimal_digits_nearest before behind)⟩
  · exact ⟨_, .badFloat numerals⟩

/-! ### What the scanner cuts -/

theorem radixOfMark?_eq_some_iff {mark : UInt8} {radix : Nat} :
    radixOfMark? mark = some radix ↔ RadixMark mark radix := by
  constructor
  · intro known
    simp only [radixOfMark?, Bool.or_eq_true, decide_eq_true_eq] at known
    split at known
    · rename_i hexadecimal
      obtain rfl := Option.some_inj.mp known
      rcases hexadecimal with rfl | rfl
      exacts [.hexLower, .hexUpper]
    split at known
    · rename_i octal
      obtain rfl := Option.some_inj.mp known
      rcases octal with rfl | rfl
      exacts [.octalLower, .octalUpper]
    split at known
    · rename_i binary
      obtain rfl := Option.some_inj.mp known
      rcases binary with rfl | rfl
      exacts [.binaryLower, .binaryUpper]
    · exact nomatch known
  · intro named
    cases named <;> rfl

theorem markedRadix?_of_not_marked {bytes : List UInt8} (unmarked : ¬ Marked bytes) :
    markedRadix? bytes = none := by
  unfold markedRadix?
  split
  · rename_i b mark rest
    split
    · rename_i zero
      subst zero
      refine Option.eq_none_iff_forall_ne_some.mpr fun radix known => unmarked ?_
      exact ⟨mark, radix, rest, rfl, radixOfMark?_eq_some_iff.mp known⟩
    · rfl
  · rfl

theorem Run.takeWhile_eq {belongs : UInt8 → Bool} {run behind : List UInt8}
    (cut : Run belongs run behind) : (run ++ behind).takeWhile belongs = run := by
  rw [List.takeWhile_append_of_pos cut.all]
  cases behind with
  | nil => rw [List.takeWhile_nil, List.append_nil]
  | cons b rest =>
    rw [List.takeWhile_cons_of_neg (Bool.eq_false_iff.mp (cut.ends b rfl)), List.append_nil]

theorem exists_run (belongs : UInt8 → Bool) (bytes : List UInt8) :
    ∃ run behind, bytes = run ++ behind ∧ Run belongs run behind := by
  refine ⟨bytes.takeWhile belongs, bytes.dropWhile belongs,
    List.takeWhile_append_dropWhile.symm, fun b member => ?_, fun b first => ?_⟩
  · exact List.mem_takeWhile_imp member
  · have stops := List.head?_dropWhile_not belongs bytes
    rw [Option.mem_def.mp first] at stops
    exact stops

/-- A number with a point has a digit before it or behind it. -/
theorem digits_of_begins {whole fraction behind : List UInt8}
    (begins : BeginsNumber (whole ++ dot :: (fraction ++ behind)))
    (before : ∀ b ∈ whole, isDigitOrSeparator b = true)
    (cut : Run isDigitOrSeparator fraction behind) {digits others : List Nat}
    (numeral : Numeral 10 false whole digits) (other : Numeral 10 false fraction others) :
    digits ≠ [] ∨ others ≠ [] := by
  cases whole with
  | nil =>
    rcases begins with digit | ⟨_, split, digit⟩
    · exact absurd (isDigit_iff.mpr digit) (by decide)
    · obtain ⟨-, rfl⟩ := List.cons.inj split
      cases fraction with
      | nil =>
        -- The digit behind the point would be the first byte behind the run.
        cases behind with
        | nil => exact absurd digit not_isDigit_none
        | cons b rest =>
          have outside := cut.ends b rfl
          rw [isDigitOrSeparator, isDigit_iff.mpr digit, Bool.true_or] at outside
          exact Bool.noConfusion outside
      | cons b rest => exact .inr (other.ne_nil digit)
  | cons b rest =>
    rcases begins with digit | ⟨_, split, -⟩
    · exact .inl (numeral.ne_nil digit)
    · obtain ⟨rfl, -⟩ := List.cons.inj split
      exact absurd (before dot List.mem_cons_self) (by decide)

/-- What the grammar derives of bytes that begin a number the scanner finds. -/
theorem NumberRead.scanned {bytes : List UInt8} {outcome : Except Fault (Kind × Value)}
    {size : Nat} (read : NumberRead bytes outcome size) (begins : BeginsNumber bytes) :
    number bytes = ⟨outcome, size⟩ := by
  cases read with
  | @marked mark radix run behind outcome named cut read =>
    have known : markedRadix? (0x30 :: mark :: (run ++ behind)) = some radix :=
      radixOfMark?_eq_some_iff.mpr named
    rw [number, known]
    dsimp only
    rw [List.drop_succ_cons, List.drop_succ_cons, List.drop_zero, cut.takeWhile_eq,
      read.scanned]
  | @plain run behind outcome unmarked cut pointless read =>
    have radix : plainRadix run = if 1 < run.length ∧ run.head? = some 0x30 then 8 else 10 := by
      simp only [plainRadix, Bool.and_eq_true, decide_eq_true_eq]
    rw [number, markedRadix?_of_not_marked unmarked]
    dsimp only
    rw [cut.takeWhile_eq, List.drop_left, if_neg pointless, radix, read.scanned]
  | @pointed whole fraction behind outcome unmarked before cut read =>
    have first : Run isDigitOrSeparator whole (dot :: (fraction ++ behind)) := by
      refine ⟨before, ?_⟩
      rintro _ ⟨⟩
      rfl
    have filled (digits others : List Nat) (numeral : Numeral 10 false whole digits)
        (other : Numeral 10 false fraction others) : digits ≠ [] ∨ others ≠ [] :=
      digits_of_begins begins before cut numeral other
    rw [number, markedRadix?_of_not_marked unmarked]
    dsimp only
    rw [first.takeWhile_eq, List.drop_left, List.head?_cons, if_pos rfl, List.drop_succ_cons,
      List.drop_zero, cut.takeWhile_eq, read.scanned filled]

/-- The grammar derives something of any bytes. -/
theorem exists_numberRead (bytes : List UInt8) :
    ∃ outcome size, NumberRead bytes outcome size := by
  by_cases marked : Marked bytes
  · obtain ⟨mark, radix, rest, rfl, named⟩ := marked
    obtain ⟨run, behind, rfl, cut⟩ := exists_run isWordByte rest
    obtain ⟨outcome, read⟩ := exists_integerRead radix true run
    exact ⟨outcome, _, .marked named cut read⟩
  · obtain ⟨run, behind, rfl, cut⟩ := exists_run isDigitOrSeparator bytes
    by_cases point : behind.head? = some dot
    · obtain ⟨rest, rfl⟩ := List.head?_eq_some_iff.mp point
      obtain ⟨fraction, behind, rfl, after⟩ := exists_run isDigitOrSeparator rest
      obtain ⟨outcome, read⟩ := exists_floatRead run fraction
      exact ⟨outcome, _, .pointed marked cut.all after read⟩
    · obtain ⟨outcome, read⟩ := exists_integerRead
        (if 1 < run.length ∧ run.head? = some 0x30 then 8 else 10) false run
      exact ⟨outcome, _, .plain marked cut point read⟩

theorem number_iff {bytes : List UInt8} (begins : BeginsNumber bytes)
    (outcome : Except Fault (Kind × Value)) (size : Nat) :
    number bytes = ⟨outcome, size⟩ ↔ NumberRead bytes outcome size :=
  Scanned.eq_iff_of_derives (fun _ _ read => read.scanned begins) (exists_numberRead bytes)
    outcome size

/-- The scanner of numbers is chosen just for what begins one. -/
theorem beginsNumber_cons_iff {b : UInt8} {rest : List UInt8} :
    (isDigit b || (b = dot && beginsWithDigit 10 rest)) = true ↔ BeginsNumber (b :: rest) := by
  rw [Bool.or_eq_true, Bool.and_eq_true, decide_eq_true_eq, isDigit_iff, beginsWithDigit_iff,
    BeginsNumber, List.head?_cons]
  refine or_congr_right ⟨?_, ?_⟩
  · rintro ⟨rfl, digit⟩
    exact ⟨rest, rfl, digit⟩
  · rintro ⟨_, split, digit⟩
    obtain ⟨rfl, rfl⟩ := List.cons.inj split
    exact ⟨rfl, digit⟩

theorem not_beginsNumber_nil : ¬ BeginsNumber [] := by
  rintro (digit | ⟨_, split, -⟩)
  · exact not_isDigit_none digit
  · exact nomatch split

theorem front_number {bytes : List UInt8} (begins : BeginsNumber bytes) :
    front bytes = number bytes := by
  match bytes with
  | [] => exact absurd begins not_beginsNumber_nil
  | b :: rest =>
    have chosen := beginsNumber_cons_iff.mpr begins
    have classes : ∀ d : UInt8, (isDigit d || d = dot) = true → isWordStart d = false := by
      decide +kernel
    have noWord : isWordStart b = false := by
      refine classes b ?_
      rw [Bool.or_eq_true] at chosen ⊢
      exact chosen.imp_right fun point => (Bool.and_eq_true_iff.mp point).1
    unfold front
    dsimp only
    rw [noWord, if_neg Bool.false_ne_true, if_pos chosen]

end Scan

/-! ### The tokens of numbers -/

/-- Numbers are read by their grammar. In any source, what is told of a token that begins with a
digit, or with a point and a digit, and where it ends, is what the grammar derives of the bytes
from there on, and it is all that the grammar derives of them. -/
theorem number_tokens_exact {source : List UInt8} {mode : PositionMode} {token : Token}
    (member : token ∈ (tokenize source mode).tokens)
    (begins : Scan.BeginsNumber (source.drop token.span.start))
    (outcome : Except Fault (Kind × Value)) (size : Nat) :
    ((tokenize source mode).Gives token outcome ∧
        token.span.stop = token.span.start + size) ↔
      Scan.NumberRead (source.drop token.span.start) outcome size := by
  rw [gives_iff member, Scan.front_number begins]
  exact Scan.number_iff begins outcome size

/-- A number with a mark and a separator behind it, and one that begins with its point. -/
theorem number_tokens_exact_pair :
    let source : List UInt8 := [0x30, 0x78, 0x5F, 0x66, 0x20, 0x2E, 0x35]
    let result := tokenize source .lineColumn
    (∃ token ∈ result.tokens, Scan.BeginsNumber (source.drop token.span.start) ∧
        token.span.stop = token.span.start + 4 ∧ result.Gives token (.ok (.int, .int 15))) ∧
      ∃ token ∈ result.tokens, Scan.BeginsNumber (source.drop token.span.start) ∧
        token.span.stop = token.span.start + 2 ∧
        result.Gives token (.ok (.float, .float ⟨0x3FE0000000000000⟩)) := by
  intro source result
  constructor
  · have member : ⟨.int, .int 15, ⟨0, 4, 1, 1, 0⟩⟩ ∈ result.tokens := by decide +kernel
    have begins : Scan.BeginsNumber source :=
      .inl (Scan.beginsWithDigit_iff.mp (by decide))
    have numeral : Scan.Numeral 16 true [0x5F, 0x66] [15] :=
      Scan.readDigits_eq_some_iff.mp (by decide)
    have stands : Scan.IntegerOf 16 true [0x5F, 0x66] 15 :=
      ⟨[15], List.cons_ne_nil _ _, numeral, rfl, by decide⟩
    have read : Scan.IntegerRead 16 true [0x5F, 0x66] (.ok (.int, .int 15)) :=
      .int stands (by decide)
    have cut : Scan.Run Scan.isWordByte [0x5F, 0x66] [0x20, 0x2E, 0x35] :=
      ⟨List.all_eq_true.mp (by decide), by rintro _ ⟨⟩; rfl⟩
    have told := (number_tokens_exact member begins _ 4).mpr (.marked .hexLower cut read)
    exact ⟨_, member, begins, told.2, told.1⟩
  · have member : ⟨.float, .float ⟨0x3FE0000000000000⟩, ⟨5, 7, 1, 6, 0⟩⟩ ∈ result.tokens := by
      decide +kernel
    have begins : Scan.BeginsNumber [0x2E, 0x35] :=
      .inr ⟨[0x35], rfl, Scan.beginsWithDigit_iff.mp (by decide)⟩
    have whole : Scan.Numeral 10 false [] [] := Scan.numeral_nil.mpr rfl
    have fraction : Scan.Numeral 10 false [0x35] [5] :=
      Scan.readDigits_eq_some_iff.mp (by decide)
    have value : Binary64.ofDecimal (Scan.positional 10 ([] ++ [5])) (-([5].length : Int)) =
        ⟨0x3FE0000000000000⟩ := by decide +kernel
    have nearest := Scan.ofDecimal_digits_nearest [] [5]
    rw [value] at nearest
    have unmarked : ¬ Scan.Marked [0x2E, 0x35] := by
      rintro ⟨_, _, _, split, -⟩
      exact absurd (List.cons.inj split).1 (by decide)
    have cut : Scan.Run Scan.isDigitOrSeparator [0x35] [] :=
      ⟨List.all_eq_true.mp (by decide), by rintro _ ⟨⟩⟩
    have read : Scan.NumberRead [0x2E, 0x35]
        (.ok (.float, .float ⟨0x3FE0000000000000⟩)) 2 :=
      .pointed unmarked (List.forall_mem_nil _) cut (.float whole fraction nearest)
    have told := (number_tokens_exact member begins _ 2).mpr read
    exact ⟨_, member, begins, told.2, told.1⟩

end Lexis
