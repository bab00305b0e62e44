/-
This file proves that the decoder undoes the encoder: the text read from the UTF-8 bytes
of any text is that text again, and no character is replaced. The bytes of one character
take the decoder from between characters through its states and back. How far the lead
byte has counted the missing bytes is read off a table; that the second byte lies in the
narrowed range is where overlong forms, surrogates and values past the last character are
known not to come from the encoder.
-/

import Mathlib.Tactic.IntervalCases
import Lexis.Text.Utf8

namespace Lexis.Text

/-! ### Reading inside a character -/

theorem decodeFrom_none_cons (b : UInt8) (rest : List UInt8) :
    decodeFrom none (b :: rest) = (decodeFirst b).1 ++ decodeFrom (decodeFirst b).2 rest := rfl

/-- A lead byte is kept until its character is complete. -/
theorem decodeFrom_lead {lead : UInt8} {begun : PartialChar} (wide : ¬ lead < 0x80)
    (starts : PartialChar.start? lead = some begun) (rest : List UInt8) :
    decodeFrom none (lead :: rest) = decodeFrom (some begun) rest := by
  rw [decodeFrom_none_cons, decodeFirst, if_neg wide, starts]
  rfl

/-- A byte in the range, with more to come behind it, adds six bits. -/
theorem decodeFrom_inner {bits missing : Nat} {least most b : UInt8} (low : least ≤ b)
    (high : b ≤ most) (rest : List UInt8) :
    decodeFrom (some ⟨bits, missing + 2, least, most⟩) (b :: rest) =
      decodeFrom (some ⟨bits * 64 + (b.toNat - 0x80), missing + 1, 0x80, 0xBF⟩) rest := by
  simp [decodeFrom, decodeByte, low, high]

/-- The last byte that is missing completes the character. -/
theorem decodeFrom_last {bits : Nat} {least most b : UInt8} (low : least ≤ b) (high : b ≤ most)
    (rest : List UInt8) :
    decodeFrom (some ⟨bits, 1, least, most⟩) (b :: rest) =
      Char.ofNat (bits * 64 + (b.toNat - 0x80)) :: decodeFrom none rest := by
  simp [decodeFrom, decodeByte, low, high]

/-! ### The bytes of the encoder -/

theorem start?_two (bits : Nat) (least : 2 ≤ bits) (bound : bits < 32) :
    ¬ UInt8.ofNat (bits + 192) < 0x80 ∧
      PartialChar.start? (.ofNat (bits + 192)) = some ⟨bits, 1, 0x80, 0xBF⟩ := by
  interval_cases bits <;> decide

theorem start?_three (bits : Nat) (bound : bits < 16) :
    ¬ UInt8.ofNat (bits + 224) < 0x80 ∧
      PartialChar.start? (.ofNat (bits + 224)) =
        some ⟨bits, 2, if bits = 0 then 0xA0 else 0x80, if bits = 13 then 0x9F else 0xBF⟩ := by
  interval_cases bits <;> decide

theorem start?_four (bits : Nat) (bound : bits ≤ 4) :
    ¬ UInt8.ofNat (bits + 240) < 0x80 ∧
      PartialChar.start? (.ofNat (bits + 240)) =
        some ⟨bits, 3, if bits = 0 then 0x90 else 0x80, if bits = 4 then 0x8F else 0xBF⟩ := by
  interval_cases bits <;> decide

/-- A byte of six bits behind a lead byte, compared as the number of these bits. -/
theorem continuation_bounds (bits : Nat) (bound : bits < 64) :
    (UInt8.ofNat (bits + 128)).toNat = bits + 128 ∧ 0x80 ≤ UInt8.ofNat (bits + 128) ∧
      UInt8.ofNat (bits + 128) ≤ 0xBF := by
  have toNat : (UInt8.ofNat (bits + 128)).toNat = bits + 128 :=
    UInt8.toNat_ofNat_of_lt' (Nat.lt_trans (Nat.add_lt_add_right bound 128) (by decide))
  refine ⟨toNat, ?_, ?_⟩
  · rw [UInt8.le_iff_toNat_le, toNat]
    exact Nat.le_add_left 128 bits
  · rw [UInt8.le_iff_toNat_le, toNat]
    exact Nat.add_le_add_right (Nat.le_of_lt_succ bound) 128

/-- A byte behind a lead byte, against a bound that the lead byte has narrowed. -/
theorem continuation_narrowed (bits : Nat) (bound : bits < 64) (limit : UInt8) :
    (limit ≤ UInt8.ofNat (bits + 128) ↔ limit.toNat ≤ bits + 128) ∧
      (UInt8.ofNat (bits + 128) ≤ limit ↔ bits + 128 ≤ limit.toNat) := by
  rw [UInt8.le_iff_toNat_le, UInt8.le_iff_toNat_le, (continuation_bounds bits bound).1]
  exact ⟨Iff.rfl, Iff.rfl⟩

variable {code : Nat} (rest : List UInt8)

theorem decodeFrom_twoBytes (least : 0x7F < code) (bound : code ≤ 0x7FF) :
    decodeFrom none (.ofNat (code / 64 % 32 + 192) :: .ofNat (code % 64 + 128) :: rest) =
      Char.ofNat code :: decodeFrom none rest := by
  obtain ⟨wide, starts⟩ := start?_two (code / 64 % 32) (by omega) (by omega)
  obtain ⟨last, low, high⟩ := continuation_bounds (code % 64) (by omega)
  have sum : code / 64 % 32 * 64 + (code % 64 + 128 - 128) = code := by omega
  rw [decodeFrom_lead wide starts, decodeFrom_last low high, last, sum]

theorem decodeFrom_threeBytes (least : 0x7FF < code) (bound : code ≤ 0xFFFF)
    (valid : code < 0xD800 ∨ 0xDFFF < code) :
    decodeFrom none
        (.ofNat (code / 4096 % 16 + 224) :: .ofNat (code / 64 % 64 + 128) ::
          .ofNat (code % 64 + 128) :: rest) =
      Char.ofNat code :: decodeFrom none rest := by
  obtain ⟨wide, starts⟩ := start?_three (code / 4096 % 16) (by omega)
  obtain ⟨inner, -, -⟩ := continuation_bounds (code / 64 % 64) (by omega)
  obtain ⟨last, low, high⟩ := continuation_bounds (code % 64) (by omega)
  have narrowed := continuation_narrowed (code / 64 % 64) (by omega)
  -- A lead byte with no bits would be overlong, and one with thirteen a surrogate.
  have innerLow : (if code / 4096 % 16 = 0 then 0xA0 else 0x80) ≤
      UInt8.ofNat (code / 64 % 64 + 128) := by
    split <;> rw [(narrowed _).1] <;> simp only [UInt8.reduceToNat] <;> omega
  have innerHigh : UInt8.ofNat (code / 64 % 64 + 128) ≤
      if code / 4096 % 16 = 13 then 0x9F else 0xBF := by
    split <;> rw [(narrowed _).2] <;> simp only [UInt8.reduceToNat] <;> omega
  have sum : (code / 4096 % 16 * 64 + (code / 64 % 64 + 128 - 128)) * 64 +
      (code % 64 + 128 - 128) = code := by omega
  rw [decodeFrom_lead wide starts, decodeFrom_inner innerLow innerHigh,
    decodeFrom_last low high, inner, last, sum]

theorem decodeFrom_fourBytes (least : 0xFFFF < code) (valid : code < 0x110000) :
    decodeFrom none
        (.ofNat (code / 262144 % 8 + 240) :: .ofNat (code / 4096 % 64 + 128) ::
          .ofNat (code / 64 % 64 + 128) :: .ofNat (code % 64 + 128) :: rest) =
      Char.ofNat code :: decodeFrom none rest := by
  obtain ⟨wide, starts⟩ := start?_four (code / 262144 % 8) (by omega)
  obtain ⟨outer, -, -⟩ := continuation_bounds (code / 4096 % 64) (by omega)
  obtain ⟨inner, innerLow, innerHigh⟩ := continuation_bounds (code / 64 % 64) (by omega)
  obtain ⟨last, low, high⟩ := continuation_bounds (code % 64) (by omega)
  have narrowed := continuation_narrowed (code / 4096 % 64) (by omega)
  -- A lead byte with no bits would be overlong, and one with four may pass the last character.
  have outerLow : (if code / 262144 % 8 = 0 then 0x90 else 0x80) ≤
      UInt8.ofNat (code / 4096 % 64 + 128) := by
    split <;> rw [(narrowed _).1] <;> simp only [UInt8.reduceToNat] <;> omega
  have outerHigh : UInt8.ofNat (code / 4096 % 64 + 128) ≤
      if code / 262144 % 8 = 4 then 0x8F else 0xBF := by
    split <;> rw [(narrowed _).2] <;> simp only [UInt8.reduceToNat] <;> omega
  have sum : ((code / 262144 % 8 * 64 + (code / 4096 % 64 + 128 - 128)) * 64 +
      (code / 64 % 64 + 128 - 128)) * 64 + (code % 64 + 128 - 128) = code := by omega
  rw [decodeFrom_lead wide starts, decodeFrom_inner outerLow outerHigh,
    decodeFrom_inner innerLow innerHigh, decodeFrom_last low high, outer, inner, last, sum]

/-! ### Characters and texts -/

theorem decodeFrom_utf8EncodeChar (c : Char) :
    decodeFrom none (String.utf8EncodeChar c ++ rest) = c :: decodeFrom none rest := by
  have valid : c.toNat < 0xD800 ∨ 0xDFFF < c.toNat ∧ c.toNat < 0x110000 := c.valid
  rw [← congrArg (· :: decodeFrom none rest) c.ofNat_toNat]
  unfold String.utf8EncodeChar
  rw [show c.val.toNat = c.toNat from rfl]
  dsimp only
  split
  · rename_i narrow
    have toNat : (UInt8.ofNat c.toNat).toNat = c.toNat :=
      UInt8.toNat_ofNat_of_lt' (Nat.lt_of_le_of_lt narrow (by decide))
    have ascii : UInt8.ofNat c.toNat < 0x80 := by
      rw [UInt8.lt_iff_toNat_lt, toNat]
      exact Nat.lt_succ_of_le narrow
    rw [List.singleton_append, decodeFrom_ascii ascii, toNat]
  · split
    · exact decodeFrom_twoBytes rest (by omega) (by assumption)
    · split
      · exact decodeFrom_threeBytes rest (by omega) (by assumption) (valid.imp_right And.left)
      · exact decodeFrom_fourBytes rest (by omega) (by omega)

theorem decodeFrom_flatMap_utf8EncodeChar (chars : List Char) :
    decodeFrom none (chars.flatMap String.utf8EncodeChar) = chars := by
  induction chars with
  | nil => rfl
  | cons c rest inductionHypothesis =>
    rw [List.flatMap_cons, decodeFrom_utf8EncodeChar, inductionHypothesis]

/-- The decoder undoes the encoder. -/
theorem decodeLossy_utf8 (text : String) : decodeLossy (utf8 text) = text := by
  rw [decodeLossy, utf8, decodeFrom_flatMap_utf8EncodeChar, String.ofList_toList]

/-- So texts with the same bytes are the same. -/
theorem utf8_injective : Function.Injective utf8 :=
  Function.LeftInverse.injective decodeLossy_utf8

/-! ### The bytes of narrow and of wide characters -/

theorem utf8_ofList (chars : List Char) :
    utf8 (String.ofList chars) = chars.flatMap String.utf8EncodeChar := by
  rw [utf8, String.toList_ofList]

theorem utf8EncodeChar_ascii {c : Char} (narrow : c.toNat < 128) :
    String.utf8EncodeChar c = [UInt8.ofNat c.toNat] := by
  unfold String.utf8EncodeChar
  exact if_pos (Nat.le_of_lt_succ narrow)

/-- An ASCII byte is the whole of its character. -/
theorem utf8EncodeChar_byte {b : UInt8} (ascii : b < 0x80) :
    String.utf8EncodeChar (Char.ofNat b.toNat) = [b] := by
  have bound : b.toNat < 128 := UInt8.lt_iff_toNat_lt.mp ascii
  have valid : b.toNat.isValidChar := .inl (Nat.lt_trans bound (by decide))
  have same : (Char.ofNat b.toNat).toNat = b.toNat := by
    rw [Char.ofNat, dif_pos valid]
    rfl
  have narrow : (Char.ofNat b.toNat).toNat < 128 := same.symm ▸ bound
  rw [utf8EncodeChar_ascii narrow, same, UInt8.ofNat_toNat]

/-- Beyond ASCII every byte of a character lies beyond ASCII too. -/
theorem utf8EncodeChar_wide {c : Char} (wide : 128 ≤ c.toNat) {b : UInt8}
    (member : b ∈ String.utf8EncodeChar c) : 0x80 ≤ b := by
  have high {code : Nat} (least : 128 ≤ code) (bound : code < 256) :
      0x80 ≤ UInt8.ofNat code := by
    rw [UInt8.le_iff_toNat_le, UInt8.toNat_ofNat_of_lt' bound]
    exact least
  unfold String.utf8EncodeChar at member
  rw [show c.val.toNat = c.toNat from rfl] at member
  dsimp only at member
  split at member
  · omega
  · repeat' split at member
    all_goals
      simp only [List.mem_cons, List.not_mem_nil, or_false] at member
      rcases member with rfl | rfl | rfl | rfl <;> exact high (by omega) (by omega)

/-- What is shown of every ASCII character holds of the narrow ones. -/
theorem forall_ascii (holds : Char → Prop) (every : ∀ n : Fin 128, holds (Char.ofNat n))
    {c : Char} (narrow : c.toNat < 128) : holds c := by
  have here := every ⟨c.toNat, narrow⟩
  rwa [c.ofNat_toNat] at here

end Lexis.Text
