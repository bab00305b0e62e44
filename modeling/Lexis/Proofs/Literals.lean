/-
This file reads literals by hand, with a cursor that resolves escapes as it goes, and proves that
this is how the scanner reads them. By hand a string is a loop: each turn steps over one item, looks
at the byte that the cursor shows, and asks the flag whether this byte was written. The scanner has
no cursor and takes the bytes apart instead, so that an escape is a case and not a state.

The two agree because a step forgets what the cursor shows. Between two turns the cursor may stand
on an escape, but there it is only asked for its place; and no literal ends on an escape, since what
ends it was written so. The flag is down behind every literal, and whoever reads on needs to know no
more than the place and the bytes that are left.
-/

import Lexis.Proofs.Cursors

namespace Lexis.Cursor

open Scan (apostrophe quote)
open Source (backslash)

/-! ### Literals by hand -/

theorem source_advanceEscaped (cursor : Cursor) :
    cursor.advanceEscaped.2.source = cursor.source := by
  rw [advanceEscaped_eq]
  split
  · split <;> exact (source_advance _).trans cursor.source_advance
  · exact cursor.source_advance

/-- A step that does not reach the end leaves fewer bytes before the cursor. -/
theorem left_advanceEscaped_lt {cursor : Cursor} (more : ¬ cursor.advanceEscaped.2.atEnd = true) :
    cursor.advanceEscaped.2.source.length - cursor.advanceEscaped.2.offset <
      cursor.source.length - cursor.offset := by
  obtain ⟨forward, -, strict⟩ := cursor.goesOn_advanceEscaped
  rw [atEnd, source_advanceEscaped, decide_eq_true_eq, Nat.not_le] at more
  have further := strict (Nat.lt_of_le_of_lt forward more)
  rw [source_advanceEscaped]
  omega

/-- Reads the items of a string from the cursor on, which stands before the first of them. What
they stand for is put behind the bytes that were read, and it is kept whether an escape was bad. -/
def readItems (cursor : Cursor) (bytes : List UInt8) (bad : Bool) :
    Except Fault (Kind × Value) × Cursor :=
  let next := cursor.advanceEscaped.2
  let bad := bad || !cursor.advanceEscaped.1
  if next.atEnd then (.error .openString, next)
  else if next.stand.current = quote && !next.stand.escaped then
    (if bad then .error .badEscape else .ok (.str, .str (Text.decodeLossy bytes)), next.advance)
  else if next.stand.current = lineFeed && !next.stand.escaped then (.error .openString, next)
  else next.readItems (bytes ++ [next.stand.current]) bad
termination_by cursor.source.length - cursor.offset
decreasing_by
  rename_i more _ _
  exact left_advanceEscaped_lt more

/-- Reads a string, with the cursor at its opening quote. -/
def readString (cursor : Cursor) : Except Fault (Kind × Value) × Cursor := cursor.readItems [] false

/-- Reads a character, with the cursor at its opening quote. -/
def readChar (cursor : Cursor) : Except Fault (Kind × Value) × Cursor :=
  let next := cursor.advanceEscaped.2
  if next.atEnd then (.error .badChar, next)
  else if next.stand.current = apostrophe && !next.stand.escaped then
    (.error .badChar, next.advance)
  else if next.advance.stand.current ≠ apostrophe then (.error .badChar, next.advance)
  else if cursor.advanceEscaped.1 then
    (.ok (.char, .char next.stand.current), next.advance.advance)
  else (.error .badEscape, next.advance.advance)

/-! ### Reading on -/

/-- What a cursor has before it: its place, and the bytes from there on as they are written. -/
def reading (cursor : Cursor) : Reading :=
  ⟨cursor.stand.place, cursor.source.drop cursor.offset⟩

/-- The cursor moved on by a number of bytes. The flag is down, and it shows the byte that is
written there, or zero at the end. -/
def skip (cursor : Cursor) (size : Nat) : Cursor :=
  let next := cursor.reading.skip cursor.mode size
  { cursor with stand := ⟨next.place, next.rest.headD 0, false⟩ }

/-- The same cursor on an escape. -/
def showing (cursor : Cursor) (value : UInt8) : Cursor :=
  { cursor with stand := { cursor.stand with current := value, escaped := true } }

theorem reading_skip (cursor : Cursor) (size : Nat) :
    (cursor.skip size).reading = cursor.reading.skip cursor.mode size := by
  refine congrArg (Reading.mk _) ?_
  show cursor.source.drop (Position.advanceOver _ _ _).offset = _
  rw [Position.advanceOver_offset, ← List.drop_drop]
  show cursor.reading.rest.drop _ = cursor.reading.rest.drop size
  rw [List.length_take, List.drop_eq_drop_iff, Nat.min_assoc, Nat.min_self]

theorem rest_skip (cursor : Cursor) (size : Nat) :
    (cursor.skip size).reading.rest = cursor.reading.rest.drop size := by
  rw [reading_skip, Reading.skip]

theorem skip_showing (cursor : Cursor) (value : UInt8) (size : Nat) :
    (cursor.showing value).skip size = cursor.skip size := rfl

theorem skip_skip (cursor : Cursor) (first second : Nat) :
    (cursor.skip first).skip second = cursor.skip (first + second) := by
  have reading : (cursor.skip first).reading.skip cursor.mode second =
      cursor.reading.skip cursor.mode (first + second) := by
    rw [reading_skip, Reading.skip_skip]
  unfold skip at reading ⊢
  dsimp only at reading ⊢
  rw [reading]

theorem atEnd_iff (cursor : Cursor) : cursor.atEnd = true ↔ cursor.reading.rest = [] :=
  decide_eq_true_iff.trans List.drop_eq_nil_iff.symm

theorem getElem?_source (cursor : Cursor) (ahead : Nat) :
    cursor.source[cursor.offset + ahead]? = cursor.reading.rest[ahead]? :=
  List.getElem?_drop.symm

/-- Before the end there is a byte to pass. -/
theorem exists_passed {cursor : Cursor} (more : cursor.atEnd = false) :
    ∃ passed rest, cursor.reading.rest = passed :: rest :=
  List.exists_cons_of_ne_nil fun ended =>
    Bool.false_ne_true (more.symm.trans (cursor.atEnd_iff.mpr ended))

section Steps

variable {cursor : Cursor} {passed : UInt8} {rest : List UInt8}

theorem advance_eq_skip (ahead : cursor.reading.rest = passed :: rest) :
    cursor.advance = cursor.skip 1 := by
  have here : cursor.source[cursor.offset]? = some passed := by
    rw [← Nat.add_zero cursor.offset, getElem?_source, ahead, List.getElem?_cons_zero]
  have next : cursor.source.getD (cursor.offset + 1) 0 = rest.headD 0 := by
    rw [List.getD_eq_getElem?_getD, getElem?_source, ahead, List.getElem?_cons_succ,
      List.headD_eq_head?_getD, List.head?_eq_getElem?]
  unfold advance skip
  rw [here, Reading.skip, ahead]
  dsimp only
  rw [Position.advance_offset]
  exact congrArg (fun b => Cursor.mk _ _ ⟨_, b, false⟩) next

/-- A step over an item that is no escape is a plain step. -/
theorem advanceEscaped_plain (ahead : cursor.reading.rest = passed :: rest)
    (plain : rest.head? ≠ some backslash) : cursor.advanceEscaped = (true, cursor.skip 1) := by
  have written : cursor.source[cursor.offset + 1]? ≠ some backslash := by
    rw [getElem?_source, ahead, List.getElem?_cons_succ, ← List.head?_eq_getElem?]
    exact plain
  rw [advanceEscaped_eq, if_neg written, advance_eq_skip ahead]

theorem advanceEscaped_last (ahead : cursor.reading.rest = [passed]) :
    cursor.advanceEscaped = (true, cursor.skip 1) :=
  advanceEscaped_plain ahead (Option.some_ne_none backslash).symm

/-- A step over a backslash is two steps, whatever becomes of the second byte. -/
theorem advanceEscaped_backslash (ahead : cursor.reading.rest = passed :: backslash :: rest) :
    cursor.advanceEscaped =
      match rest.head?.bind Source.unescape? with
      | some value => (true, (cursor.skip 2).showing value)
      | none => (false, cursor.skip 2) := by
  have written : cursor.source[cursor.offset + 1]? = some backslash := by
    rw [getElem?_source, ahead]
    rfl
  have second : cursor.escape? = rest.head?.bind Source.unescape? := by
    rw [escape?, getElem?_source, ahead, List.head?_eq_getElem?]
    rfl
  have behind : (cursor.skip 1).reading.rest = backslash :: rest := by
    rw [rest_skip, ahead, List.drop_succ_cons, List.drop_zero]
  rw [advanceEscaped_eq, if_pos written, second, advance_eq_skip ahead, advance_eq_skip behind,
    skip_skip]
  rfl

theorem advanceEscaped_escape {c value : UInt8}
    (ahead : cursor.reading.rest = passed :: backslash :: c :: rest)
    (known : Source.unescape? c = some value) :
    cursor.advanceEscaped = (true, (cursor.skip 2).showing value) := by
  rw [advanceEscaped_backslash ahead, List.head?_cons, Option.bind_some, known]

theorem advanceEscaped_bad (ahead : cursor.reading.rest = passed :: backslash :: rest)
    (unknown : rest.head?.bind Source.unescape? = none) :
    cursor.advanceEscaped = (false, cursor.skip 2) := by
  rw [advanceEscaped_backslash ahead, unknown]

theorem rest_skip_one (ahead : cursor.reading.rest = passed :: rest) :
    (cursor.skip 1).reading.rest = rest := by
  rw [rest_skip, ahead, List.drop_succ_cons, List.drop_zero]

theorem rest_skip_two {second : UInt8} (ahead : cursor.reading.rest = passed :: second :: rest) :
    (cursor.skip 2).reading.rest = rest := by
  rw [rest_skip, ahead, List.drop_succ_cons, List.drop_succ_cons, List.drop_zero]

theorem atEnd_of_rest (ahead : cursor.reading.rest = passed :: rest) : cursor.atEnd = false := by
  rw [Bool.eq_false_iff, ne_eq, atEnd_iff, ahead]
  exact List.cons_ne_nil passed rest

theorem current_skip_of_rest {size : Nat} {b : UInt8}
    (ahead : (cursor.skip size).reading.rest = b :: rest) :
    (cursor.skip size).stand.current = b := by
  rw [rest_skip] at ahead
  show (cursor.reading.rest.drop size).headD 0 = b
  rw [ahead, List.headD_cons]

end Steps

/-! ### Strings -/

/-- What is told of a string when its items have been read up to some place, and the rest of its
body is known. -/
def told (bytes : List UInt8) (bad : Bool) (body : Scan.StringBody) : Except Fault (Kind × Value) :=
  if !body.closed then .error .openString
  else if bad || body.badEscape then .error .badEscape
  else .ok (.str, .str (Text.decodeLossy (bytes ++ body.bytes)))

theorem told_push (bytes : List UInt8) (bad : Bool) (body : Scan.StringBody) (b : UInt8)
    (size : Nat) : told bytes bad (body.push b size) = told (bytes ++ [b]) bad body := by
  unfold told Scan.StringBody.push
  rw [List.append_assoc, List.singleton_append]

theorem told_spoil (bytes : List UInt8) (bad : Bool) (body : Scan.StringBody) :
    told bytes bad body.spoil = told bytes true body := by
  unfold told Scan.StringBody.spoil
  rw [Bool.or_true, Bool.true_or]

section Turns

variable {cursor next : Cursor} {succeeds : Bool} {passed : UInt8} {rest : List UInt8}

/-- A turn that reaches the end leaves the string open. -/
theorem readItems_end (step : cursor.advanceEscaped = (succeeds, next))
    (ended : next.reading.rest = []) (bytes : List UInt8) (bad : Bool) :
    cursor.readItems bytes bad = (.error .openString, next) := by
  rw [readItems, step]
  exact if_pos (next.atEnd_iff.mpr ended)

/-- A turn that comes to a written line feed leaves it open too. -/
theorem readItems_lineFeed (step : cursor.advanceEscaped = (succeeds, next))
    (ahead : next.reading.rest = passed :: rest) (shown : next.stand.current = lineFeed)
    (written : next.stand.escaped = false) (bytes : List UInt8) (bad : Bool) :
    cursor.readItems bytes bad = (.error .openString, next) := by
  have noQuote : lineFeed ≠ quote := by decide
  rw [readItems, step]
  simp only [atEnd_of_rest ahead, shown, written, noQuote, if_false, if_true, decide_true,
    decide_false, Bool.not_false, Bool.and_true, Bool.false_eq_true]

/-- A turn that comes to a written quote closes it. -/
theorem readItems_quote (step : cursor.advanceEscaped = (succeeds, next))
    (ahead : next.reading.rest = passed :: rest) (shown : next.stand.current = quote)
    (written : next.stand.escaped = false) (bytes : List UInt8) (bad : Bool) :
    cursor.readItems bytes bad =
      (if bad || !succeeds then .error .badEscape else .ok (.str, .str (Text.decodeLossy bytes)),
        next.advance) := by
  rw [readItems, step]
  simp only [atEnd_of_rest ahead, shown, written, if_false, if_true, decide_true,
    Bool.not_false, Bool.and_true, Bool.false_eq_true]

/-- Any other turn takes in the byte that is shown. -/
theorem readItems_item (step : cursor.advanceEscaped = (succeeds, next))
    (ahead : next.reading.rest = passed :: rest)
    (inner : next.stand.escaped = true ∨
      next.stand.current ≠ quote ∧ next.stand.current ≠ lineFeed)
    (bytes : List UInt8) (bad : Bool) :
    cursor.readItems bytes bad =
      next.readItems (bytes ++ [next.stand.current]) (bad || !succeeds) := by
  rw [readItems, step]
  rcases inner with up | ⟨noQuote, sameLine⟩
  · simp only [atEnd_of_rest ahead, up, if_false, Bool.not_true, Bool.and_false,
      Bool.false_eq_true]
  · simp only [atEnd_of_rest ahead, noQuote, sameLine, if_false, decide_false, Bool.false_and,
      Bool.false_eq_true]

end Turns

/-- The loop goes on over the rest of the body, whatever was read before. The induction follows the
body item by item; the cursor stands on the byte before, which a step only passes. -/
theorem readItems_eq {cursor : Cursor} {passed : UInt8} {rest : List UInt8}
    (ahead : cursor.reading.rest = passed :: rest) (bytes : List UInt8) (bad : Bool) :
    cursor.readItems bytes bad =
      (told bytes bad (Scan.stringBody rest), cursor.skip (1 + (Scan.stringBody rest).size)) := by
  -- The end, a quote and a line feed; then a backslash before the end, in an escape, before a line
  -- feed and before any other byte; and last a byte that is none of these.
  induction rest using Scan.stringBody.induct generalizing cursor passed bytes bad with
  | case1 => exact readItems_end (advanceEscaped_last ahead) (rest_skip_one ahead) bytes bad
  | case2 rest =>
    have once := rest_skip_one ahead
    have step := advanceEscaped_plain ahead fun same => absurd (Option.some.inj same) (by decide)
    have closed := readItems_quote step once (current_skip_of_rest once) rfl bytes bad
    rw [closed, advance_eq_skip once, skip_skip, Scan.stringBody_quote, told, List.append_nil]
    rfl
  | case3 rest =>
    have once := rest_skip_one ahead
    have step := advanceEscaped_plain ahead fun same => absurd (Option.some.inj same) (by decide)
    rw [Scan.stringBody_lineFeed]
    exact readItems_lineFeed step once (current_skip_of_rest once) rfl bytes bad
  | case4 => exact readItems_end (advanceEscaped_bad ahead rfl) (rest_skip_two ahead) bytes bad
  | case5 c rest value known _ _ inductionHypothesis =>
    have twice := rest_skip_two ahead
    have more : ((cursor.skip 2).showing value).reading.rest = c :: rest := twice
    rw [readItems_item (advanceEscaped_escape ahead known) more (.inl rfl),
      inductionHypothesis more, Scan.stringBody_escape known, told_push, skip_showing, skip_skip,
      Bool.not_true, Bool.or_false]
    exact congrArg (fun size => (_, cursor.skip size)) (Nat.add_left_comm 2 1 _)
  | case6 rest _ _ unknown =>
    have twice := rest_skip_two ahead
    rw [Scan.stringBody_escapedLineFeed]
    exact readItems_lineFeed (advanceEscaped_bad ahead unknown) twice (current_skip_of_rest twice)
      rfl bytes bad
  | case7 c rest unknown sameLine _ _ inductionHypothesis =>
    have twice := rest_skip_two ahead
    have shown := current_skip_of_rest twice
    -- A quote behind a backslash makes an escape.
    have unclosed : c ≠ quote := by
      rintro rfl
      exact absurd unknown (by decide)
    rw [readItems_item (advanceEscaped_bad ahead unknown) twice
      (.inr (shown ▸ ⟨unclosed, sameLine⟩)), inductionHypothesis twice,
      Scan.stringBody_badEscape unknown sameLine, told_spoil, told_push, shown, skip_skip,
      Bool.not_false, Bool.or_true]
    exact congrArg (fun size => (_, cursor.skip size)) (Nat.add_left_comm 2 1 _)
  | case8 c rest unclosed sameLine plain inductionHypothesis =>
    have once := rest_skip_one ahead
    have shown := current_skip_of_rest once
    have step := advanceEscaped_plain ahead fun same => plain (Option.some.inj same)
    rw [readItems_item step once (.inr (shown ▸ ⟨unclosed, sameLine⟩)), inductionHypothesis once,
      Scan.stringBody_plain unclosed sameLine plain, told_push, shown, skip_skip, Bool.not_true,
      Bool.or_false]
    rfl

/-- A string is read by hand as the scanner reads it: the outcome is the same, and the cursor is
left behind as many bytes, on a byte as it is written and with the flag down. -/
theorem readString_eq {cursor : Cursor} (more : cursor.atEnd = false) :
    let read := Scan.stringLiteral cursor.reading.rest
    cursor.readString = (read.outcome, cursor.skip read.size) := by
  intro read
  obtain ⟨passed, rest, ahead⟩ := exists_passed more
  have outcome : read.outcome = told [] false (Scan.stringBody rest) := by
    show (Scan.stringLiteral cursor.reading.rest).outcome = _
    rw [ahead]
    unfold Scan.stringLiteral told
    rw [List.drop_succ_cons, List.drop_zero, Bool.false_or, List.nil_append]
    dsimp only
    split
    · rfl
    · split <;> rfl
  have size : read.size = 1 + (Scan.stringBody rest).size := by
    show (Scan.stringLiteral cursor.reading.rest).size = _
    rw [ahead, Scan.stringLiteral_size, List.drop_succ_cons, List.drop_zero]
  rw [readString, readItems_eq ahead, outcome, size]

/-! ### Characters -/

theorem closesChar_iff {next : Cursor} {passed : UInt8} {behind : List UInt8}
    (ahead : next.reading.rest = passed :: behind) :
    Scan.closesChar behind = true ↔ (next.skip 1).stand.current = apostrophe := by
  show decide (behind.head? = some apostrophe) = true ↔ (next.reading.rest.drop 1).headD 0 = _
  rw [ahead, decide_eq_true_iff, List.drop_succ_cons, List.drop_zero]
  cases behind with
  | nil => decide
  | cons b rest => rw [List.head?_cons, List.headD_cons, Option.some_inj]

theorem readChar_end {cursor next : Cursor} {succeeds : Bool}
    (step : cursor.advanceEscaped = (succeeds, next)) (ended : next.reading.rest = []) :
    cursor.readChar = (.error .badChar, next) := by
  rw [readChar, step]
  exact if_pos (next.atEnd_iff.mpr ended)

/-- A written quote in place of the content is passed. -/
theorem readChar_empty {cursor next : Cursor} {succeeds : Bool} {rest : List UInt8}
    (step : cursor.advanceEscaped = (succeeds, next))
    (ahead : next.reading.rest = apostrophe :: rest) (shown : next.stand.current = apostrophe)
    (written : next.stand.escaped = false) :
    cursor.readChar = (.error .badChar, next.skip 1) := by
  rw [readChar, step]
  simp only [atEnd_of_rest ahead, shown, written, advance_eq_skip ahead, if_false, if_true,
    decide_true, Bool.not_false, Bool.and_true, Bool.false_eq_true]

/-- Once a byte of any value is shown, it is the content, and only a quote may come behind it. -/
theorem readChar_content {cursor next : Cursor} {succeeds : Bool} {passed : UInt8}
    {behind : List UInt8} (step : cursor.advanceEscaped = (succeeds, next))
    (ahead : next.reading.rest = passed :: behind)
    (inner : next.stand.escaped = true ∨ next.stand.current ≠ apostrophe) :
    cursor.readChar =
      if Scan.closesChar behind then
        (if succeeds then .ok (.char, .char next.stand.current) else .error .badEscape, next.skip 2)
      else (.error .badChar, next.skip 1) := by
  have filled : (decide (next.stand.current = apostrophe) && !next.stand.escaped) = false := by
    rcases inner with up | other
    · rw [up, Bool.not_true, Bool.and_false]
    · rw [decide_eq_false other, Bool.false_and]
  rw [readChar, step]
  simp only [atEnd_of_rest ahead, filled, advance_eq_skip ahead, if_false, Bool.false_eq_true]
  by_cases closed : Scan.closesChar behind = true
  · obtain ⟨rest, rfl⟩ := List.head?_eq_some_iff.mp (of_decide_eq_true closed)
    rw [if_pos closed, if_neg (not_not_intro ((closesChar_iff ahead).mp closed)),
      advance_eq_skip (rest_skip_one ahead), skip_skip]
    cases succeeds <;> rfl
  · rw [if_neg closed, if_pos fun shown => closed ((closesChar_iff ahead).mpr shown)]

/-- A character is read by hand as the scanner reads it, and the cursor is left in the same way. -/
theorem readChar_eq {cursor : Cursor} (more : cursor.atEnd = false) :
    let read := Scan.charLiteral cursor.reading.rest
    cursor.readChar = (read.outcome, cursor.skip read.size) := by
  obtain ⟨passed, rest, ahead⟩ := exists_passed more
  have once := rest_skip_one ahead
  dsimp only
  rw [ahead, Scan.charLiteral, List.drop_succ_cons, List.drop_zero]
  cases rest with
  | nil => exact readChar_end (advanceEscaped_last ahead) once
  | cons b behind =>
    have shown := current_skip_of_rest once
    dsimp only
    by_cases empty : b = apostrophe
    · subst empty
      have step := advanceEscaped_plain ahead fun same => absurd (Option.some.inj same) (by decide)
      rw [if_pos rfl, readChar_empty step once shown rfl, skip_skip]
      rfl
    · rw [if_neg empty]
      by_cases slash : b = backslash
      · subst slash
        rw [if_pos rfl]
        have twice := rest_skip_two ahead
        cases behind with
        | nil => exact readChar_end (advanceEscaped_bad ahead rfl) twice
        | cons c rest =>
          dsimp only
          cases known : Source.unescape? c with
          | some value =>
            rw [readChar_content (advanceEscaped_escape ahead known) twice (.inl rfl),
              skip_showing, skip_showing, skip_skip, skip_skip]
            split <;> rfl
          | none =>
            have filled : c ≠ apostrophe := by
              rintro rfl
              exact absurd known (by decide)
            have shown := current_skip_of_rest twice
            rw [readChar_content (advanceEscaped_bad ahead known) twice (.inr (shown ▸ filled)),
              skip_skip, skip_skip]
            split <;> rfl
      · have step := advanceEscaped_plain ahead fun same => slash (Option.some.inj same)
        rw [if_neg slash, readChar_content step once (.inr (shown ▸ empty)), shown, skip_skip,
          skip_skip]
        split <;> rfl

/-! ### Behind a literal -/

/-- What it means that a cursor shows the byte at its place as it is written. -/
structure Plain (cursor : Cursor) : Prop where
  written : cursor.stand.escaped = false
  shown : cursor.stand.current = cursor.peek 0

theorem plain_skip (cursor : Cursor) (size : Nat) : (cursor.skip size).Plain := by
  refine ⟨rfl, ?_⟩
  rw [peek, List.getD_eq_getElem?_getD, getElem?_source, ← List.head?_eq_getElem?,
    ← List.headD_eq_head?_getD, rest_skip]
  rfl

/-- Behind a literal no escape is left over, whether the literal was told or not. -/
theorem plain_behind_literal {cursor : Cursor} (more : cursor.atEnd = false) :
    cursor.readString.2.Plain ∧ cursor.readChar.2.Plain := by
  rw [readString_eq more, readChar_eq more]
  exact ⟨plain_skip _ _, plain_skip _ _⟩

end Lexis.Cursor
