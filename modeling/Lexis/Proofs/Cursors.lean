/-
This file proves what holds of a cursor wherever it has been moved. It stands at an offset of its
source, on the line and the column of that offset, and shows the byte there as it is written; or it
has stepped over a backslash and shows what the escape stands for, with the flag raised. Stands
that were kept can be put back in any order, also stands on an escape, so the invariant speaks of
these as well.

The flag does not follow from the place: the same offset can be reached in single steps, and then
the byte is plain. It follows from the moves. It is up just behind a step that resolved an escape,
or where a stand was put back that had it up when it was kept.
-/

import Lexis.Proofs.Places
import Lexis.Source.Cursor

namespace Lexis

/-! ### Steps -/

namespace Cursor

theorem mode_advance (cursor : Cursor) : cursor.advance.mode = cursor.mode := by
  unfold advance
  split <;> rfl

/-- A step moves the place over the byte that is passed, if there is one. -/
theorem place_advance (cursor : Cursor) :
    cursor.advance.stand.place =
      cursor.stand.place.advanceOver cursor.mode cursor.source[cursor.offset]?.toList := by
  unfold advance
  split
  · rename_i behind
    rw [behind]
    rfl
  · rename_i b found
    rw [found]
    rfl

/-- A step goes to the next byte, and at the end it goes nowhere. -/
theorem offset_advance (cursor : Cursor) :
    cursor.advance.offset =
      if cursor.offset < cursor.source.length then cursor.offset + 1 else cursor.offset := by
  rw [offset, place_advance, Position.advanceOver_offset]
  split
  · rename_i before
    rw [List.getElem?_eq_getElem before]
    rfl
  · rename_i behind
    rw [List.getElem?_eq_none (Nat.not_lt.mp behind)]
    rfl

/-- Two steps pass two bytes, if there are as many. -/
theorem offset_advance_advance {cursor : Cursor}
    (before : cursor.offset + 1 < cursor.source.length) :
    cursor.advance.advance.offset = cursor.offset + 2 := by
  rw [offset_advance, source_advance, offset_advance, if_pos (Nat.lt_of_succ_lt before),
    if_pos before]

/-- A step shows the byte behind the one that it passes. -/
theorem current_advance (cursor : Cursor) :
    cursor.advance.stand.current = cursor.source.getD (cursor.offset + 1) 0 := by
  unfold advance
  split
  · rename_i behind
    rw [List.getElem?_eq_none_iff] at behind
    rw [List.getD_eq_getElem?_getD, List.getElem?_eq_none (Nat.le_succ_of_le behind)]
    rfl
  · show cursor.source.getD (cursor.stand.place.advance _ _).offset 0 = _
    rw [Position.advance_offset]
    rfl

theorem escaped_advance (cursor : Cursor) : cursor.advance.stand.escaped = false := by
  unfold advance
  split <;> rfl

/-- What the byte behind the next stands for behind a backslash, if it makes an escape. -/
def escape? (cursor : Cursor) : Option UInt8 :=
  cursor.source[cursor.offset + 2]?.bind Source.unescape?

/-- A step over an escape is two steps, if the first leads to a backslash. The second leads to
what the escape stands for, or fails. -/
theorem advanceEscaped_eq (cursor : Cursor) :
    cursor.advanceEscaped =
      if cursor.source[cursor.offset + 1]? = some Source.backslash then
        match cursor.escape? with
        | some b =>
          (true, { cursor.advance.advance with
            stand := { cursor.advance.advance.stand with current := b, escaped := true } })
        | none => (false, cursor.advance.advance)
      else (true, cursor.advance) := by
  have current := cursor.current_advance
  rw [List.getD_eq_getElem?_getD] at current
  by_cases slash : cursor.source[cursor.offset + 1]? = some Source.backslash
  · obtain ⟨before, -⟩ := List.getElem?_eq_some_iff.mp slash
    have next : cursor.advance.offset = cursor.offset + 1 := by
      rw [offset_advance, if_pos (Nat.lt_of_succ_lt before)]
    have more : cursor.advance.atEnd = false := by
      rw [atEnd, source_advance, next, decide_eq_false (Nat.not_le.mpr before)]
    have shows : cursor.advance.advance.stand.current =
        cursor.source[cursor.offset + 2]?.getD 0 := by
      rw [current_advance, source_advance, next, List.getD_eq_getElem?_getD]
    rw [slash] at current
    simp only [advanceEscaped, current, more, shows, slash, escape?, if_pos, Option.getD_some]
    cases found : cursor.source[cursor.offset + 2]? with
    | none => rfl
    | some b =>
      obtain ⟨inside, -⟩ := List.getElem?_eq_some_iff.mp found
      have last : cursor.advance.advance.atEnd = false := by
        rw [atEnd, source_advance, source_advance, offset_advance_advance before,
          decide_eq_false (Nat.not_le.mpr inside)]
      simp only [Option.getD_some, Option.bind_some, last]
      cases Source.unescape? b <;> rfl
  · have plain : cursor.advance.stand.current ≠ Source.backslash := by
      rw [current]
      intro same
      cases found : cursor.source[cursor.offset + 1]? with
      | none =>
        rw [found] at same
        exact absurd same (by decide)
      | some b =>
        rw [found] at same slash
        exact slash (congrArg some same)
    rw [advanceEscaped, if_neg slash]
    simp only [plain, decide_false, Bool.false_and, Bool.false_eq_true, if_false]

theorem offset_advanceEscaped (cursor : Cursor) :
    cursor.advanceEscaped.2.offset =
      if cursor.source[cursor.offset + 1]? = some Source.backslash then cursor.offset + 2
      else cursor.advance.offset := by
  rw [advanceEscaped_eq]
  split
  · rename_i slash
    obtain ⟨before, -⟩ := List.getElem?_eq_some_iff.mp slash
    split <;> exact offset_advance_advance before
  · rfl

/-- A step fails just if it comes over a backslash that begins no escape. -/
theorem succeeds_advanceEscaped (cursor : Cursor) :
    cursor.advanceEscaped.1 = true ↔
      (cursor.source[cursor.offset + 1]? = some Source.backslash →
        cursor.escape?.isSome = true) := by
  rw [advanceEscaped_eq]
  by_cases slash : cursor.source[cursor.offset + 1]? = some Source.backslash
  · rw [if_pos slash]
    cases cursor.escape? with
    | none => simp [slash]
    | some b => simp
  · rw [if_neg slash]
    simp [slash]

/-- The flag is up behind a step that came over a backslash and did not fail. -/
theorem escaped_advanceEscaped (cursor : Cursor) :
    cursor.advanceEscaped.2.stand.escaped = true ↔
      cursor.source[cursor.offset + 1]? = some Source.backslash ∧
        cursor.advanceEscaped.1 = true := by
  rw [advanceEscaped_eq]
  by_cases slash : cursor.source[cursor.offset + 1]? = some Source.backslash
  · rw [if_pos slash]
    cases cursor.escape? with
    | none => simp [escaped_advance]
    | some b => simp [slash]
  · rw [if_neg slash]
    simp [slash, escaped_advance]

/-- What it means that a move goes on: it never goes back, passes no more bytes than it may, and
passes one at least while there is one. -/
structure GoesOn (reach : Nat) (cursor next : Cursor) : Prop where
  forward : cursor.offset ≤ next.offset
  near : next.offset ≤ cursor.offset + reach
  strict : cursor.offset < cursor.source.length → cursor.offset < next.offset

theorem goesOn_advance (cursor : Cursor) : cursor.GoesOn 1 cursor.advance := by
  have offset := cursor.offset_advance
  split at offset
  · exact ⟨by omega, by omega, fun _ => by omega⟩
  · exact ⟨by omega, by omega, fun _ => by omega⟩

theorem goesOn_advanceEscaped (cursor : Cursor) :
    cursor.GoesOn 2 cursor.advanceEscaped.2 := by
  obtain ⟨forward, near, strict⟩ := cursor.goesOn_advance
  have offset := cursor.offset_advanceEscaped
  split at offset
  · exact ⟨by omega, by omega, fun _ => by omega⟩
  · rw [← offset] at forward near strict
    exact ⟨forward, by omega, strict⟩

/-! ### Where a cursor can stand -/

/-- What holds of a stand in a source: it shows the byte at its offset as it is written, or, with
the flag raised, what this byte stands for behind a backslash; and its place is the one that is
reached over the bytes before it. -/
structure Stand.Sound (source : List UInt8) (mode : PositionMode) (stand : Stand) : Prop where
  inside : stand.place.offset ≤ source.length
  place : stand.place = Position.start.advanceOver mode (source.take stand.place.offset)
  plain : stand.escaped = false → stand.current = source.getD stand.place.offset 0
  escaped : stand.escaped = true →
    1 ≤ stand.place.offset ∧ stand.place.offset < source.length ∧
      source[stand.place.offset - 1]? = some Source.backslash ∧
      ∃ b, source[stand.place.offset]? = some b ∧ Source.unescape? b = some stand.current

/-- A cursor in a source, and what holds of its stand. -/
structure Sound (source : List UInt8) (mode : PositionMode) (cursor : Cursor) : Prop where
  sameSource : cursor.source = source
  sameMode : cursor.mode = mode
  stand : cursor.stand.Sound source mode

variable {source : List UInt8} {mode : PositionMode} {cursor : Cursor}

theorem sound_ofSource (source : List UInt8) (mode : PositionMode) :
    (ofSource source mode).Sound source mode := by
  refine ⟨rfl, rfl, Nat.zero_le _, rfl, fun _ => ?_, nofun⟩
  cases source <;> rfl

theorem Sound.advance (sound : cursor.Sound source mode) :
    cursor.advance.Sound source mode := by
  obtain ⟨rfl, rfl, inside, place, -, -⟩ := sound
  have down := cursor.escaped_advance
  refine ⟨cursor.source_advance, cursor.mode_advance, cursor.offset_advance_le inside, ?_,
    fun _ => ?_, fun up => absurd (down.symm.trans up) Bool.false_ne_true⟩
  · have walked (bytes : List UInt8) : cursor.stand.place.advanceOver cursor.mode bytes =
        Position.start.advanceOver cursor.mode (cursor.source.take cursor.offset ++ bytes) := by
      rw [Position.advanceOver_append]
      exact congrArg (Position.advanceOver cursor.mode · bytes) place
    show _ = Position.start.advanceOver cursor.mode (cursor.source.take cursor.advance.offset)
    rw [place_advance, walked, offset_advance]
    split
    · rw [List.take_add_one]
    · rename_i behind
      rw [List.getElem?_eq_none (Nat.not_lt.mp behind), Option.toList_none, List.append_nil]
  · show _ = cursor.source.getD cursor.advance.offset 0
    rw [current_advance, offset_advance]
    split
    · rfl
    · rename_i behind
      have end_le := Nat.not_lt.mp behind
      rw [List.getD_eq_getElem?_getD, List.getD_eq_getElem?_getD, List.getElem?_eq_none end_le,
        List.getElem?_eq_none (Nat.le_succ_of_le end_le)]

/-- Behind an escape the cursor stands on the second of two bytes, of which the first is a
backslash and the second says what is shown. -/
theorem Sound.advanceEscaped (sound : cursor.Sound source mode) :
    cursor.advanceEscaped.2.Sound source mode := by
  have once := sound.advance
  have twice := once.advance
  have reached := cursor.offset_advanceEscaped
  obtain rfl := sound.sameSource
  rw [advanceEscaped_eq] at reached ⊢
  split
  · rename_i slash
    rw [if_pos slash, if_pos slash] at reached
    split
    · rename_i b found
      rw [found] at reached
      obtain ⟨c, second, means⟩ := Option.bind_eq_some_iff.mp found
      refine ⟨twice.sameSource, twice.sameMode, twice.stand.inside, twice.stand.place, nofun,
        fun _ => ?_⟩
      have offset : cursor.advance.advance.stand.place.offset = cursor.offset + 2 := reached
      dsimp only
      rw [offset]
      exact ⟨Nat.succ_pos _, (List.getElem?_eq_some_iff.mp second).1, slash, c, second, means⟩
    · exact twice
  · exact once

end Cursor

/-! ### A cursor in use -/

/-- What can be done with a cursor. Kept stands have numbers from zero on, in the order in which
they are kept. -/
inductive Move where
  | advance
  | advanceEscaped
  | snapshot
  | restore (number : Nat)
  deriving DecidableEq, Repr

/-- A cursor in use, with the stands that were kept of it. -/
structure Hand where
  cursor : Cursor
  kept : List Cursor.Stand

namespace Hand

/-- Makes a move. A number that no kept stand has changes nothing. -/
def make (hand : Hand) : Move → Hand
  | .advance => { hand with cursor := hand.cursor.advance }
  | .advanceEscaped => { hand with cursor := hand.cursor.advanceEscaped.2 }
  | .snapshot => { hand with kept := hand.kept ++ [hand.cursor.stand] }
  | .restore number =>
    match hand.kept[number]? with
    | some stand => { hand with cursor := hand.cursor.restore stand }
    | none => hand

/-- A cursor on the first byte of a source behind a number of moves. -/
def behind (source : List UInt8) (mode : PositionMode) (moves : List Move) : Hand :=
  moves.foldl make ⟨.ofSource source mode, []⟩

variable {source : List UInt8} {mode : PositionMode} {moves : List Move}

theorem behind_concat (move : Move) :
    behind source mode (moves ++ [move]) = (behind source mode moves).make move := by
  rw [behind, List.foldl_append]
  rfl

/-- What holds of a cursor in use holds of the stands that were kept of it too. -/
structure Sound (source : List UInt8) (mode : PositionMode) (hand : Hand) : Prop where
  cursor : hand.cursor.Sound source mode
  kept : ∀ stand ∈ hand.kept, stand.Sound source mode

theorem Sound.make {hand : Hand} (sound : hand.Sound source mode) (move : Move) :
    (hand.make move).Sound source mode := by
  obtain ⟨cursor, kept⟩ := sound
  cases move with
  | advance => exact ⟨cursor.advance, kept⟩
  | advanceEscaped => exact ⟨cursor.advanceEscaped, kept⟩
  | snapshot =>
    refine ⟨cursor, fun stand member => ?_⟩
    rcases List.mem_append.mp member with earlier | new
    · exact kept stand earlier
    · exact List.mem_singleton.mp new ▸ cursor.stand
  | restore number =>
    unfold Hand.make
    dsimp only
    split
    · rename_i stand taken
      exact ⟨⟨cursor.sameSource, cursor.sameMode, kept stand (List.mem_of_getElem? taken)⟩, kept⟩
    · exact ⟨cursor, kept⟩

theorem sound_behind (source : List UInt8) (mode : PositionMode) (moves : List Move) :
    (behind source mode moves).Sound source mode := by
  induction moves using List.reverseRecOn with
  | nil => exact ⟨Cursor.sound_ofSource source mode, by simp [behind]⟩
  | append_singleton moves move inductionHypothesis =>
    rw [behind_concat]
    exact inductionHypothesis.make move

/-! ### The flag -/

/-- Moves that leave the flag up. A step over a backslash that does not fail has raised it, or a
stand was put back that was kept where it was up; nothing has been done since but to keep stands,
or to ask for one that there is not. -/
inductive RaisesFlag (source : List UInt8) (mode : PositionMode) : List Move → Prop where
  | stepped {moves : List Move}
      (succeeds : (behind source mode moves).cursor.advanceEscaped.1 = true)
      (slash : source[(behind source mode moves).cursor.offset + 1]? = some Source.backslash) :
      RaisesFlag source mode (moves ++ [.advanceEscaped])
  | restored {earlier moves : List Move} (raised : RaisesFlag source mode earlier)
      (taken : earlier ++ [.snapshot] <+: moves) :
      RaisesFlag source mode (moves ++ [.restore (earlier.count .snapshot)])
  | kept {moves : List Move} (raised : RaisesFlag source mode moves) :
      RaisesFlag source mode (moves ++ [.snapshot])
  | missed {moves : List Move} {number : Nat} (raised : RaisesFlag source mode moves)
      (unknown : moves.count .snapshot ≤ number) :
      RaisesFlag source mode (moves ++ [.restore number])

/-- There are as many kept stands as there were moves to keep one. -/
theorem length_kept_behind (source : List UInt8) (mode : PositionMode) (moves : List Move) :
    (behind source mode moves).kept.length = moves.count .snapshot := by
  induction moves using List.reverseRecOn with
  | nil => rfl
  | append_singleton moves move inductionHypothesis =>
    rw [behind_concat, List.count_append, ← inductionHypothesis]
    cases move with
    | advance => rfl
    | advanceEscaped => rfl
    | snapshot => exact List.length_append
    | restore number =>
      unfold make
      dsimp only
      split <;> rfl

/-- No move takes a kept stand away. -/
theorem kept_make (hand : Hand) (move : Move) : hand.kept <+: (hand.make move).kept := by
  cases move with
  | advance => exact List.prefix_rfl
  | advanceEscaped => exact List.prefix_rfl
  | snapshot => exact List.prefix_append _ _
  | restore number =>
    unfold make
    dsimp only
    split <;> exact List.prefix_rfl

theorem kept_behind {earlier : List Move} (before : earlier <+: moves) :
    (behind source mode earlier).kept <+: (behind source mode moves).kept := by
  obtain ⟨later, rfl⟩ := before
  induction later using List.reverseRecOn with
  | nil => rw [List.append_nil]
  | append_singleton later move inductionHypothesis =>
    rw [← List.append_assoc, behind_concat]
    exact inductionHypothesis.trans (kept_make _ move)

/-- A kept stand is found under the number of stands that were kept before it. -/
theorem getElem?_kept {earlier : List Move} (taken : earlier ++ [.snapshot] <+: moves) :
    (behind source mode moves).kept[earlier.count .snapshot]? =
      some (behind source mode earlier).cursor.stand := by
  obtain ⟨later, kept⟩ := @kept_behind source mode moves _ taken
  rw [behind_concat] at kept
  rw [← kept, ← length_kept_behind source mode earlier]
  show (((behind source mode earlier).kept ++ [_]) ++ later)[_]? = _
  rw [List.append_assoc, List.getElem?_append_right le_rfl, Nat.sub_self]
  rfl

/-- What it means that moves account for every flag that is up: for that of the cursor, and for
those of the kept stands, each of which was kept behind moves that raise it. -/
structure Accounts (source : List UInt8) (mode : PositionMode) (moves : List Move) : Prop where
  cursor : (behind source mode moves).cursor.stand.escaped = true → RaisesFlag source mode moves
  kept : ∀ number stand, (behind source mode moves).kept[number]? = some stand →
    stand.escaped = true → ∃ earlier, RaisesFlag source mode earlier ∧
      earlier ++ [.snapshot] <+: moves ∧ earlier.count .snapshot = number

/-- A stand that is kept behind a move was kept before, or the move keeps it. -/
theorem getElem?_kept_make {hand : Hand} {move : Move} {number : Nat} {stand : Cursor.Stand}
    (found : (hand.make move).kept[number]? = some stand) :
    hand.kept[number]? = some stand ∨
      move = .snapshot ∧ number = hand.kept.length ∧ stand = hand.cursor.stand := by
  cases move with
  | advance => exact .inl found
  | advanceEscaped => exact .inl found
  | snapshot =>
    have new : (hand.kept ++ [hand.cursor.stand])[number]? = some stand := found
    rcases Nat.lt_trichotomy number hand.kept.length with less | rfl | more
    · exact .inl ((List.getElem?_append_left less).symm.trans new)
    · rw [List.getElem?_concat_length] at new
      exact .inr ⟨rfl, rfl, (Option.some.inj new).symm⟩
    · rw [List.getElem?_eq_none (List.length_append.trans_le more)] at new
      exact nomatch new
  | restore other =>
    refine .inl ?_
    unfold make at found
    dsimp only at found
    split at found <;> exact found

/-- Behind one more move every flag is accounted for. -/
theorem Accounts.concat (accounts : Accounts source mode moves) (move : Move) :
    Accounts source mode (moves ++ [move]) := by
  obtain ⟨cursor, kept⟩ := accounts
  have size := length_kept_behind source mode moves
  constructor
  · intro up
    rw [behind_concat] at up
    cases move with
    | advance => exact absurd ((Cursor.escaped_advance _).symm.trans up) Bool.false_ne_true
    | advanceEscaped =>
      obtain ⟨slash, succeeds⟩ := (Cursor.escaped_advanceEscaped _).mp up
      rw [(sound_behind source mode moves).cursor.sameSource] at slash
      exact .stepped succeeds slash
    | snapshot => exact .kept (cursor up)
    | restore number =>
      unfold make at up
      dsimp only at up
      split at up
      · rename_i stand found
        obtain ⟨earlier, raised, taken, rfl⟩ := kept number stand found up
        exact .restored raised taken
      · rename_i missing
        exact .missed (cursor up) (size ▸ List.getElem?_eq_none_iff.mp missing)
  · intro number stand found up
    rw [behind_concat] at found
    rcases getElem?_kept_make found with before | ⟨rfl, rfl, rfl⟩
    · obtain ⟨earlier, raised, taken, counted⟩ := kept number stand before up
      exact ⟨earlier, raised, taken.trans (List.prefix_append _ _), counted⟩
    · exact ⟨moves, cursor up, List.prefix_rfl, size.symm⟩

/-- The flag is up just behind moves that raise it. -/
theorem escaped_behind_iff (source : List UInt8) (mode : PositionMode) (moves : List Move) :
    (behind source mode moves).cursor.stand.escaped = true ↔ RaisesFlag source mode moves := by
  constructor
  · have accounts : Accounts source mode moves := by
      induction moves using List.reverseRecOn with
      | nil => exact ⟨nofun, nofun⟩
      | append_singleton moves move inductionHypothesis => exact inductionHypothesis.concat move
    exact accounts.cursor
  · intro raised
    induction raised with
    | @stepped moves succeeds slash =>
      have sound := (sound_behind source mode moves).cursor
      rw [behind_concat]
      refine (Cursor.escaped_advanceEscaped _).mpr ⟨?_, succeeds⟩
      rw [sound.sameSource]
      exact slash
    | @restored earlier moves raised taken up =>
      rw [behind_concat, make, getElem?_kept taken]
      exact up
    | @kept moves raised up =>
      rw [behind_concat]
      exact up
    | @missed moves number raised unknown up =>
      rw [← length_kept_behind source mode] at unknown
      rw [behind_concat, make, List.getElem?_eq_none unknown]
      exact up

end Hand

/-! ### Places -/

/-- What it means that a place has the line and the column of its offset. -/
def Position.Exact (source : List UInt8) (mode : PositionMode) (place : Position) : Prop :=
  (Span.ofPlace place 0 0).Exact source mode

/-- The place that is reached over the beginning of a source has the line and the column of its
offset, if the words can count the source. -/
theorem Position.exact_advanceOver {source : List UInt8} (short : source.length + 1 < UInt32.size)
    (mode : PositionMode) {offset : Nat} (inside : offset ≤ source.length) :
    (start.advanceOver mode (source.take offset)).Exact source mode := by
  have size := List.length_take_of_le inside
  have before : (source.take offset).length + 1 < UInt32.size := by omega
  have line := line_advanceOver_start mode before
  have column := column_advanceOver_start mode before
  have reached : (start.advanceOver mode (source.take offset)).offset = offset := by
    rw [advanceOver_offset, size]
    exact Nat.zero_add offset
  unfold Position.Exact Span.Exact Span.ofPlace
  rw [reached]
  cases mode with
  | columnOnly => exact ⟨line, column.trans (congrArg (· + 1) size)⟩
  | lineColumn =>
    obtain ⟨above, split, ends, sameLine⟩ := Snippet.lastLine_cases (source.take offset)
    exact ⟨line.trans (Nat.add_comm _ _), above, _, split, ends, sameLine,
      column.trans (Nat.add_comm _ _)⟩

/-- Wherever a cursor has been moved, it stands in its source. With the flag down it shows the byte
there, or zero at the end; with the flag up it stands behind a backslash, on a byte that makes an
escape with it, and shows what the escape stands for. The line and the column are those of its
offset. A step never goes back, takes a byte or an escape of two, and before the end it takes one at
least; it fails just at a backslash that begins no escape. The flag is up just behind a step that
has resolved an escape, or where a stand has been put back that was kept behind such a step. -/
theorem cursor_sound {source : List UInt8} (short : source.length + 1 < UInt32.size)
    (mode : PositionMode) (moves : List Move) :
    let cursor := (Hand.behind source mode moves).cursor
    cursor.Sound source mode ∧ cursor.stand.place.Exact source mode ∧
      cursor.GoesOn 1 cursor.advance ∧ cursor.GoesOn 2 cursor.advanceEscaped.2 ∧
      (cursor.advanceEscaped.1 = true ↔
        (source[cursor.offset + 1]? = some Source.backslash → cursor.escape?.isSome = true)) ∧
      (cursor.stand.escaped = true ↔ Hand.RaisesFlag source mode moves) := by
  intro cursor
  have sound := (Hand.sound_behind source mode moves).cursor
  refine ⟨sound, ?_, cursor.goesOn_advance, cursor.goesOn_advanceEscaped, ?_,
    Hand.escaped_behind_iff source mode moves⟩
  · have exact := Position.exact_advanceOver short mode sound.stand.inside
    rwa [← sound.stand.place] at exact
  · have succeeds := cursor.succeeds_advanceEscaped
    rwa [sound.sameSource] at succeeds

/-- A cursor that was kept on an escape, has gone on over a line feed and to a failing escape at
the end, and is put back. -/
theorem cursor_sound_restored :
    let source : List UInt8 := [0x61, 0x5C, 0x6E, 0x0A, 0x5C]
    let moves : List Move :=
      [.advanceEscaped, .snapshot, .advance, .advanceEscaped, .restore 0]
    let cursor := (Hand.behind source .lineColumn moves).cursor
    source.length + 1 < UInt32.size ∧ cursor.stand = ⟨⟨2, 1, 3⟩, 0x0A, true⟩ ∧
      cursor.Sound source .lineColumn ∧ cursor.stand.place.Exact source .lineColumn ∧
      cursor.GoesOn 1 cursor.advance ∧ cursor.GoesOn 2 cursor.advanceEscaped.2 ∧
      (cursor.advanceEscaped.1 = true ↔
        (source[cursor.offset + 1]? = some Source.backslash → cursor.escape?.isSome = true)) ∧
      (cursor.stand.escaped = true ↔ Hand.RaisesFlag source .lineColumn moves) := by
  intro source moves cursor
  have short : source.length + 1 < UInt32.size := by decide
  exact ⟨short, by decide +kernel, cursor_sound short .lineColumn moves⟩

end Lexis
