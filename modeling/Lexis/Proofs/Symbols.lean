/-
This file proves that matching finds the longest symbol. The scanner never looks at the table of
spellings: it branches by the first byte and asks for one byte ahead after the other, and how
long a symbol can get is written into the branches. Each way to match is shown to choose the
longest of a few endings, whatever they are the endings of; and a branch is right if those are
the endings of all symbols in the table that begin with its byte. Two points and then another
byte are the one case where a symbol is begun and not ended, so its branch looks two bytes ahead.

What is longest is said by the table alone, and so is where no symbol begins.
-/

import Mathlib.Data.List.GetD
import Mathlib.Data.List.Nodup
import Lexis.Scan.Symbol

namespace Lexis.Scan

/-! ### The table of spellings -/

/-- What it means that a symbol is the longest that bytes begin with. -/
structure Longest (kind : Kind) (bytes : List UInt8) : Prop where
  member : kind ∈ Kind.symbols
  spelled : Text.utf8 kind.text <+: bytes
  longest : ∀ other ∈ Kind.symbols, Text.utf8 other.text <+: bytes →
    (Text.utf8 other.text).length ≤ (Text.utf8 kind.text).length

/-- What it means that a byte begins none of the symbols. -/
def BeginsNoSymbol (b : UInt8) : Prop :=
  ∀ kind ∈ Kind.symbols, (Text.utf8 kind.text).head? ≠ some b

/-- No two symbols are spelled alike. -/
theorem eq_of_spelled_alike {first second : Kind} (one : first ∈ Kind.symbols)
    (other : second ∈ Kind.symbols) (same : Text.utf8 first.text = Text.utf8 second.text) :
    first = second := by
  have distinct : (Kind.symbols.map fun kind => Text.utf8 kind.text).Nodup := by decide +kernel
  exact List.inj_on_of_nodup_map distinct one other same

theorem utf8_symbol_ne_nil {kind : Kind} (member : kind ∈ Kind.symbols) :
    Text.utf8 kind.text ≠ [] := by
  have every : ∀ k ∈ Kind.symbols, Text.utf8 k.text ≠ [] := by decide +kernel
  exact every kind member

/-- No two symbols begin the same bytes and are both the longest. -/
theorem Longest.unique {first second : Kind} {bytes : List UInt8} (one : Longest first bytes)
    (other : Longest second bytes) : first = second := by
  have shorter := other.longest first one.member one.spelled
  have longer := one.longest second other.member other.spelled
  refine eq_of_spelled_alike one.member other.member ?_
  exact (List.prefix_of_prefix_length_le one.spelled other.spelled shorter).eq_of_length
    (Nat.le_antisymm shorter longer)

/-- A symbol begins with a byte. -/
theorem Longest.exists_head {kind : Kind} {bytes : List UInt8} (longest : Longest kind bytes) :
    ∃ b behind, bytes = b :: behind ∧ (Text.utf8 kind.text).head? = some b := by
  obtain ⟨rest, rfl⟩ := longest.spelled
  cases shape : Text.utf8 kind.text with
  | nil => exact absurd shape (utf8_symbol_ne_nil longest.member)
  | cons b more => exact ⟨b, more ++ rest, rfl, rfl⟩

/-- No symbol is the longest where none begins. -/
theorem BeginsNoSymbol.not_longest {b : UInt8} (noSymbol : BeginsNoSymbol b) (kind : Kind)
    (behind : List UInt8) : ¬ Longest kind (b :: behind) := by
  intro longest
  obtain ⟨_, _, ⟨⟩, first⟩ := longest.exists_head
  exact noSymbol kind longest.member first

/-- The symbols that begin with a byte, each with the bytes that it has behind this one. -/
def row (lead : UInt8) : List (Kind × List UInt8) :=
  Kind.symbols.filterMap fun kind =>
    match Text.utf8 kind.text with
    | [] => none
    | b :: ending => if b = lead then some (kind, ending) else none

theorem mem_row {lead : UInt8} {kind : Kind} {ending : List UInt8} :
    (kind, ending) ∈ row lead ↔ kind ∈ Kind.symbols ∧ Text.utf8 kind.text = lead :: ending := by
  rw [row, List.mem_filterMap]
  constructor
  · rintro ⟨other, member, shown⟩
    split at shown
    · exact nomatch shown
    · rename_i b tail spelled
      split at shown
      · rename_i same
        cases shown
        exact ⟨member, same ▸ spelled⟩
      · exact nomatch shown
  · rintro ⟨member, spelled⟩
    refine ⟨kind, member, ?_⟩
    simp only [spelled, if_true]

/-! ### Choosing among endings -/

/-- What it means that of a few endings the longest is found that is ahead, where some bytes have
been taken in already. -/
def Best (few : List (Kind × List UInt8)) (bytes : List UInt8) (taken : Nat)
    (found : Kind × Nat) : Prop :=
  ∃ ending, (found.1, ending) ∈ few ∧ ending <+: bytes.drop (taken + 1) ∧
    found.2 = taken + ending.length ∧
    ∀ other ∈ few, other.2 <+: bytes.drop (taken + 1) → other.2.length ≤ ending.length

section Choosing

variable {few : List (Kind × List UInt8)} {bytes : List UInt8} {taken : Nat} {found : Kind × Nat}

theorem Best.perm {others : List (Kind × List UInt8)} (best : Best few bytes taken found)
    (same : few.Perm others) : Best others bytes taken found := by
  obtain ⟨ending, member, ahead, size, longest⟩ := best
  exact ⟨ending, same.mem_iff.mp member, ahead, size,
    fun other here => longest other (same.mem_iff.mpr here)⟩

/-- One more ending does not matter if it is not ahead, or if it is no longer. -/
theorem Best.cons (best : Best few bytes taken found) (kind : Kind) (more : List UInt8)
    (short : more <+: bytes.drop (taken + 1) → taken + more.length ≤ found.2) :
    Best ((kind, more) :: few) bytes taken found := by
  obtain ⟨ending, member, ahead, size, longest⟩ := best
  refine ⟨ending, List.mem_cons_of_mem _ member, ahead, size, fun other here begins => ?_⟩
  rcases List.mem_cons.mp here with rfl | there
  · have bound := short begins
    dsimp only
    omega
  · exact longest other there begins

/-- Nothing that was taken in is given back. -/
theorem Best.le (best : Best few bytes taken found) : taken ≤ found.2 := by
  obtain ⟨ending, -, -, size, -⟩ := best
  exact size ▸ Nat.le_add_right taken ending.length

/-- Where nothing more is asked for, nothing more is taken in. -/
theorem best_single (kind : Kind) (bytes : List UInt8) (taken : Nat) :
    Best [(kind, [])] bytes taken (kind, taken) := by
  refine ⟨[], List.mem_singleton_self _, List.nil_prefix, rfl, fun other here _ => ?_⟩
  exact List.mem_singleton.mp here ▸ Nat.le_refl 0

/-- What is found behind a byte that was taken in is found with this byte. -/
theorem Best.behind {b : UInt8} {rest : List UInt8} (best : Best few bytes (taken + 1) found)
    (split : bytes.drop (taken + 1) = b :: rest) :
    Best (few.map fun entry => (entry.1, b :: entry.2)) bytes taken found := by
  have further : bytes.drop (taken + 1 + 1) = rest := by
    rw [← List.drop_drop, split, List.drop_succ_cons, List.drop_zero]
  obtain ⟨ending, member, ahead, size, longest⟩ := best
  rw [further] at ahead longest
  refine ⟨b :: ending, List.mem_map.mpr ⟨_, member, rfl⟩, ?_, ?_, fun other here begins => ?_⟩
  · rw [split]
    exact (List.prefix_cons_inj b).mpr ahead
  · rw [size, List.length_cons, Nat.add_assoc, Nat.add_comm 1]
  · obtain ⟨entry, listed, rfl⟩ := List.mem_map.mp here
    rw [split] at begins
    exact Nat.succ_le_succ (longest entry listed ((List.prefix_cons_inj b).mp begins))

end Choosing

/-! ### The ways to match -/

section Matching

variable (bytes : List UInt8) (taken : Nat)

/-- A byte is seen at a place if what begins there begins with it. -/
theorem ahead_iff {expected : UInt8} (visible : expected ≠ 0) (place : Nat) :
    bytes.getD place 0 = expected ↔ ∃ rest, bytes.drop place = expected :: rest := by
  constructor
  · intro ahead
    have inside := lt_of_ahead visible ahead
    rw [List.getD_eq_getElem _ _ inside] at ahead
    exact ⟨bytes.drop (place + 1), ahead ▸ List.drop_eq_getElem_cons inside⟩
  · rintro ⟨rest, split⟩
    rw [List.getD_eq_getElem?_getD, ← List.head?_drop, split, List.head?_cons, Option.getD_some]

/-- A byte is taken in where it is ahead, and only there. -/
theorem matchNext_cases {expected : UInt8} (visible : expected ≠ 0) :
    (∃ rest, matchNext bytes expected taken = (true, taken + 1) ∧
        bytes.drop (taken + 1) = expected :: rest) ∨
      matchNext bytes expected taken = (false, taken) ∧
        ∀ ending, ¬ expected :: ending <+: bytes.drop (taken + 1) := by
  by_cases ahead : bytes.getD (taken + 1) 0 = expected
  · obtain ⟨rest, split⟩ := (ahead_iff bytes visible _).mp ahead
    exact .inl ⟨rest, if_pos ahead, split⟩
  · refine .inr ⟨if_neg ahead, ?_⟩
    rintro ending ⟨rest, split⟩
    exact ahead ((ahead_iff bytes visible _).mpr ⟨_, split.symm⟩)

theorem pick_best {next : UInt8} (visible : next ≠ 0) (long short : Kind) :
    Best [(short, []), (long, [next])] bytes taken (pick bytes next long short taken) := by
  rw [pick]
  obtain ⟨rest, moved, split⟩ | ⟨stayed, missed⟩ := matchNext_cases bytes taken visible
  · rw [moved]
    have withNext := (best_single long bytes (taken + 1)).behind split
    exact withNext.cons short [] fun _ => Nat.le_succ taken
  · rw [stayed]
    have without := best_single short bytes taken
    have added := without.cons long [next] fun begins => absurd begins (missed [])
    exact added.perm (.swap _ _ _)

theorem pickOfTwo_best {first second : UInt8} (firstVisible : first ≠ 0)
    (secondVisible : second ≠ 0) (firstLong secondLong short : Kind) :
    Best [(short, []), (secondLong, [second]), (firstLong, [first])] bytes taken
      (pickOfTwo bytes first firstLong second secondLong short taken) := by
  rw [pickOfTwo]
  obtain ⟨rest, moved, split⟩ | ⟨stayed, missed⟩ := matchNext_cases bytes taken firstVisible
  · rw [moved]
    have withFirst := (best_single firstLong bytes (taken + 1)).behind split
    have withBoth := withFirst.cons secondLong [second] fun _ => Nat.le_refl (taken + 1)
    exact withBoth.cons short [] fun _ => Nat.le_succ taken
  · rw [stayed]
    have without := pick_best bytes taken secondVisible secondLong short
    have added := without.cons firstLong [first] fun begins => absurd begins (missed [])
    exact added.perm (@List.perm_append_comm _ [_] [_, _])

/-- Whether the symbol is doubled is decided first, and the equals sign is looked for behind. -/
theorem pickDoubled_best {again : UInt8} (visible : again ≠ 0)
    (doubledAssign doubled assign single : Kind) :
    Best [(single, []), (assign, [0x3D]), (doubled, [again]), (doubledAssign, [again, 0x3D])]
      bytes taken (pickDoubled bytes again doubledAssign doubled assign single taken) := by
  rw [pickDoubled]
  obtain ⟨rest, moved, split⟩ | ⟨stayed, missed⟩ := matchNext_cases bytes taken visible
  · rw [moved]
    have inner := pick_best bytes (taken + 1) (by decide : (0x3D : UInt8) ≠ 0) doubledAssign doubled
    have equalsOnly := (inner.behind split).cons assign [0x3D] fun _ => inner.le
    exact equalsOnly.cons single [] fun _ => Nat.le_of_succ_le inner.le
  · rw [stayed]
    have without := pick_best bytes taken (by decide : (0x3D : UInt8) ≠ 0) assign single
    have long := without.cons doubledAssign [again, 0x3D] fun begins =>
      absurd begins (missed [0x3D])
    have added := long.cons doubled [again] fun begins => absurd begins (missed [])
    exact added.perm (@List.perm_append_comm _ [_, _] [_, _])

theorem pickTripled_best {again : UInt8} (visible : again ≠ 0) (tripled single : Kind) :
    Best [(single, []), (tripled, [again, again])] bytes taken
      (pickTripled bytes again tripled single taken) := by
  simp only [pickTripled, Bool.and_eq_true, decide_eq_true_eq]
  split
  · rename_i ahead
    obtain ⟨behindOne, one⟩ := (ahead_iff bytes visible _).mp ahead.1
    obtain ⟨behindTwo, two⟩ := (ahead_iff bytes visible _).mp ahead.2
    have both := ((best_single tripled bytes (taken + 2)).behind two).behind one
    exact both.cons single [] fun _ => Nat.le_add_right taken 2
  · rename_i missed
    have without := best_single single bytes taken
    refine (without.cons tripled [again, again] fun begins => ?_).perm (.swap _ _ _)
    obtain ⟨rest, split⟩ := begins
    have second : bytes.drop (taken + 2) = again :: rest := by
      rw [← List.drop_drop (i := 1), ← split]
      rfl
    exact absurd ⟨(ahead_iff bytes visible _).mpr ⟨_, split.symm⟩,
      (ahead_iff bytes visible _).mpr ⟨_, second⟩⟩ missed

end Matching

/-! ### The longest symbol -/

/-- Whether a symbol is found at all is up to the first byte. -/
theorem isSome_matchSymbol?_cons (b : UInt8) (behind other : List UInt8) :
    (matchSymbol? (b :: behind)).isSome = (matchSymbol? (b :: other)).isSome := by
  unfold matchSymbol?
  rw [List.headD_cons, List.headD_cons]
  split <;> rfl

/-- Every branch chooses among all symbols that begin with its byte. -/
theorem matchSymbol?_best {lead : UInt8} {rest : List UInt8} {found : Kind × Nat}
    (matched : matchSymbol? (lead :: rest) = some found) :
    Best (row lead) (lead :: rest) 0 found := by
  unfold matchSymbol? at matched
  rw [List.headD_cons] at matched
  split at matched
  all_goals cases matched
  -- One alternative for each way to match. That its endings are all that there are is read off the
  -- table.
  all_goals first
    | exact (best_single _ _ _).perm (by decide +kernel)
    | exact (pick_best _ _ (by decide) _ _).perm (by decide +kernel)
    | exact (pickOfTwo_best _ _ (by decide) (by decide) _ _ _).perm (by decide +kernel)
    | exact (pickDoubled_best _ _ (by decide) _ _ _ _).perm (by decide +kernel)
    | exact (pickTripled_best _ _ (by decide) _ _).perm (by decide +kernel)

/-- What is best among the symbols with a first byte is the longest of all: the others are not
spelled there. -/
theorem Best.longest {lead : UInt8} {rest : List UInt8} {kind : Kind} {taken : Nat}
    (best : Best (row lead) (lead :: rest) 0 (kind, taken)) :
    Longest kind (lead :: rest) ∧ taken + 1 = (Text.utf8 kind.text).length := by
  obtain ⟨ending, listed, ahead, size, longest⟩ := best
  obtain ⟨member, spelled⟩ := mem_row.mp listed
  rw [Nat.zero_add] at size
  refine ⟨⟨member, ?_, fun other symbol begins => ?_⟩, ?_⟩
  · rw [spelled]
    exact (List.prefix_cons_inj lead).mpr ahead
  · cases shape : Text.utf8 other.text with
    | nil => exact Nat.zero_le _
    | cons b more =>
      rw [shape, List.cons_prefix_cons] at begins
      obtain ⟨rfl, behind⟩ := begins
      rw [spelled]
      exact Nat.succ_le_succ (longest (other, more) (mem_row.mpr ⟨symbol, shape⟩) behind)
  · rw [spelled, List.length_cons]
    exact congrArg (· + 1) size

/-- There is a branch for the first byte of every symbol. -/
theorem matchSymbol?_cons_eq_none_iff {b : UInt8} {behind : List UInt8} :
    matchSymbol? (b :: behind) = none ↔ BeginsNoSymbol b := by
  constructor
  · intro missed kind member first
    have every : ∀ k ∈ Kind.symbols,
        (Text.utf8 k.text).head?.all (fun d => (matchSymbol? [d]).isSome) = true := by
      decide +kernel
    have branch := every kind member
    rw [first, Option.all_some, isSome_matchSymbol?_cons b [] behind, missed] at branch
    exact Bool.false_ne_true branch
  · intro noSymbol
    refine Option.eq_none_iff_forall_ne_some.mpr fun found matched => ?_
    exact noSymbol.not_longest found.1 behind (matchSymbol?_best matched).longest.1

/-- What matching finds is the longest symbol that the bytes begin with, and all of it. -/
theorem matchSymbol?_eq_some_iff {bytes : List UInt8} {kind : Kind} {taken : Nat} :
    matchSymbol? bytes = some (kind, taken) ↔
      Longest kind bytes ∧ taken + 1 = (Text.utf8 kind.text).length := by
  constructor
  · intro matched
    cases bytes with
    | nil => exact nomatch matched
    | cons lead rest => exact (matchSymbol?_best matched).longest
  · rintro ⟨longest, size⟩
    obtain ⟨b, behind, rfl, first⟩ := longest.exists_head
    cases matched : matchSymbol? (b :: behind) with
    | none =>
      have noSymbol := matchSymbol?_cons_eq_none_iff.mp matched
      exact absurd longest (noSymbol.not_longest kind behind)
    | some found =>
      obtain ⟨other, more⟩ := found
      obtain ⟨otherLongest, otherSize⟩ := (matchSymbol?_best matched).longest
      obtain rfl := otherLongest.unique longest
      rw [Nat.succ_inj.mp (otherSize.trans size.symm)]

/-- The longest symbol is read. -/
theorem Longest.symbol_eq {kind : Kind} {bytes : List UInt8} (longest : Longest kind bytes) :
    symbol bytes = .token kind .none (Text.utf8 kind.text).length := by
  have filled := List.length_pos_iff.mpr (utf8_symbol_ne_nil longest.member)
  obtain ⟨taken, size⟩ := Nat.exists_eq_add_one.mpr filled
  rw [symbol, matchSymbol?_eq_some_iff.mpr ⟨longest, size.symm⟩, size]

/-- A byte that begins none is illegal. -/
theorem BeginsNoSymbol.symbol_eq {b : UInt8} (noSymbol : BeginsNoSymbol b)
    (behind : List UInt8) :
    symbol (b :: behind) = .fault .strayByte (straySize (b :: behind)) := by
  rw [symbol, matchSymbol?_cons_eq_none_iff.mpr noSymbol]

/-- Any byte begins a symbol or does not, and if it does, one of them is the longest. -/
theorem exists_longest_or_beginsNoSymbol (b : UInt8) (behind : List UInt8) :
    (∃ kind, Longest kind (b :: behind)) ∨ BeginsNoSymbol b := by
  cases matched : matchSymbol? (b :: behind) with
  | some found => exact .inl ⟨found.1, (matchSymbol?_eq_some_iff.mp matched).1⟩
  | none => exact .inr (matchSymbol?_cons_eq_none_iff.mp matched)

/-! ### How far matching looks -/

theorem length_utf8_symbol_le {kind : Kind} (member : kind ∈ Kind.symbols) :
    (Text.utf8 kind.text).length ≤ 3 := by
  have every : ∀ k ∈ Kind.symbols, (Text.utf8 k.text).length ≤ 3 := by decide +kernel
  exact every kind member

section Lookahead

variable {text : List UInt8}

/-- Three bytes are enough to say which symbol is the longest. -/
theorem longest_append_iff (long : 3 ≤ text.length) (more : List UInt8) {kind : Kind} :
    Longest kind (text ++ more) ↔ Longest kind text := by
  have further {other : Kind} (begins : Text.utf8 other.text <+: text) :
      Text.utf8 other.text <+: text ++ more :=
    begins.trans (List.prefix_append text more)
  have within {other : Kind} (symbol : other ∈ Kind.symbols)
      (begins : Text.utf8 other.text <+: text ++ more) : Text.utf8 other.text <+: text :=
    List.prefix_of_prefix_length_le begins (List.prefix_append text more)
      (Nat.le_trans (length_utf8_symbol_le symbol) long)
  constructor
  · rintro ⟨member, spelled, longest⟩
    exact ⟨member, within member spelled,
      fun other symbol begins => longest other symbol (further begins)⟩
  · rintro ⟨member, spelled, longest⟩
    exact ⟨member, further spelled,
      fun other symbol begins => longest other symbol (within symbol begins)⟩

theorem matchSymbol?_append (long : 3 ≤ text.length) (more : List UInt8) :
    matchSymbol? (text ++ more) = matchSymbol? text := by
  refine Option.ext fun found => ?_
  rw [matchSymbol?_eq_some_iff, matchSymbol?_eq_some_iff, longest_append_iff long more]

end Lookahead

end Lexis.Scan
