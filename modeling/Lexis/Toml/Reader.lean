/-
This file is the vocabulary of the configuration reader. A reader looks at the
characters that are left and answers with what it read and what remains, or with
nothing if they do not begin with what it reads. Repetition is bounded by the number of
characters left: each turn takes one at least, so the bound is never what ends it.
-/

namespace Lexis.Toml

/-- Reads something from the front of a text. -/
abbrev Reader (α : Type) : Type := List Char → Option (α × List Char)

namespace Reader

/-- Reads a character of a class. -/
def one (belongs : Char → Bool) : Reader Char
  | c :: rest => if belongs c then some (c, rest) else none
  | [] => none

/-- Reads just this text. -/
def text (expected : String) : Reader Unit := fun chars =>
  if expected.toList.isPrefixOf chars then some ((), chars.drop expected.length) else none

/-- Reads as many characters of a class as there are. -/
def run (belongs : Char → Bool) (chars : List Char) : List Char × List Char :=
  (chars.takeWhile belongs, chars.dropWhile belongs)

/-- Reads a given number of characters of a class. -/
def exactly (count : Nat) (belongs : Char → Bool) : Reader (List Char) := fun chars =>
  let front := chars.take count
  if front.length = count && front.all belongs then some (front, chars.drop count) else none

/-- Reads with the first reader that can. -/
def orElse {α : Type} (first second : Reader α) : Reader α := fun chars =>
  match first chars with
  | some answer => some answer
  | none => second chars

/-- Reads if it can, and otherwise takes nothing. -/
def optional {α : Type} (reader : Reader α) (chars : List Char) : Option α × List Char :=
  match reader chars with
  | some (answer, rest) => (some answer, rest)
  | none => (none, chars)

/-- Reads as often as it can, up to the bound. -/
def repeated {α : Type} (reader : Reader α) : Nat → List Char → List α × List Char
  | 0, chars => ([], chars)
  | bound + 1, chars =>
    match reader chars with
    | none => ([], chars)
    | some (answer, rest) =>
      let (answers, rest) := repeated reader bound rest
      (answer :: answers, rest)

/-- Reads as often as it can. -/
def many {α : Type} (reader : Reader α) (chars : List Char) : List α × List Char :=
  repeated reader chars.length chars

/-- Reads once and then again behind each separator. -/
def separated {α : Type} (reader : Reader α) (separator : Reader Unit) : Reader (List α) :=
  fun chars => do
    let (first, rest) ← reader chars
    let next : Reader α := fun chars => do
      let (_, rest) ← separator chars
      reader rest
    let (others, rest) := many next rest
    return (first :: others, rest)

end Reader

end Lexis.Toml
