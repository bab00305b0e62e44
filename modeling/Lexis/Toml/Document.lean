/-
This file reads a configuration text as a whole. The text is a sequence of lines, each
of them blank, a header, or a name with its value; arrays may run over several lines,
and so may some strings. Arrays and braces may be nested in each other less than eighty
deep, and a name has fewer than eighty parts, which bounds the recursion.
-/

import Lexis.Toml.Numbers
import Lexis.Toml.Tables

namespace Lexis.Toml

open Reader

/-! ### Blanks -/

def spaces (chars : List Char) : List Char := chars.dropWhile isSpace

/-- Reads a comment up to the end of its line. -/
def comment : Reader Unit := fun chars => do
  let (_, rest) ← text "#" chars
  return ((), (run isPlain rest).2)

/-- Skips what may stand between the items of an array: blanks, line breaks and
comments that end with a line break. -/
def arrayBlanks (chars : List Char) : List Char :=
  let commentLine : Reader Char := fun chars => do
    let (_, rest) ← comment chars
    newline rest
  (many (orElse (one isSpace) (orElse newline commentLine)) chars).2

/-- Reads to the end of the line, where only a comment may stand. -/
def lineEnd : Reader Unit := fun chars =>
  let rest := (optional comment (spaces chars)).2
  match rest with
  | [] => some ((), [])
  | _ => do
    let (_, rest) ← newline rest
    return ((), rest)

/-! ### Names -/

/-- How deep values may be nested, and how many parts a name may have. -/
def depthLimit : Nat := 79

def isNameCharacter (c : Char) : Bool :=
  isDecimal c || ('a' ≤ c && c ≤ 'z') || ('A' ≤ c && c ≤ 'Z') || c = '_' || c = '-'

/-- Reads one part of a name. -/
def namePart : Reader String := fun chars =>
  match chars with
  | '"' :: _ => basicString chars
  | '\'' :: _ => literalString chars
  | _ =>
    let (found, rest) := run isNameCharacter chars
    if found.isEmpty then none else some (String.ofList found, rest)

/-- Reads a name with its dots, and the blanks around each part. -/
def name : Reader (List String) := fun chars => do
  let part : Reader String := fun chars => do
    let (found, rest) ← namePart (spaces chars)
    return (found, spaces rest)
  let (parts, rest) ← separated part (text ".") chars
  if parts.length ≤ depthLimit then return (parts, rest) else none

/-! ### Values -/

/-- Reads a name and its value. -/
def pairWith (value : Reader Node) : Reader (List String × Node) := fun chars => do
  let (path, rest) ← name chars
  let (_, rest) ← text "=" rest
  let (node, rest) ← value (spaces rest)
  return ((path, node), rest)

/-- Reads the items of an array and its end. A comma may follow the last item. -/
def arrayItems (value : Reader Node) : Reader Node := fun chars => do
  let item : Reader Node := fun chars => do
    let (node, rest) ← value (arrayBlanks chars)
    return (node, arrayBlanks rest)
  let (items, rest) := optional (separated item (text ",")) chars
  let rest := if items.isSome then (optional (text ",") rest).2 else rest
  let (_, rest) ← text "]" (arrayBlanks rest)
  return (.array (items.getD []), rest)

/-- Reads the pairs of a table in braces and its end. -/
def inlinePairs (value : Reader Node) : Reader Node := fun chars => do
  let pair : Reader (List String × Node) := fun chars => do
    let (found, rest) ← pairWith value (spaces chars)
    return (found, spaces rest)
  let (pairs, rest) := optional (separated pair (text ",")) chars
  let (_, rest) ← text "\x7d" (spaces rest)
  let add (entries : Except Problem Entries) (pair : List String × Node) :
      Except Problem Entries := do
    assign pair.2 true (← entries) pair.1
  match (pairs.getD []).foldl add (.ok []) with
  | .ok entries => return (.inline entries, rest)
  | .error _ => none

def boolean : Reader Node := fun chars =>
  match text "true" chars with
  | some (_, rest) => some (.boolean true, rest)
  | none => (text "false" chars).map fun answer => (.boolean false, answer.2)

/-- Reads a value that holds no others. -/
def scalar : Reader Node :=
  orElse (fun chars => (string chars).map fun answer => (.string answer.1, answer.2)) <|
    orElse dateTime <| orElse decimal <| orElse integer <| orElse namedNumber boolean

/-- Reads a value in which others may be nested so deep. -/
def value : (depth : Nat) → Reader Node
  | 0, chars => scalar chars
  | depth + 1, chars =>
    match chars with
    | '[' :: rest => arrayItems (value depth) rest
    | '\x7b' :: rest => inlinePairs (value depth) rest
    | _ => scalar chars

/-! ### Lines -/

/-- Reads a header between brackets. -/
def header (opening closing : String) : Reader (List String) := fun chars => do
  let (_, rest) ← text opening chars
  let (path, rest) ← name rest
  let (_, rest) ← text closing rest
  return (path, rest)

/-- Reads a line up to its end. -/
def line : Reader Line := fun chars => do
  let chars := spaces chars
  let (found, rest) ← match chars with
    | [] | '#' :: _ | '\n' :: _ | '\r' :: _ => some (.blank, chars)
    | '[' :: '[' :: _ =>
      (header "[[" "]]" chars).map fun (path, rest) => (.elementHeader path, rest)
    | '[' :: _ => (header "[" "]" chars).map fun (path, rest) => (.tableHeader path, rest)
    | _ => (pairWith (value depthLimit) chars).map fun ((path, node), rest) =>
        (.value path node, rest)
  let (_, rest) ← lineEnd rest
  return (found, rest)

/-- Reads the lines that are left and adds them to what was read before. The bound is
met by every text, because a line takes one character at least. -/
def readLines : (bound lineNumber : Nat) → Document → List Char → Except Problem Document
  | 0, _, document, _ => .ok document
  | bound + 1, lineNumber, document, chars =>
    if chars.isEmpty then .ok document
    else
      match line chars with
      | none => .error (.malformed lineNumber)
      | some (found, rest) => do
        let document ← document.add found
        let taken := chars.take (chars.length - rest.length)
        readLines bound (lineNumber + taken.count '\n') document rest

/-- Reads a configuration text. A byte order mark in front is no part of it. -/
def parse (source : String) : Except Problem Entries := do
  let chars := match source.toList with
    | '\uFEFF' :: rest => rest
    | chars => chars
  let document ← readLines (chars.length + 1) 1 .empty chars
  return document.root

end Lexis.Toml
