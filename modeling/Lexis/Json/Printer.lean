/-
This file writes JSON values, either without any space between the tokens or with each
item on a line of its own. Both forms are one printer that is told what to write at the
start of a line and behind a name.
-/

import Lexis.Decimal.Layout
import Lexis.Json.Value
import Lexis.Text.Escape

namespace Lexis.Json

/-! ### Scalars -/

/-- A character inside a JSON string. Only what JSON forbids there is escaped. -/
def escapeChar (c : Char) : List Char :=
  match c with
  | '"' => ['\\', '"']
  | '\\' => ['\\', '\\']
  | '\x08' => ['\\', 'b']
  | '\t' => ['\\', 't']
  | '\n' => ['\\', 'n']
  | '\x0c' => ['\\', 'f']
  | '\r' => ['\\', 'r']
  | _ =>
    if c.toNat < 0x20 then
      ['\\', 'u', '0', '0', Nat.digitChar (c.toNat / 16), Nat.digitChar (c.toNat % 16)]
    else [c]

def quote (s : String) : String :=
  String.ofList ('"' :: s.toList.flatMap escapeChar ++ ['"'])

/-- JSON puts the point in place from `0.00001` up to below `10 ^ 16`, and of two
shortest texts that are equally near it takes the even one. -/
def numberLayout : Decimal.Layout where
  plainFrom := -5
  plainTo := 15
  plusSign := true
  tie := .toEven

def number (x : Binary64) : String :=
  match x.meaning with
  | .finite negative significand exponent =>
    numberLayout.finiteText negative significand exponent
  | _ => "null"

/-! ### The two forms -/

/-- How tokens are set apart. -/
structure Style where
  /-- What comes before an item or a closing bracket at some depth. -/
  lineStart : Nat → String
  /-- What comes between a name and its value. -/
  colon : String

/-- No space anywhere. -/
def Style.compact : Style := ⟨fun _ => "", ":"⟩

/-- One item on each line, two spaces deeper than what holds it. -/
def Style.indented : Style where
  lineStart depth := "\n" ++ String.ofList (List.replicate (2 * depth) ' ')
  colon := ": "

/-- Items between brackets. Empty brackets stay together. -/
def enclose (style : Style) (depth : Nat) (opening closing : String) (items : List String) :
    String :=
  if items.isEmpty then opening ++ closing
  else
    opening ++ ",".intercalate (items.map (style.lineStart (depth + 1) ++ ·)) ++
      style.lineStart depth ++ closing

mutual

/-- The text of a value at some depth. -/
def print (style : Style) (depth : Nat) : Json → String
  | .null => "null"
  | .integer n => toString n
  | .decimal x => number x
  | .text s => quote s
  | .array items => enclose style depth "[" "]" (printItems style (depth + 1) items)
  | .object fields => enclose style depth "\x7b" "\x7d" (printFields style (depth + 1) fields)

def printItems (style : Style) (depth : Nat) : List Json → List String
  | [] => []
  | item :: rest => print style depth item :: printItems style depth rest

def printFields (style : Style) (depth : Nat) : List (String × Json) → List String
  | [] => []
  | (name, value) :: rest =>
    (quote name ++ style.colon ++ print style depth value) :: printFields style depth rest

end

/-- The value on one line. -/
def compact (value : Json) : String := print .compact 0 value

/-- The value with one item on each line. -/
def pretty (value : Json) : String := print .indented 0 value

example : number ⟨0x4341C37937E08000⟩ = "1e+16" := by decide +kernel
example : number ⟨0x3EE4F8B588E368F1⟩ = "0.00001" := by decide +kernel
example : compact (.object [("a", .array [.null, .integer (-3)]), ("b", .text "\x01")]) =
    "\x7b\"a\":[null,-3],\"b\":\"\\u0001\"\x7d" := by decide +kernel
example : pretty (.array [.object [("a", .null)]]) =
    "[\n  \x7b\n    \"a\": null\n  \x7d\n]" := by decide +kernel

end Lexis.Json
