/-
This file defines the kinds of tokens: keywords, operators and delimiters, each
with one spelling, the kinds of literal, whose spelling varies, the illegal token,
and the end of the source. Identifiers count as literals here, because they too
carry a value that a listing has to show.
-/

import Lexis.Token.Spelling

namespace Lexis

/-- What a token is. -/
inductive Kind where
  | illegal
  | keyword (keyword : Keyword)
  | operator (operator : Operator)
  | delimiter (delimiter : Delimiter)
  | ident
  | str
  | char
  | int
  | float
  | eof
  deriving DecidableEq, Repr

namespace Kind

/-- All kinds in their order. -/
def all : List Kind :=
  .illegal :: Keyword.all.map .keyword ++ Operator.all.map .operator ++
    Delimiter.all.map .delimiter ++ [.ident, .str, .char, .int, .float, .eof]

/-- The number of a kind: its place among all. -/
def number (kind : Kind) : Nat := all.idxOf kind

/-- What stands for the kind in a listing of tokens: the spelling if there is one,
and otherwise a word for it. -/
def text : Kind → String
  | .illegal => "illegal"
  | .keyword k => k.spelling
  | .operator o => o.spelling
  | .delimiter d => d.spelling
  | .ident => "ident"
  | .str => "string"
  | .char => "char"
  | .int => "integer"
  | .float => "float"
  | .eof => "EOF"

/-- The name of the kind in a listing of program state. -/
def name : Kind → String
  | .illegal => "Illegal"
  | .keyword k => k.name
  | .operator o => o.name
  | .delimiter d => d.name
  | .ident => "Ident"
  | .str => "Str"
  | .char => "Char"
  | .int => "Int"
  | .float => "Float"
  | .eof => "Eof"

/-! ### Families -/

def isKeyword : Kind → Bool
  | .keyword _ => true
  | _ => false

def isOperator : Kind → Bool
  | .operator _ => true
  | _ => false

def isDelimiter : Kind → Bool
  | .delimiter _ => true
  | _ => false

/-- Whether tokens of this kind carry a value that a listing shows. -/
def isLiteral : Kind → Bool
  | .ident | .str | .char | .int | .float => true
  | _ => false

def isAssignment : Kind → Bool
  | .operator o => o.isAssignment
  | _ => false

/-- The kinds that are spelled with symbols. -/
def symbols : List Kind :=
  Operator.all.map .operator ++ Delimiter.all.map .delimiter

theorem mem_all (kind : Kind) : kind ∈ all := by
  cases kind with
  | keyword k => simp [all, Keyword.mem_all]
  | operator o => simp [all, Operator.mem_all]
  | delimiter d => simp [all, Delimiter.mem_all]
  | _ => simp [all]

theorem mem_symbols (kind : Kind) :
    kind ∈ symbols ↔ kind.isOperator = true ∨ kind.isDelimiter = true := by
  cases kind <;> simp [symbols, isOperator, isDelimiter, Operator.mem_all, Delimiter.mem_all]

end Kind

end Lexis
