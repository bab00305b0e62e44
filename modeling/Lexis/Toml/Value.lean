/-
This file defines what a configuration text holds: values under names, in tables that
may hold further tables. A table remembers how it came to be, because that decides
whether later lines may add to it: a table with a header of its own is complete when
the next header comes, one that only other names imply may still get its header, and
one made by dotted names is open to more dotted names.
-/

import Lexis.Decimal.Binary64

namespace Lexis.Toml

/-- How a table came to be. -/
inductive Origin where
  /-- By a header of its own. -/
  | header
  /-- As a step on the way to another table with a header. -/
  | implied
  /-- By a name with dots. -/
  | dotted
  deriving DecidableEq, Repr

/-- A value, or a table that is still open to later lines. -/
inductive Node where
  | string (text : String)
  | integer (n : Int)
  | float (x : Binary64)
  | boolean (b : Bool)
  | dateTime
  | array (items : List Node)
  /-- A table written in braces; nothing can be added to it. -/
  | inline (entries : List (String × Node))
  | table (origin : Origin) (entries : List (String × Node))
  /-- Tables that share one name, each behind a header in double brackets. -/
  | tables (elements : List (List (String × Node)))

/-- The names of a table with what they stand for, in the order of the text. -/
abbrev Entries : Type := List (String × Node)

/-- Why a text is no configuration. -/
inductive Problem where
  | malformed (line : Nat)
  | duplicateName (name : String)
  | notATable (name : String)
  deriving DecidableEq, Repr

def Problem.message : Problem → String
  | .malformed line => "malformed at line " ++ toString line
  | .duplicateName name => "duplicate name " ++ name
  | .notATable name => name ++ " is not a table"

end Lexis.Toml
