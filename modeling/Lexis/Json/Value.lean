/-
This file defines JSON values as the library writes them. Objects keep their fields in
the order given, integers are exact, and numbers with a fraction are floating-point
numbers; those that JSON has no number for are written as null.
-/

import Lexis.Decimal.Binary64

namespace Lexis

/-- A JSON value. -/
inductive Json where
  | null
  | integer (n : Int)
  | decimal (x : Binary64)
  | text (s : String)
  | array (items : List Json)
  | object (fields : List (String × Json))

end Lexis
