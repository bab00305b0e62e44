/-
This file says how a token is listed. In the text form it is a line with its place, its
kind and, for a literal, its value; in the JSON form it is an object with the same
parts.
-/

import Lexis.Json.Printer
import Lexis.Token.Basic

namespace Lexis

/-- A value in a JSON listing. A character is the text of the one character with its
number, and a float that JSON has no number for is null. -/
def Value.toJson : Value → Json
  | .none => .null
  | .ident name _ => .text name
  | .int n => .integer n.toInt
  | .float x => if x.isFinite then .decimal x else .null
  | .char b => .text (String.ofList [Char.ofNat b.toNat])
  | .str text => .text text

/-- What a listing shows of a token. -/
structure TokenRecord where
  file : String
  kind : String
  value : Json
  line : UInt32
  column : UInt32

namespace TokenRecord

/-- The record of a token. Only literals show their value. -/
def ofToken (file : String) (token : Token) : TokenRecord where
  file := file
  kind := token.kind.text
  value := if token.kind.isLiteral then token.value.toJson else .null
  line := token.span.line
  column := token.span.column

def toJson (record : TokenRecord) : Json :=
  .object
    [ ("file", .text record.file), ("kind", .text record.kind), ("value", record.value),
      ("line", .integer record.line.toNat), ("column", .integer record.column.toNat) ]

end TokenRecord

/-- A token on a line of its own, without the line feed. -/
def Token.listing (token : Token) (file : String) : String :=
  let place := file ++ ":" ++ toString token.span.line ++ ":" ++ toString token.span.column
  if token.kind.isLiteral then place ++ " " ++ token.kind.text ++ " " ++ token.value.text
  else place ++ " " ++ token.kind.text

end Lexis
