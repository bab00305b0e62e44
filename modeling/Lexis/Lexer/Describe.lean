/-
This file describes a lexer on one line, for whoever follows a run: its name, where it
stands, the tokens handed out last, and whether it has come to the end.
-/

import Lexis.Lexer.Basic

namespace Lexis

/-- A description with named fields. -/
def describeFields (name : String) (fields : List (String × String)) : String :=
  name ++ " \x7b " ++ ", ".intercalate (fields.map fun field => field.1 ++ ": " ++ field.2) ++
    " \x7d"

def describeOption : Option String → String
  | none => "None"
  | some text => "Some(" ++ text ++ ")"

def Value.describe : Value → String
  | .none => "None"
  | .ident name hash =>
    describeFields "Ident" [("name", Text.quoteText name), ("hash", toString hash.toInt)]
  | .int n => "Int(" ++ toString n.toInt ++ ")"
  | .float x => "Float(" ++ Value.floatText x ++ ")"
  | .char b => "Char(" ++ toString b.toNat ++ ")"
  | .str text => "Str(" ++ Text.quoteText text ++ ")"

def Span.describe (span : Span) : String :=
  describeFields "Span"
    [ ("start", toString span.start), ("end", toString span.stop),
      ("line", toString span.line), ("column", toString span.column),
      ("file_id", "FileId(" ++ toString span.file ++ ")") ]

def Token.describe (token : Token) : String :=
  describeFields "Token"
    [ ("kind", token.kind.name), ("value", token.value.describe),
      ("span", token.span.describe) ]

/-- The lexer on one line. The two dots stand for what is left out. -/
def Lexer.describe (lexer : Lexer) : String :=
  let fields :=
    [ ("source_name", Text.quoteText lexer.name),
      ("position", toString lexer.position.offset),
      ("token", describeOption (lexer.state.token.map Token.describe)),
      ("prev_token", describeOption (lexer.state.previous.map Token.describe)),
      ("done", toString lexer.finished) ]
  "Lexer \x7b " ++ ", ".intercalate (fields.map fun field => field.1 ++ ": " ++ field.2) ++
    ", .. \x7d"

end Lexis
