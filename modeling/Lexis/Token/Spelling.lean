/-
This file lists the words and symbols of the language. Each family is an
enumeration with the spelling of its members, the name by which listings of
program state call them, and the list of them all in their fixed order. Words are
scanned and printed by these tables. Symbols are only printed by them; the scanner
has its own branches for their bytes, and the two are proved to agree.
-/

namespace Lexis

/-! ### Keywords -/

/-- The words that no identifier may be. -/
inductive Keyword where
  | var | const | func | return_ | if_ | else_ | switch_ | case_ | default_ | fallthrough
  | while_ | do_ | for_ | break_ | continue_ | goto | label | class_ | abstract | interface
  | enum | static | public_ | private_ | protected_ | import_ | export_
  deriving DecidableEq, Repr

namespace Keyword

/-- All keywords in their order. -/
def all : List Keyword :=
  [.var, .const, .func, .return_, .if_, .else_, .switch_, .case_, .default_, .fallthrough,
  .while_, .do_, .for_, .break_, .continue_, .goto, .label, .class_, .abstract, .interface,
  .enum, .static, .public_, .private_, .protected_, .import_, .export_]

def spelling : Keyword → String
  | .var => "var"
  | .const => "const"
  | .func => "func"
  | .return_ => "return"
  | .if_ => "if"
  | .else_ => "else"
  | .switch_ => "switch"
  | .case_ => "case"
  | .default_ => "default"
  | .fallthrough => "fallthrough"
  | .while_ => "while"
  | .do_ => "do"
  | .for_ => "for"
  | .break_ => "break"
  | .continue_ => "continue"
  | .goto => "goto"
  | .label => "label"
  | .class_ => "class"
  | .abstract => "abstract"
  | .interface => "interface"
  | .enum => "enum"
  | .static => "static"
  | .public_ => "public"
  | .private_ => "private"
  | .protected_ => "protected"
  | .import_ => "import"
  | .export_ => "export"

/-- The name in listings: the spelling with a capital. -/
def name (keyword : Keyword) : String := keyword.spelling.capitalize

/-- The keyword of a spelling. -/
def ofSpelling? (word : String) : Option Keyword := all.find? (·.spelling = word)

theorem mem_all (keyword : Keyword) : keyword ∈ all := by cases keyword <;> decide

/-- Looking a spelling up gives the keyword that is spelled so: no two are spelled
alike. -/
theorem ofSpelling?_spelling (keyword : Keyword) :
    ofSpelling? keyword.spelling = some keyword := by
  cases keyword <;> decide

theorem spelling_of_ofSpelling? {word : String} {keyword : Keyword}
    (found : ofSpelling? word = some keyword) : keyword.spelling = word := by
  simpa using List.find?_some found

end Keyword

/-! ### Operators -/

/-- The symbols that stand for computations, comparisons and assignments. -/
inductive Operator where
  | add | sub | mul | div | mod | pow | addAssign | subAssign | mulAssign | divAssign
  | modAssign | powAssign | inc | dec | bitAnd | bitOr | bitXor | bitNot | shiftLeft
  | shiftRight | bitAndAssign | bitOrAssign | bitXorAssign | shiftLeftAssign | shiftRightAssign
  | and | or | xor | not | equal | notEqual | less | lessEqual | greater | greaterEqual
  | question | assign
  deriving DecidableEq, Repr

namespace Operator

/-- All operators in their order. -/
def all : List Operator :=
  [.add, .sub, .mul, .div, .mod, .pow, .addAssign, .subAssign, .mulAssign, .divAssign,
  .modAssign, .powAssign, .inc, .dec, .bitAnd, .bitOr, .bitXor, .bitNot, .shiftLeft,
  .shiftRight, .bitAndAssign, .bitOrAssign, .bitXorAssign, .shiftLeftAssign, .shiftRightAssign,
  .and, .or, .xor, .not, .equal, .notEqual, .less, .lessEqual, .greater, .greaterEqual,
  .question, .assign]

def spelling : Operator → String
  | .add => "+"
  | .sub => "-"
  | .mul => "*"
  | .div => "/"
  | .mod => "%"
  | .pow => "**"
  | .addAssign => "+="
  | .subAssign => "-="
  | .mulAssign => "*="
  | .divAssign => "/="
  | .modAssign => "%="
  | .powAssign => "**="
  | .inc => "++"
  | .dec => "--"
  | .bitAnd => "&"
  | .bitOr => "|"
  | .bitXor => "^"
  | .bitNot => "~"
  | .shiftLeft => "<<"
  | .shiftRight => ">>"
  | .bitAndAssign => "&="
  | .bitOrAssign => "|="
  | .bitXorAssign => "^="
  | .shiftLeftAssign => "<<="
  | .shiftRightAssign => ">>="
  | .and => "&&"
  | .or => "||"
  | .xor => "^^"
  | .not => "!"
  | .equal => "=="
  | .notEqual => "!="
  | .less => "<"
  | .lessEqual => "<="
  | .greater => ">"
  | .greaterEqual => ">="
  | .question => "?"
  | .assign => "="

/-- The name in listings. -/
def name : Operator → String
  | .add => "Add"
  | .sub => "Sub"
  | .mul => "Mul"
  | .div => "Div"
  | .mod => "Mod"
  | .pow => "Pow"
  | .addAssign => "AddAssign"
  | .subAssign => "SubAssign"
  | .mulAssign => "MulAssign"
  | .divAssign => "DivAssign"
  | .modAssign => "ModAssign"
  | .powAssign => "PowAssign"
  | .inc => "Inc"
  | .dec => "Dec"
  | .bitAnd => "BitAnd"
  | .bitOr => "BitOr"
  | .bitXor => "BitXor"
  | .bitNot => "BitNot"
  | .shiftLeft => "ShiftLeft"
  | .shiftRight => "ShiftRight"
  | .bitAndAssign => "BitAndAssign"
  | .bitOrAssign => "BitOrAssign"
  | .bitXorAssign => "BitXorAssign"
  | .shiftLeftAssign => "ShiftLeftAssign"
  | .shiftRightAssign => "ShiftRightAssign"
  | .and => "And"
  | .or => "Or"
  | .xor => "Xor"
  | .not => "Not"
  | .equal => "Equal"
  | .notEqual => "NotEqual"
  | .less => "Less"
  | .lessEqual => "LessEqual"
  | .greater => "Greater"
  | .greaterEqual => "GreaterEqual"
  | .question => "Question"
  | .assign => "Assign"

/-- Whether the operator changes its left operand to a new value that is written
out, alone or together with a computation. -/
def isAssignment : Operator → Bool
  | .addAssign | .subAssign | .mulAssign | .divAssign | .modAssign | .powAssign | .bitAndAssign
  | .bitOrAssign | .bitXorAssign | .shiftLeftAssign | .shiftRightAssign | .assign => true
  | _ => false

theorem mem_all (operator : Operator) : operator ∈ all := by cases operator <;> decide

end Operator

/-! ### Delimiters -/

/-- The symbols that group and separate. -/
inductive Delimiter where
  | leftParen | rightParen | leftBrace | rightBrace | leftBracket | rightBracket | comma
  | colon | semicolon | dot | ellipsis
  deriving DecidableEq, Repr

namespace Delimiter

/-- All delimiters in their order. -/
def all : List Delimiter :=
  [.leftParen, .rightParen, .leftBrace, .rightBrace, .leftBracket, .rightBracket, .comma,
  .colon, .semicolon, .dot, .ellipsis]

def spelling : Delimiter → String
  | .leftParen => "("
  | .rightParen => ")"
  | .leftBrace => "\x7b"
  | .rightBrace => "\x7d"
  | .leftBracket => "["
  | .rightBracket => "]"
  | .comma => ","
  | .colon => ":"
  | .semicolon => ";"
  | .dot => "."
  | .ellipsis => "..."

/-- The name in listings. -/
def name : Delimiter → String
  | .leftParen => "LeftParen"
  | .rightParen => "RightParen"
  | .leftBrace => "LeftBrace"
  | .rightBrace => "RightBrace"
  | .leftBracket => "LeftBracket"
  | .rightBracket => "RightBracket"
  | .comma => "Comma"
  | .colon => "Colon"
  | .semicolon => "Semicolon"
  | .dot => "Dot"
  | .ellipsis => "Ellipsis"

theorem mem_all (delimiter : Delimiter) : delimiter ∈ all := by cases delimiter <;> decide

end Delimiter

end Lexis
