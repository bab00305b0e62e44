/-
This file shows that a listing in JSON can be read back. It is a text of JSON that stands for
one array with an object for each token, in their order, and the fields of the object are those
of the record: names and texts with every character, integers with every digit, floating-point
numbers with every bit. So the listing tells the records, and as much as they tell of the tokens.
-/

import Lexis.Dump.Basic
import Lexis.Proofs.Json.Printer

namespace Lexis

open Json (Tree)

/-- What a value stands for in a listing. Floats that JSON has no number for are null. -/
def Value.tree : Value → Tree
  | .none => .null
  | .ident name _ => .text name
  | .int n => .integer n.toInt
  | .float x => if x.isFinite then .decimal x else .null
  | .char b => .text (String.ofList [Char.ofNat b.toNat])
  | .str text => .text text

/-- What a token stands for in a listing. Only literals show their value. -/
def Token.tree (file : String) (token : Token) : Tree :=
  .object
    [ ("file", .text file), ("kind", .text token.kind.text),
      ("value", if token.kind.isLiteral then token.value.tree else .null),
      ("line", .integer token.span.line.toNat), ("column", .integer token.span.column.toNat) ]

theorem Value.tree_toJson (value : Value) : value.toJson.tree = value.tree := by
  cases value with
  | float x =>
    show (if x.isFinite then Json.decimal x else .null).tree =
      if x.isFinite then .decimal x else .null
    by_cases finite : x.isFinite = true
    · rw [if_pos finite, if_pos finite, Json.tree, if_pos finite]
    · rw [if_neg finite, if_neg finite, Json.tree]
  | none | ident | int | char | str => rw [toJson, tree, Json.tree]

namespace TokenRecord

theorem tree_toJson (file : String) (token : Token) :
    (ofToken file token).toJson.tree = token.tree file := by
  have value : (ofToken file token).value.tree =
      if token.kind.isLiteral then token.value.tree else .null := by
    unfold ofToken
    dsimp only
    split
    · exact token.value.tree_toJson
    · rw [Json.tree]
  unfold toJson
  simp only [Json.tree, Json.treeFields, value]
  rfl

/-! ### Reading records -/

/-- The value that a record shows. -/
def valueOf : Tree → Json
  | .integer n => .integer n
  | .decimal x => .decimal x
  | .text s => .text s
  | _ => .null

/-- The record that an object stands for, by the order of its fields. -/
def ofTree? : Tree → Option TokenRecord
  | .object [(_, .text file), (_, .text kind), (_, value), (_, .integer line),
      (_, .integer column)] =>
    some ⟨file, kind, valueOf value, UInt32.ofNat line.toNat, UInt32.ofNat column.toNat⟩
  | _ => none

theorem valueOf_tree (value : Value) : valueOf value.tree = value.toJson := by
  cases value with
  | float x =>
    show valueOf (if x.isFinite then .decimal x else .null) =
      if x.isFinite then .decimal x else .null
    split <;> rfl
  | none | ident | int | char | str => rfl

/-- What stands for a token tells its record. -/
theorem ofTree?_tree (file : String) (token : Token) :
    ofTree? (token.tree file) = some (ofToken file token) := by
  have value : valueOf (if token.kind.isLiteral then token.value.tree else .null) =
      (ofToken file token).value := by
    unfold ofToken
    dsimp only
    split
    · exact valueOf_tree token.value
    · rfl
  rw [Token.tree, ofTree?, value, Int.toNat_natCast, Int.toNat_natCast, UInt32.ofNat_toNat,
    UInt32.ofNat_toNat]
  rfl

end TokenRecord

namespace Dump

/-- The records of a listing: of each report in turn all tokens, with the name of its source. -/
def records (sources : SourceMap) (reports : List FileReport) : List TokenRecord :=
  reports.flatMap fun report =>
    report.tokens.map fun token => .ofToken (sources.name report.file) token

/-- What a listing stands for: an array with an object for each of these tokens. -/
def tree (sources : SourceMap) (reports : List FileReport) : Tree :=
  .array (reports.flatMap fun report =>
    report.tokens.map fun token => token.tree (sources.name report.file))

theorem records_eq_map_named (sources : SourceMap) (reports : List FileReport) :
    records sources reports =
      (named sources reports).map fun entry => .ofToken entry.1 entry.2 := by
  rw [map_named, records]

theorem tree_eq_map_named (sources : SourceMap) (reports : List FileReport) :
    tree sources reports =
      .array ((named sources reports).map fun entry => entry.2.tree entry.1) := by
  rw [map_named, tree]

/-- A listing stands for the objects of its tokens, and for nothing else. -/
theorem spells_json_iff (sources : SourceMap) (reports : List FileReport) (other : Tree) :
    Json.Spells (.padded other) (json sources reports).toList ↔ other = tree sources reports := by
  have written : (Json.array ((named sources reports).map fun entry =>
      (TokenRecord.ofToken entry.1 entry.2).toJson)).tree = tree sources reports := by
    rw [Json.tree, Json.treeItems_eq_map, List.map_map, tree_eq_map_named]
    refine congrArg Tree.array (List.map_congr_left fun entry _ => ?_)
    exact TokenRecord.tree_toJson entry.1 entry.2
  rw [← written]
  exact Json.spells_print_iff Json.Style.spaced_indented _ other

/-- The records that an array stands for. -/
def records? : Tree → Option (List TokenRecord)
  | .array items => items.mapM TokenRecord.ofTree?
  | _ => none

/-- What a listing stands for tells its records. -/
theorem records?_tree (sources : SourceMap) (reports : List FileReport) :
    records? (tree sources reports) = some (records sources reports) := by
  have told : (TokenRecord.ofTree? ∘ fun entry : String × Token => entry.2.tree entry.1) =
      fun entry => pure (TokenRecord.ofToken entry.1 entry.2) := by
    funext entry
    exact TokenRecord.ofTree?_tree entry.1 entry.2
  rw [tree_eq_map_named, records?, List.mapM_map, told, List.mapM_pure, records_eq_map_named]
  rfl

end Dump

/-- A listing in JSON is a text of JSON with a line feed behind it. It stands for one array, which
has for each token, in order, the object with its record; it is read as that array, and the
records are told by it. Two listings are the same if and only if they have the same records. -/
theorem listing_reads_back (sources : SourceMap) (reports : List FileReport) :
    (∃ text : List Char, Dump.write .json sources reports = String.ofList text ++ "\n" ∧
      (∀ tree, Json.Spells (.padded tree) text ↔ tree = Dump.tree sources reports) ∧
      Json.read? text = some (Dump.tree sources reports) ∧
      (Json.read? text).bind Dump.records? = some (Dump.records sources reports)) ∧
    ∀ others otherReports,
      Dump.write .json others otherReports = Dump.write .json sources reports ↔
        Dump.records others otherReports = Dump.records sources reports := by
  have stands := Dump.spells_json_iff sources reports
  have read : Json.read? (Dump.json sources reports).toList = some (Dump.tree sources reports) :=
    Json.read?_of_spells ((stands _).mpr rfl)
  refine ⟨⟨(Dump.json sources reports).toList, ?_, stands, read, ?_⟩,
    fun others otherReports => ⟨?_, ?_⟩⟩
  · rw [String.ofList_toList]
    rfl
  · rw [read, Option.bind_some, Dump.records?_tree]
  · intro same
    have texts : Dump.json others otherReports = Dump.json sources reports :=
      (String.append_left_inj "\n").mp same
    have trees : Dump.tree others otherReports = Dump.tree sources reports := by
      refine (stands _).mp ?_
      rw [← texts]
      exact (Dump.spells_json_iff others otherReports _).mpr rfl
    have records := congrArg Dump.records? trees
    rw [Dump.records?_tree, Dump.records?_tree] at records
    exact Option.some.inj records
  · intro same
    have written (sources : SourceMap) (reports : List FileReport) :
        Dump.write .json sources reports =
          Json.pretty (.array ((Dump.records sources reports).map TokenRecord.toJson)) ++ "\n" := by
      rw [Dump.records_eq_map_named, List.map_map]
      rfl
    rw [written, written, same]

end Lexis
