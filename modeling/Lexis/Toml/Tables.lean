/-
This file adds one line of a configuration text to the tables read so far. A header
names a table by the way from the root; a line with a value names it by dots, from the
table of the last header on. On the way tables that do not exist yet are made. No name
is given twice, and no table is given twice.
-/

import Lexis.Toml.Value

namespace Lexis.Toml

/-- Puts a value under a name that is there already. -/
def replace (entries : Entries) (name : String) (node : Node) : Entries :=
  entries.map fun entry => if entry.1 = name then (name, node) else entry

/-- Changes the last of a list of tables. -/
def changeLast (change : Entries → Except Problem Entries) :
    List Entries → Except Problem (List Entries)
  | [] => .ok []
  | [last] => do return [← change last]
  | first :: rest => do return first :: (← changeLast change rest)

/-! ### Lines with a value -/

/-- Gives a dotted name its value. The flag tells whether the table at hand may get new
names: the table of the header may, and so may tables made by dots, but a table that
was made in another way may only be passed through on the way to one made by dots. -/
def assign (value : Node) : (mayGrow : Bool) → Entries → List String → Except Problem Entries
  | _, entries, [] => .ok entries
  | mayGrow, entries, [name] =>
    if mayGrow && (entries.lookup name).isNone then .ok (entries ++ [(name, value)])
    else .error (.duplicateName name)
  | _, entries, name :: next :: rest =>
    match entries.lookup name with
    | none => do
      let inner ← assign value true [] (next :: rest)
      return entries ++ [(name, .table .dotted inner)]
    | some (.table .header _) => .error (.duplicateName name)
    | some (.table origin inner) => do
      let inner ← assign value (origin = .dotted) inner (next :: rest)
      return replace entries name (.table origin inner)
    | some (.tables elements) => do
      let elements ← changeLast (assign value false · (next :: rest)) elements
      return replace entries name (.tables elements)
    | some _ => .error (.notATable name)

/-! ### Headers -/

/-- Changes the table at the end of a way. Of tables that share a name the way leads
into the last. -/
def within (change : Entries → Except Problem Entries) :
    List String → Entries → Except Problem Entries
  | [], entries => change entries
  | name :: rest, entries =>
    match entries.lookup name with
    | none => do
      let inner ← within change rest []
      return entries ++ [(name, .table .implied inner)]
    | some (.table origin inner) => do
      let inner ← within change rest inner
      return replace entries name (.table origin inner)
    | some (.tables elements) => do
      let elements ← changeLast (within change rest) elements
      return replace entries name (.tables elements)
    | some _ => .error (.notATable name)

/-- Gives a table its header. -/
def declareTable (name : String) (entries : Entries) : Except Problem Entries :=
  match entries.lookup name with
  | none => .ok (entries ++ [(name, .table .header [])])
  | some (.table .implied inner) => .ok (replace entries name (.table .header inner))
  | some _ => .error (.duplicateName name)

/-- Begins one more of the tables that share a name. -/
def declareElement (name : String) (entries : Entries) : Except Problem Entries :=
  match entries.lookup name with
  | none => .ok (entries ++ [(name, .tables [[]])])
  | some (.tables elements) => .ok (replace entries name (.tables (elements ++ [[]])))
  | some _ => .error (.duplicateName name)

/-! ### The text as a whole -/

/-- What a line of the text says. -/
inductive Line where
  | blank
  | tableHeader (path : List String)
  | elementHeader (path : List String)
  | value (path : List String) (node : Node)

/-- The tables read so far, and the way to the table of the last header. -/
structure Document where
  root : Entries
  path : List String

def Document.empty : Document := ⟨[], []⟩

/-- Takes in one more line. -/
def Document.add (document : Document) : Line → Except Problem Document
  | .blank => .ok document
  | .value path node => do
    return { document with
      root := ← within (assign node true · path) document.path document.root }
  | .tableHeader path => do
    return ⟨← within (declareTable (path.getLastD "")) path.dropLast document.root, path⟩
  | .elementHeader path => do
    return ⟨← within (declareElement (path.getLastD "")) path.dropLast document.root, path⟩

end Lexis.Toml
