/-
This file reads configuration values as what a program expects in their place. A group
of settings is a table, whose other names are ignored, but it may also be given as an
array with the settings in their order; a date has none of the names and so counts as a
group with nothing set. A choice is given by its name, or by a table with this one name
and nothing under it.
-/

import Lexis.Toml.Value

namespace Lexis.Toml.Node

/-- The node of one of the tables that share a name. -/
def ofElement (entries : Entries) : Node := .table .header entries

/-- What a group gives for each of its settings, or nothing if the node is no group. -/
def settings? (names : List String) : Node → Option (List (Option Node))
  | .table _ entries | .inline entries => some (names.map fun name => entries.lookup name)
  | .array items => some (names.mapIdx fun place _ => items[place]?)
  | .tables elements =>
    some (names.mapIdx fun place _ => elements[place]?.map ofElement)
  | .dateTime => some (names.map fun _ => none)
  | _ => none

/-- Whether there is nothing in the node. -/
def isEmptyGroup : Node → Bool
  | .table _ entries | .inline entries => entries.isEmpty
  | .array items => items.isEmpty
  | .tables elements => elements.isEmpty
  | _ => false

/-- The name of a choice. -/
def choice? : Node → Option String
  | .string name => some name
  | .table _ [(name, node)] | .inline [(name, node)] =>
    if node.isEmptyGroup then some name else none
  | _ => none

/-- A number from zero up to below a bound. -/
def natural? (bound : Nat) : Node → Option Nat
  | .integer n => if 0 ≤ n && n < bound then some n.toNat else none
  | _ => none

end Lexis.Toml.Node
