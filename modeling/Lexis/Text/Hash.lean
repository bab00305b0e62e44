/-
This file defines the name hash. An identifier carries the hash of its spelling,
so that a later table of names can compare machine words before it compares
texts. One step shifts the hash five places up and adds the hash itself and the
next character; all arithmetic wraps at 64 bits, so no text is too long.
-/

namespace Lexis.Text

/-- The hash of the empty text. -/
def hashSeed : Int64 := 5381

/-- Takes one more character into a hash. -/
def mixHash (h : Int64) (c : Char) : Int64 :=
  (h <<< 5) + h + Int64.ofNat c.toNat

/-- The hash of a text: its scalar values are mixed in from left to right. -/
def nameHash (text : String) : Int64 :=
  text.toList.foldl mixHash hashSeed

/-- A text that goes on hashes from where its beginning left off. -/
theorem nameHash_append (first second : String) :
    nameHash (first ++ second) = second.toList.foldl mixHash (nameHash first) := by
  simp [nameHash, List.foldl_append]

end Lexis.Text
