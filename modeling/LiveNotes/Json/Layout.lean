import LiveNotes.Json.Quote

/-!
The indented form of JSON text: each part of a container stands on a line of its own, two blanks
deeper than the brackets.

* `block`: a container with its parts.
-/

namespace LiveNotes.Json

/-- The blanks before a line at some depth. -/
def indent (depth : Nat) : String := .ofList (List.replicate (2 * depth) ' ')

/-- Parts of a container at some depth, one a line, between its brackets. -/
def block (opening closing : String) (depth : Nat) (parts : List String) : String :=
  opening ++ "\n" ++
    String.intercalate ",\n" (parts.map fun part => indent (depth + 1) ++ part) ++
    "\n" ++ indent depth ++ closing

end LiveNotes.Json
