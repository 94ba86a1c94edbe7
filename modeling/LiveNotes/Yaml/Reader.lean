import LiveNotes.Yaml.Grammar
import LiveNotes.Yaml.Lexer
import LiveNotes.Yaml.Datum

/-!
YAML text as data. An alias is read as the node that it stands for; how often and how deep that can
happen is limited.

* `readDatum?`: the datum of a text with at most one document.
-/

namespace LiveNotes.Yaml

/-- The most collections inside one another. -/
def maxNesting : Nat := 128

/-- The nodes that aliases stand for, and how many aliases may be followed. -/
structure Targets where
  nodes : List (Nat × Node Nat)
  limit : Nat

/-- The targets of the aliases in a node. Of anchors with one number the last counts. -/
def Targets.ofNode (n : Node Nat) : Targets := ⟨n.anchored.reverse, 100 * n.size⟩

/-- The node that a node stands for, and how many aliases were followed. -/
def Targets.follow? (t : Targets) (followed : Nat) (n : Node Nat) : Option (Node Nat × Nat) :=
  match n with
  | .alias a =>
    if followed + 1 ≤ t.limit then (t.nodes.lookup a).map fun n => (n, followed + 1) else none
  | n => some (n, followed)

/-- A reader of nodes that counts the aliases followed. -/
abbrev Reader := Nat → Node Nat → Option (Datum × Nat)

/-- The data of items, behind those already read, last one first. -/
def readItems? (read? : Reader) (followed : Nat) (done : List Datum) :
    List (Node Nat) → Option (List Datum × Nat)
  | [] => some (done.reverse, followed)
  | n :: ns =>
    match read? followed n with
    | some (d, followed) => readItems? read? followed (d :: done) ns
    | none => none

/-- The data of entries, behind those already read, last one first. No key may come twice. -/
def readEntries? (read? : Reader) (followed : Nat) (done : List (Datum × Datum)) :
    List (Node Nat × Node Nat) → Option (List (Datum × Datum) × Nat)
  | [] => some (done.reverse, followed)
  | (k, v) :: es =>
    match read? followed k with
    | none => none
    | some (k, followed) =>
      if (Datum.findEntry? k.beq done).isSome then none
      else
        match read? followed v with
        | some (v, followed) => readEntries? read? followed ((k, v) :: done) es
        | none => none

/-- The datum of a node with at most `depth` collections inside one another. -/
def readNode? (t : Targets) : (depth : Nat) → Reader
  | depth, followed, n =>
    match t.follow? followed n with
    | none | some (.alias _, _) => none
    | some (.scalar _ tag text plain, followed) =>
      (Datum.ofScalar? tag text plain).map fun d => (d, followed)
    | some (.sequence _ tag items, followed) =>
      match depth with
      | 0 => none
      | depth + 1 =>
        (readItems? (readNode? t depth) followed [] items).map fun (ds, followed) =>
          (.withTag tag (.sequence ds), followed)
    | some (.mapping _ tag entries, followed) =>
      match depth with
      | 0 => none
      | depth + 1 =>
        (readEntries? (readNode? t depth) followed [] entries).map fun (es, followed) =>
          (.withTag tag (.mapping es), followed)

/-- The datum of a text; a text without a document stands for null. -/
def readDatum? (text : List Char) : Option Datum := do
  match ← Node.ofTokens? (← tokenize? text) with
  | none => return .null
  | some n =>
    let n ← n.numbered?
    let (d, _) ← readNode? (.ofNode n) maxNesting 0 n
    return d

end LiveNotes.Yaml
