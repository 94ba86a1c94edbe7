import LiveNotes.Entries

/-!
YAML nodes: scalars, sequences and mappings, some of them with an anchor, and aliases that stand
for a node with an anchor.

* `Node.size`: how many marks a node consists of;
* `Node.anchored`: the nodes with an anchor;
* `Node.numbered?`: numbers in place of the names of anchors.
-/

namespace LiveNotes.Yaml

/-- A node, with anchors and aliases of some type. -/
inductive Node (α : Type) where
  | alias (target : α)
  | scalar (anchor : Option α) (tag : Option String) (text : String) (plain : Bool)
  | sequence (anchor : Option α) (tag : Option String) (items : List (Node α))
  | mapping (anchor : Option α) (tag : Option String) (entries : List (Node α × Node α))
deriving Inhabited

namespace Node

/-- The node that stands where none is written. -/
def empty {α : Type} : Node α := .scalar none none "" true

mutual

/-- The number of marks that a node consists of: its own and those of its parts, and two for a
collection, which has a start and an end. -/
def size {α : Type} : Node α → Nat
  | .alias _ | .scalar .. => 1
  | .sequence _ _ items => 2 + sizeItems items
  | .mapping _ _ entries => 2 + sizeEntries entries

def sizeItems {α : Type} : List (Node α) → Nat
  | [] => 0
  | n :: ns => size n + sizeItems ns

def sizeEntries {α : Type} : List (Node α × Node α) → Nat
  | [] => 0
  | (k, v) :: es => size k + size v + sizeEntries es

end

end Node

namespace Node

/-! ### Anchors -/

mutual

/-- The nodes with an anchor, a node before its parts. -/
def anchored {α : Type} : Node α → List (α × Node α)
  | .alias _ => []
  | .scalar a tag text plain => a.toList.map fun a => (a, .scalar (some a) tag text plain)
  | .sequence a tag items =>
    a.toList.map (fun a => (a, .sequence (some a) tag items)) ++ anchoredItems items
  | .mapping a tag entries =>
    a.toList.map (fun a => (a, .mapping (some a) tag entries)) ++ anchoredEntries entries

def anchoredItems {α : Type} : List (Node α) → List (α × Node α)
  | [] => []
  | n :: ns => anchored n ++ anchoredItems ns

def anchoredEntries {α : Type} : List (Node α × Node α) → List (α × Node α)
  | [] => []
  | (k, v) :: es => anchored k ++ anchored v ++ anchoredEntries es

end

/-- The number of a name at its anchor: how many different names came before, a name that comes
again included. -/
def bindAnchor (names : Entries Nat) (a : Option String) : Option Nat × Entries Nat :=
  match a with
  | none => (none, names)
  | some name => (some names.length, names.insert name names.length)

mutual

/-- A node with numbers in place of names, given those of the anchors before it. An alias needs an
anchor before it. -/
def numberFrom? (names : Entries Nat) : Node String → Option (Node Nat × Entries Nat)
  | .alias name => (names.get? name).map fun n => (.alias n, names)
  | .scalar a tag text plain =>
    let (a, names) := bindAnchor names a
    some (.scalar a tag text plain, names)
  | .sequence a tag items =>
    let (a, names) := bindAnchor names a
    match numberItems? names [] items with
    | some (items, names) => some (.sequence a tag items, names)
    | none => none
  | .mapping a tag entries =>
    let (a, names) := bindAnchor names a
    match numberEntries? names [] entries with
    | some (entries, names) => some (.mapping a tag entries, names)
    | none => none

/-- Items with numbers, behind those already done, last one first. -/
def numberItems? (names : Entries Nat) (done : List (Node Nat)) :
    List (Node String) → Option (List (Node Nat) × Entries Nat)
  | [] => some (done.reverse, names)
  | n :: ns =>
    match numberFrom? names n with
    | some (n, names) => numberItems? names (n :: done) ns
    | none => none

/-- Entries with numbers, behind those already done, last one first. -/
def numberEntries? (names : Entries Nat) (done : List (Node Nat × Node Nat)) :
    List (Node String × Node String) → Option (List (Node Nat × Node Nat) × Entries Nat)
  | [] => some (done.reverse, names)
  | (k, v) :: es =>
    match numberFrom? names k with
    | none => none
    | some (k, names) =>
      match numberFrom? names v with
      | some (v, names) => numberEntries? names ((k, v) :: done) es
      | none => none

end

/-- A node with numbers in place of the names of anchors. -/
def numbered? (n : Node String) : Option (Node Nat) := (numberFrom? [] n).map (·.1)

end Node

end LiveNotes.Yaml
