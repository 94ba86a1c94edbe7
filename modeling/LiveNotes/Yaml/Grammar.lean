import LiveNotes.Yaml.Node
import LiveNotes.Yaml.Token

/-!
Tokens as nodes. Anchors and aliases are names here.

* `Node.ofTokens?`: the content of the only document of a text;
* `parseNode` and its companions: one function for each kind of collection.
-/

namespace LiveNotes.Yaml

/-! ### Properties of nodes -/

/-- What the handles of tags stand for. -/
abbrev TagRules := List (String × String)

/-- The handles that need no directive. -/
def defaultTagRules : TagRules := [("!", "!"), ("!!", "tag:yaml.org,2002:")]

/-- The anchor and the tag before a node. -/
structure NodeProperties where
  anchor : Option String
  tag : Option String

/-- The tag of a handle and a suffix. -/
def resolveTag? (rules : TagRules) (handle suffix : String) : Option String :=
  if handle.isEmpty then some suffix else (rules.lookup handle).map (· ++ suffix)

/-- The anchor and the tag before a node, in either order. -/
def takeProperties? (rules : TagRules) : List Token → Option (NodeProperties × List Token)
  | .anchor name :: .tag handle suffix :: ts | .tag handle suffix :: .anchor name :: ts =>
    (resolveTag? rules handle suffix).map fun tag => (⟨some name, some tag⟩, ts)
  | .anchor name :: ts => some (⟨some name, none⟩, ts)
  | .tag handle suffix :: ts =>
    (resolveTag? rules handle suffix).map fun tag => (⟨none, some tag⟩, ts)
  | ts => some (⟨none, none⟩, ts)

/-- A node of which only an anchor or a tag is written. -/
def emptyNode? (p : NodeProperties) (ts : List Token) : Option (Node String × List Token) :=
  if p.anchor.isSome || p.tag.isSome then some (.scalar p.anchor p.tag "" true, ts) else none

/-! ### Grammar -/

/-- A node and the tokens behind it. -/
abbrev Parsed := Node String × List Token

/-- Where a node stands: as a part of brackets, as a part of a block, or as a key or value of a
block, where a sequence needs no indentation of its own. -/
inductive Place where
  | inBrackets | inBlock | inEntry
deriving DecidableEq, Repr

/-- Whether a token ends an empty item of a sequence without indentation, or an empty key or
value. -/
def endsEntry : List Token → Bool
  | .blockEntry :: _ => true
  | .key :: _ | .value :: _ | .blockEnd :: _ => true
  | _ => false

/-- Whether a token ends an empty key or value of a block mapping. -/
def endsPair : List Token → Bool
  | .key :: _ | .value :: _ | .blockEnd :: _ => true
  | _ => false

/-- The tokens behind a comma, which has to be there unless the item is the first. -/
def behindComma? (first : Bool) (ts : List Token) : Option (List Token) :=
  if first then some ts
  else
    match ts with
    | .flowEntry :: ts => some ts
    | _ => none

mutual

/-- A node. The number bounds the nested calls. -/
def parseNode (rules : TagRules) (place : Place) : Nat → List Token → Option Parsed
  | 0, _ => none
  | _ + 1, .alias name :: ts => some (.alias name, ts)
  | room + 1, ts =>
    match takeProperties? rules ts with
    | none => none
    | some (p, ts) =>
      match place, ts with
      | .inEntry, .blockEntry :: _ =>
        (parseLooseItems rules room [] ts).map fun (items, ts) => (.sequence p.anchor p.tag items, ts)
      | _, .scalar text plain :: ts => some (.scalar p.anchor p.tag text plain, ts)
      | _, .flowSequenceStart :: ts =>
        (parseFlowItems rules room true [] ts).map fun (items, ts) =>
          (.sequence p.anchor p.tag items, ts)
      | _, .flowMappingStart :: ts =>
        (parseFlowEntries rules room true [] ts).map fun (entries, ts) =>
          (.mapping p.anchor p.tag entries, ts)
      | .inBrackets, ts => emptyNode? p ts
      | _, .blockSequenceStart :: ts =>
        (parseItems rules room [] ts).map fun (items, ts) => (.sequence p.anchor p.tag items, ts)
      | _, .blockMappingStart :: ts =>
        (parseEntries rules room [] ts).map fun (entries, ts) =>
          (.mapping p.anchor p.tag entries, ts)
      | _, ts => emptyNode? p ts

/-- The items of a block sequence, behind those already read, last one first. -/
def parseItems (rules : TagRules) (room : Nat) (done : List (Node String)) (ts : List Token) :
    Option (List (Node String) × List Token) :=
  match room, ts with
  | _, .blockEnd :: ts => some (done.reverse, ts)
  | room + 1, .blockEntry :: ts =>
    match ts with
    | .blockEntry :: _ | .blockEnd :: _ => parseItems rules room (.empty :: done) ts
    | ts =>
      match parseNode rules .inBlock room ts with
      | some (n, ts) => parseItems rules room (n :: done) ts
      | none => none
  | _, _ => none

/-- The items of a block sequence without indentation of its own. -/
def parseLooseItems (rules : TagRules) (room : Nat) (done : List (Node String)) (ts : List Token) :
    Option (List (Node String) × List Token) :=
  match room, ts with
  | room + 1, .blockEntry :: ts =>
    if endsEntry ts then parseLooseItems rules room (.empty :: done) ts
    else
      match parseNode rules .inBlock room ts with
      | some (n, ts) => parseLooseItems rules room (n :: done) ts
      | none => none
  | 0, .blockEntry :: _ => none
  | _, ts => some (done.reverse, ts)

/-- The entries of a block mapping. -/
def parseEntries (rules : TagRules) (room : Nat) (done : List (Node String × Node String))
    (ts : List Token) : Option (List (Node String × Node String) × List Token) :=
  match room, ts with
  | _, .blockEnd :: ts => some (done.reverse, ts)
  | room + 1, .key :: ts =>
    let key := if endsPair ts then some (Node.empty, ts) else parseNode rules .inEntry room ts
    match key with
    | none => none
    | some (k, .value :: ts) =>
      let value := if endsPair ts then some (Node.empty, ts) else parseNode rules .inEntry room ts
      match value with
      | none => none
      | some (v, ts) => parseEntries rules room ((k, v) :: done) ts
    | some (k, ts) => parseEntries rules room ((k, .empty) :: done) ts
  | _, _ => none

/-- The items of a sequence in brackets. A pair of a key and a value is a mapping of its own. -/
def parseFlowItems (rules : TagRules) (room : Nat) (first : Bool) (done : List (Node String))
    (ts : List Token) : Option (List (Node String) × List Token) :=
  match room, ts with
  | _, .flowSequenceEnd :: ts => some (done.reverse, ts)
  | 0, _ => none
  | room + 1, ts =>
    match behindComma? first ts with
    | none => none
    | some (.flowSequenceEnd :: ts) => some (done.reverse, ts)
    | some (.key :: ts) =>
      match parsePair rules room ts with
      | some (n, ts) => parseFlowItems rules room false (n :: done) ts
      | none => none
    | some ts =>
      match parseNode rules .inBrackets room ts with
      | some (n, ts) => parseFlowItems rules room false (n :: done) ts
      | none => none

/-- A pair of a key and a value behind the sign of a key. -/
def parsePair (rules : TagRules) (room : Nat) (ts : List Token) : Option Parsed :=
  match room with
  | 0 => none
  | room + 1 =>
    let key := match ts with
      | .value :: ts | .flowEntry :: ts | .flowSequenceEnd :: ts => some (Node.empty, ts)
      | ts => parseNode rules .inBrackets room ts
    match key with
    | none => none
    | some (k, .value :: ts) =>
      let value := match ts with
        | .flowEntry :: _ | .flowSequenceEnd :: _ => some (Node.empty, ts)
        | ts => parseNode rules .inBrackets room ts
      value.map fun (v, ts) => (.mapping none none [(k, v)], ts)
    | some (k, ts) => some (.mapping none none [(k, .empty)], ts)

/-- The entries of a mapping in braces. -/
def parseFlowEntries (rules : TagRules) (room : Nat) (first : Bool)
    (done : List (Node String × Node String)) (ts : List Token) :
    Option (List (Node String × Node String) × List Token) :=
  match room, ts with
  | _, .flowMappingEnd :: ts => some (done.reverse, ts)
  | 0, _ => none
  | room + 1, ts =>
    match behindComma? first ts with
    | none => none
    | some (.flowMappingEnd :: ts) => some (done.reverse, ts)
    | some (.key :: ts) =>
      let key := match ts with
        | .value :: _ | .flowEntry :: _ | .flowMappingEnd :: _ => some (Node.empty, ts)
        | ts => parseNode rules .inBrackets room ts
      match key with
      | none => none
      | some (k, .value :: ts) =>
        let value := match ts with
          | .flowEntry :: _ | .flowMappingEnd :: _ => some (Node.empty, ts)
          | ts => parseNode rules .inBrackets room ts
        match value with
        | none => none
        | some (v, ts) => parseFlowEntries rules room false ((k, v) :: done) ts
      | some (k, ts) => parseFlowEntries rules room false ((k, .empty) :: done) ts
    | some ts =>
      match parseNode rules .inBrackets room ts with
      | some (k, ts) => parseFlowEntries rules room false ((k, .empty) :: done) ts
      | none => none

end

/-! ### Documents -/

/-- Directives with the tokens behind them: at most one version, which has to be 1.1 or 1.2, and a
rule for each handle at most. -/
def takeDirectives? (version : Bool) (rules : TagRules) : List Token → Option (TagRules × List Token)
  | .versionDirective major minor :: ts =>
    if version || major != 1 || (minor != 1 && minor != 2) then none
    else takeDirectives? true rules ts
  | .tagDirective handle lead :: ts =>
    if (rules.lookup handle).isSome then none
    else takeDirectives? version (rules ++ [(handle, lead)]) ts
  | ts => some (rules, ts)

/-- Whether a document without content ends. -/
def endsDocument : List Token → Bool
  | [] => true
  | .versionDirective .. :: _ | .tagDirective .. :: _ | .documentStart :: _ | .documentEnd :: _ => true
  | _ => false

/-- A limit for nested calls that is never reached: each token is behind at most three of them. -/
def roomFor (ts : List Token) : Nat := 3 * ts.length + 3

/-- The content of a document and the tokens behind it. -/
def parseDocument? (ts : List Token) : Option Parsed :=
  match ts with
  | .versionDirective .. :: _ | .tagDirective .. :: _ | .documentStart :: _ =>
    match takeDirectives? false [] ts with
    | some (rules, .documentStart :: ts) =>
      if endsDocument ts then some (.empty, ts)
      else parseNode (rules ++ defaultTagRules) .inBlock (roomFor ts) ts
    | _ => none
  | ts => parseNode defaultTagRules .inBlock (roomFor ts) ts

/-- The content of the only document, if there is one. -/
def Node.ofTokens? (ts : List Token) : Option (Option (Node String)) :=
  if ts.isEmpty then some none
  else
    match parseDocument? ts with
    | none => none
    | some (n, ts) => if ts.all (· == .documentEnd) then some (some n) else none

end LiveNotes.Yaml
