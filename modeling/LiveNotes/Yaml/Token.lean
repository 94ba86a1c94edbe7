/-!
The tokens of YAML: marks of documents, starts and ends of collections, keys and values, and the
parts of nodes. Where a collection written by indentation starts and ends there is a token too.
-/

namespace LiveNotes.Yaml

/-- The tokens. -/
inductive Token where
  | versionDirective (major minor : Nat)
  | tagDirective (handle lead : String)
  | documentStart
  | documentEnd
  | blockSequenceStart
  | blockMappingStart
  | blockEnd
  | flowSequenceStart
  | flowSequenceEnd
  | flowMappingStart
  | flowMappingEnd
  | blockEntry
  | flowEntry
  | key
  | value
  | alias (name : String)
  | anchor (name : String)
  | tag (handle suffix : String)
  | scalar (text : String) (plain : Bool)
deriving DecidableEq, Repr

end LiveNotes.Yaml
