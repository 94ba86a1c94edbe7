import LiveNotes.Value.Basic

/-!
Noticing changes of the properties of a document: each observation is compared with the last
properties kept. Equal properties are not kept again.
-/

namespace LiveNotes

/-- The properties that the next observation is compared with. -/
structure ChangeTracker where
  previous : Option Properties

namespace ChangeTracker

/-- Nothing is observed yet. -/
def empty : ChangeTracker := ⟨none⟩

/-- Other properties to compare with, or none. -/
def reset (snapshot : Option Properties) : ChangeTracker := ⟨snapshot⟩

/-- Whether properties differ from those kept, and the tracker that keeps them; the first ones
never do. -/
def observe (tracker : ChangeTracker) (current : Properties) : Bool × ChangeTracker :=
  match tracker.previous with
  | none => (false, ⟨some current⟩)
  | some previous =>
    if Value.sameProperties previous current then (false, tracker) else (true, ⟨some current⟩)

end ChangeTracker

end LiveNotes
