import LiveNotes.Store.Tracker
import LiveNotes.Proofs.Value.Equality

/-!
What a change tracker reports. It keeps an older snapshot as long as the new ones are the same, yet it
answers as if it kept the one given last: the two are the same, and sameness is symmetric and
transitive.

* `TrackerCall`, `ChangeTracker.after`: the calls on a tracker, and what they leave;
* `latestSnapshot?`: the snapshot that was given last;
* `TrackerCall.tracks`, `tracks_after`: what a call leaves, and so what is kept after any calls;
* `observe_after_iff`: an observation after any calls.
-/

namespace LiveNotes

/-- A call on a tracker. -/
inductive TrackerCall where
  | observe (current : Properties)
  | reset (snapshot : Option Properties)

namespace TrackerCall

/-- The snapshot that a call gives to the tracker. -/
def snapshot? : TrackerCall → Option Properties
  | .observe current => some current
  | .reset snapshot => snapshot

/-- The tracker behind a call. -/
def apply (tracker : ChangeTracker) : TrackerCall → ChangeTracker
  | .observe current => (tracker.observe current).2
  | .reset snapshot => .reset snapshot

/-- No object in the snapshot of a call has a name twice. -/
def WellFormed (call : TrackerCall) : Prop :=
  ∀ p, call.snapshot? = some p → (Value.object p).WellFormed

end TrackerCall

/-- The tracker behind calls, one after the other. -/
def ChangeTracker.after (calls : List TrackerCall) : ChangeTracker :=
  calls.foldl TrackerCall.apply .empty

/-- The snapshot given last. There is none before the first call and behind a reset to none. -/
def latestSnapshot? (calls : List TrackerCall) : Option Properties :=
  calls.getLast?.bind TrackerCall.snapshot?

/-! ### What is kept -/

/-- What a tracker keeps when a snapshot was given to it last: that one, or one that is the same. A
snapshot is kept as it is even where it is not the same as itself. -/
inductive Tracks : Option Properties → Option Properties → Prop where
  | given (snapshot : Option Properties) : Tracks snapshot snapshot
  | older {kept latest : Properties} (h : Value.Same (.object kept) (.object latest)) :
    Tracks (some kept) (some latest)

/-- No object in what a tracker keeps has a name twice. -/
def ChangeTracker.WellFormed (tracker : ChangeTracker) : Prop :=
  ∀ p, tracker.previous = some p → (Value.object p).WellFormed

section Calls

variable {tracker : ChangeTracker} {call : TrackerCall}

/-- The properties kept behind a call were kept before it, or are those of the call. -/
theorem TrackerCall.previous_apply (call : TrackerCall) (tracker : ChangeTracker) :
    (call.apply tracker).previous = tracker.previous ∨
      (call.apply tracker).previous = call.snapshot? := by
  cases call with
  | reset snapshot => exact .inr rfl
  | observe current =>
    simp only [apply, ChangeTracker.observe]
    split
    · exact .inr rfl
    · split
      · exact .inl rfl
      · exact .inr rfl

theorem TrackerCall.WellFormed.apply (hc : call.WellFormed) (ht : tracker.WellFormed) :
    (call.apply tracker).WellFormed := by
  intro p hp
  rcases call.previous_apply tracker with h | h
  · exact ht p (h ▸ hp)
  · exact hc p (h ▸ hp)

/-- Whatever was kept before, behind a call the tracker keeps what stands for its snapshot. -/
theorem TrackerCall.WellFormed.tracks (hc : call.WellFormed) (ht : tracker.WellFormed) :
    Tracks (call.apply tracker).previous call.snapshot? := by
  cases call with
  | reset snapshot => exact .given snapshot
  | observe current =>
    simp only [TrackerCall.apply, ChangeTracker.observe]
    cases hp : tracker.previous with
    | none => exact .given _
    | some kept =>
      dsimp only
      split
      · next hsame =>
        rw [hp]
        exact .older ((Value.sameProperties_iff (ht kept hp) (hc current rfl)).1 hsame)
      · exact .given _

/-- An observation reports a change if something is kept and the comparison finds a difference. -/
theorem ChangeTracker.fst_observe_iff (tracker : ChangeTracker) (current : Properties) :
    (tracker.observe current).1 = true ↔
      ∃ kept, tracker.previous = some kept ∧ ¬ Value.sameProperties kept current = true := by
  unfold observe
  cases tracker.previous with
  | none => simp
  | some kept => by_cases h : Value.sameProperties kept current = true <;> simp [h]

end Calls

section Runs

variable {calls : List TrackerCall} (hcalls : ∀ call ∈ calls, call.WellFormed)
include hcalls

theorem wellFormed_foldl {tracker : ChangeTracker} (ht : tracker.WellFormed) :
    (calls.foldl TrackerCall.apply tracker).WellFormed := by
  induction calls generalizing tracker with
  | nil => exact ht
  | cons call calls ih =>
    rw [List.forall_mem_cons] at hcalls
    exact ih hcalls.2 (hcalls.1.apply ht)

theorem wellFormed_after : (ChangeTracker.after calls).WellFormed := by
  have hempty : ChangeTracker.empty.WellFormed := nofun
  exact wellFormed_foldl hcalls hempty

/-- What is kept after any calls: the last of them decides. -/
theorem tracks_after : Tracks (ChangeTracker.after calls).previous (latestSnapshot? calls) := by
  rcases List.eq_nil_or_concat calls with rfl | ⟨before, call, rfl⟩
  · exact .given none
  · rw [List.concat_eq_append, List.forall_mem_append] at hcalls
    rw [List.concat_eq_append, ChangeTracker.after, List.foldl_append, latestSnapshot?,
      List.getLast?_concat]
    exact (hcalls.2 call List.mem_cons_self).tracks (wellFormed_after hcalls.1)

/-- After any calls, an observation reports a change if and only if a snapshot was given last and
these properties are not the same as it. -/
theorem observe_after_iff {current : Properties} (hc : (Value.object current).WellFormed) :
    ((ChangeTracker.after calls).observe current).1 = true ↔
      ∃ latest, latestSnapshot? calls = some latest ∧
        ¬ Value.Same (.object latest) (.object current) := by
  have hwf := wellFormed_after hcalls
  have htracks := tracks_after hcalls
  have hchange : ((ChangeTracker.after calls).observe current).1 = true ↔
      ∃ kept, (ChangeTracker.after calls).previous = some kept ∧
        ¬ Value.Same (.object kept) (.object current) := by
    rw [ChangeTracker.fst_observe_iff]
    refine exists_congr fun kept => and_congr_right fun hp => not_congr ?_
    exact Value.sameProperties_iff (hwf kept hp) hc
  rw [hchange]
  generalize (ChangeTracker.after calls).previous = kept at htracks
  generalize latestSnapshot? calls = latest at htracks
  cases htracks with
  | given => exact Iff.rfl
  | older h =>
    -- what is kept and what was given last are the same as the same properties
    have hboth : Value.Same (.object _) (.object current) ↔ _ := ⟨h.symm.trans, h.trans⟩
    simp [hboth]

end Runs

/-- Properties with a list and an object in them. -/
def firstSnapshot : Properties :=
  [("list", .array [.integer 1, .float 0.0]), ("owner", .object [("name", .string "a"), ("age", .null)])]

/-- The same properties in another order, with a zero of the other sign. -/
def laterSnapshot : Properties :=
  [("owner", .object [("age", .null), ("name", .string "a")]), ("list", .array [.integer 1, .float (-0.0)])]

/-- Properties with fewer names. -/
def otherSnapshot : Properties := [("list", .array [.integer 1, .float 0.0])]

/-- Both are observed, one after the other. -/
def twoObservations : List TrackerCall := [.observe firstSnapshot, .observe laterSnapshot]

/-- The first of the two snapshots is still kept; one more observation finds no change, or finds that
a name is gone. -/
theorem observe_after_iff_twoObservations :
    (∀ call ∈ twoObservations, call.WellFormed) ∧
    (ChangeTracker.after twoObservations).previous = some firstSnapshot ∧
    ((ChangeTracker.after twoObservations).observe laterSnapshot).1 = false ∧
    ((ChangeTracker.after twoObservations).observe otherSnapshot).1 = true := by
  have hfirst : (Value.object firstSnapshot).WellFormed := by
    simp [firstSnapshot, Value.WellFormed, Value.WellFormedEntries, Value.WellFormedItems]
  have hlater : (Value.object laterSnapshot).WellFormed := by
    simp [laterSnapshot, Value.WellFormed, Value.WellFormedEntries, Value.WellFormedItems]
  have hother : (Value.object otherSnapshot).WellFormed := by
    simp [otherSnapshot, Value.WellFormed, Value.WellFormedEntries, Value.WellFormedItems]
  have hcalls : ∀ call ∈ twoObservations, call.WellFormed := by
    simp [twoObservations, TrackerCall.WellFormed, TrackerCall.snapshot?, hfirst, hlater]
  have hself : Value.Same (.object laterSnapshot) (.object laterSnapshot) :=
    (Value.sameProperties_iff hlater hlater).1 (by decide)
  have hdiffers : ¬ Value.Same (.object laterSnapshot) (.object otherSnapshot) := by
    rw [← Value.sameProperties_iff hlater hother]
    decide
  refine ⟨hcalls, rfl, ?_, (observe_after_iff hcalls hother).2 ⟨_, rfl, hdiffers⟩⟩
  rw [← Bool.not_eq_true, observe_after_iff hcalls hlater]
  rintro ⟨latest, hlatest, hn⟩
  cases hlatest
  exact hn hself

end LiveNotes
