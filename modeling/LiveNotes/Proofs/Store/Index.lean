import LiveNotes.Proofs.Path.Parts
import LiveNotes.Proofs.Store.Documents

/-!
The list of all paths of a tree as an index of what stands in it.

* `Holds`: the places of a tree, which are its folders, its documents and the parts of their properties,
  with the values that stand there;
* `Addressable`: trees whose documents have properties that can be told apart in a path;
* `Addressable.nodup_paths`, `mem_paths_iff_holds`: each place is listed, once, and nothing else;
* `Addressable.get?_placeText`: a listed path leads to the value of its place.
-/

namespace LiveNotes

/-- The value of a document as a whole: all its properties. A folder has none. -/
def PropertyNode.value? : PropertyNode → Option Value
  | .folder _ => none
  | .document properties => some (.object properties)

namespace PropertyTree

variable {tree : PropertyTree} {way way' : List String} {node : PropertyNode} {path : String}
  {properties : Properties} {steps steps' : List PathStep} {value value' : Option Value}

/-! ### Places -/

/-- What stands at a place, told by a way through folders and steps inside a document: no value for a
folder, all properties for a document, and the part of them that the steps lead to. -/
inductive Holds (tree : PropertyTree) : List String → List PathStep → Option Value → Prop
  | folder {way : List String} {entries : List (String × PropertyNode)} :
      tree.nodeAt? way = some (.folder entries) → Holds tree way [] none
  | part {way : List String} {properties : Properties} {steps : List PathStep} {part : Value} :
      tree.nodeAt? way = some (.document properties) → (Value.object properties).PartAt steps part →
        Holds tree way steps (some part)

/-- The path of a place. -/
def placeText (way : List String) : List PathStep → String
  | [] => String.intercalate "/" way
  | step :: steps => String.intercalate "/" way ++ "/" ++ pathText (step :: steps)

/-- Every document of a tree has addressable properties. -/
def Addressable (tree : PropertyTree) : Prop :=
  ∀ way properties, tree.nodeAt? way = some (.document properties) →
    (Value.object properties).Addressable

/-- The paths that are listed are those of the places. -/
theorem mem_paths_iff_holds (hp : tree.Proper) :
    path ∈ tree.paths ↔ ∃ way steps value, tree.Holds way steps value ∧ path = placeText way steps := by
  rw [mem_paths_iff hp]
  constructor
  · rintro (⟨way, node, hn, rfl⟩ | ⟨_, properties, ⟨way, hn, rfl⟩, p, hm, rfl⟩)
    · cases node with
      | document properties => exact ⟨way, [], _, .part hn (.here _), rfl⟩
      | folder entries => exact ⟨way, [], none, .folder hn, rfl⟩
    · obtain ⟨⟨p, part⟩, hflat, rfl⟩ := List.mem_map.1 hm
      obtain ⟨steps, hne, hpart, rfl⟩ := Properties.mem_flatten_iff.1 hflat
      obtain ⟨step, steps, rfl⟩ := List.exists_cons_of_ne_nil hne
      exact ⟨way, step :: steps, _, .part hn hpart, rfl⟩
  · rintro ⟨way, steps, value, hh, rfl⟩
    cases hh with
    | folder hn => exact .inl ⟨way, _, hn, rfl⟩
    | @part properties _ part hn hpart =>
      cases steps with
      | nil => exact .inl ⟨way, _, hn, rfl⟩
      | cons step steps =>
        refine .inr ⟨_, properties, ⟨way, hn, rfl⟩, _, List.mem_map.2 ⟨(_, part), ?_, rfl⟩, rfl⟩
        exact Properties.mem_flatten_iff.2 ⟨_, List.cons_ne_nil _ _, hpart, rfl⟩

/-! ### Values of places -/

theorem valueAt?_of_nodeAt? (h : tree.nodeAt? way = some node) : tree.valueAt? way = node.value? := by
  induction way generalizing tree with
  | nil => cases h
  | cons name way ih =>
    cases way with
    | nil =>
      rw [nodeAt?] at h
      rw [valueAt?, h]
      cases node <;> rfl
    | cons next way =>
      obtain ⟨entries, he, hs⟩ := exists_of_nodeAt?_cons h
      rw [valueAt?, he]
      exact ih hs

theorem Proper.get?_intercalate (hp : tree.Proper) (h : tree.nodeAt? way = some node) :
    tree.get? (String.intercalate "/" way) = node.value? := by
  rw [get?, slashParts_intercalate_of_isName (hp.isName_of_nodeAt? h) (ne_nil_of_nodeAt? h),
    valueAt?_of_nodeAt? h]

/-- The path of a place leads to the value that stands there. -/
theorem Addressable.get?_placeText (ha : tree.Addressable) (hp : tree.Proper)
    (h : tree.Holds way steps value) : tree.get? (placeText way steps) = value := by
  cases h with
  | folder hn => exact hp.get?_intercalate hn
  | @part properties _ part hn hpart =>
    cases steps with
    | nil =>
      cases hpart
      exact hp.get?_intercalate hn
    | cons step steps =>
      -- the way ends at the document, so what comes behind its slash is left to the properties
      have hdocument : tree.HasDocument (String.intercalate "/" way) properties := ⟨way, hn, rfl⟩
      rw [placeText, hdocument.get?_append hp]
      exact (ha way properties hn).lookup? hpart (List.cons_ne_nil _ _)

/-! ### Different places have different paths -/

theorem Proper.slashParts_placeText (hp : tree.Proper) (h : tree.nodeAt? way = some node) :
    slashParts (placeText way steps) =
      way ++ match steps with
        | [] => []
        | step :: steps => slashParts (pathText (step :: steps)) := by
  have hway := hp.isName_of_nodeAt? h
  cases steps with
  | nil =>
    rw [placeText, slashParts_intercalate_of_isName hway (ne_nil_of_nodeAt? h), List.append_nil]
  | cons step steps =>
    rw [placeText, slashParts_append_slash,
      slashParts_intercalate_of_isName hway (ne_nil_of_nodeAt? h)]

theorem Holds.exists_node (h : tree.Holds way steps value) : ∃ node, tree.nodeAt? way = some node := by
  cases h with
  | folder hn => exact ⟨_, hn⟩
  | part hn _ => exact ⟨_, hn⟩

/-- A way that another one leads on from leads to a folder, so nothing is inside a document there. -/
theorem Holds.steps_eq_nil {rest : List String} (h : tree.Holds way steps value) (hrest : rest ≠ [])
    (hn : tree.nodeAt? (way ++ rest) = some node) : steps = [] := by
  cases h with
  | folder => rfl
  | part hd _ =>
    rw [nodeAt?_eq_nodeFrom? _ (List.append_ne_nil_of_right_ne_nil way hrest), nodeFrom?_append,
      ← nodeAt?_eq_nodeFrom? _ (ne_nil_of_nodeAt? hd), hd, nodeFrom?_document _ hrest] at hn
    cases hn

/-- Of two places with one path neither has the longer way: the shorter way would lead on, so its place
would be a folder, and the path of that ends where the way does. -/
theorem Holds.prefix_of_placeText_eq (hp : tree.Proper) (h : tree.Holds way steps value)
    (h' : tree.Holds way' steps' value') (he : placeText way steps = placeText way' steps') :
    way' <+: way := by
  obtain ⟨node, hn⟩ := h.exists_node
  obtain ⟨node', hn'⟩ := h'.exists_node
  have hparts : slashParts (placeText way steps) = slashParts (placeText way' steps') := by rw [he]
  rw [hp.slashParts_placeText hn, hp.slashParts_placeText hn'] at hparts
  -- both ways are starts of the names in the path, so one of them is a start of the other
  rcases List.prefix_or_prefix_of_prefix (List.prefix_append way _)
    (hparts ▸ List.prefix_append way' _) with hpre | hpre
  · obtain ⟨rest, rfl⟩ := hpre
    by_cases hrest : rest = []
    · simp [hrest]
    · rw [h.steps_eq_nil hrest hn'] at hparts
      simp only [List.append_nil, List.append_assoc] at hparts
      have hnil := List.self_eq_append_right.1 hparts
      exact absurd (List.append_eq_nil_iff.1 hnil).1 hrest
  · exact hpre

theorem placeText_nil_ne_cons (way : List String) (step : PathStep) (steps : List PathStep) :
    placeText way [] ≠ placeText way (step :: steps) := by
  intro he
  rw [placeText, placeText, String.append_assoc] at he
  have hempty := String.append_eq_left_iff.1 he.symm
  exact absurd (String.append_eq_empty_iff.1 hempty).1 (by decide)

/-- Different places of a tree have different paths. -/
theorem Addressable.eq_of_placeText_eq (ha : tree.Addressable) (hp : tree.Proper)
    (h : tree.Holds way steps value) (h' : tree.Holds way' steps' value')
    (he : placeText way steps = placeText way' steps') : way = way' ∧ steps = steps' := by
  have hpre := h.prefix_of_placeText_eq hp h' he
  have hpre' := h'.prefix_of_placeText_eq hp h he.symm
  obtain rfl : way = way' := hpre'.eq_of_length (le_antisymm hpre'.length_le hpre.length_le)
  refine ⟨rfl, ?_⟩
  cases steps with
  | nil =>
    cases steps' with
    | nil => rfl
    | cons step' steps' => exact absurd he (placeText_nil_ne_cons way step' steps')
  | cons step steps =>
    cases steps' with
    | nil => exact absurd he.symm (placeText_nil_ne_cons way step steps)
    | cons step' steps' =>
      rw [placeText, placeText, String.append_right_inj] at he
      cases h with
      | part hn hpart =>
        cases h' with
        | part hn' hpart' =>
          cases hn.symm.trans hn'
          have haddr := ha _ _ hn
          rw [← haddr.parsePath_pathText hpart, he, haddr.parsePath_pathText hpart']

/-! ### No path is listed twice -/

theorem intercalate_ne_empty (hway : ∀ name ∈ way, IsName name) (hne : way ≠ []) :
    String.intercalate "/" way ≠ "" := by
  intro he
  have hsegments := segments_intercalate hway hne
  rw [he] at hsegments
  exact hne (hsegments.symm.trans (by cbv))

theorem joinPath_intercalate (hway : ∀ name ∈ way, IsName name) (hother : way' ≠ []) :
    joinPath (String.intercalate "/" way) (String.intercalate "/" way') =
      String.intercalate "/" (way ++ way') := by
  rcases eq_or_ne way [] with rfl | hne
  · rfl
  · rw [joinPath, if_neg (by simpa using intercalate_ne_empty hway hne),
      String.intercalate_append_of_ne_nil hne hother]

/-- The paths of what stands at a place go through the names on the way to it. -/
theorem prefix_slashParts_of_mem_ownPaths (hway : ∀ name ∈ way, IsName name) (hne : way ≠ [])
    (h : path ∈ node.ownPaths (String.intercalate "/" way)) : way <+: slashParts path := by
  cases node with
  | folder entries => rw [List.mem_singleton.1 h, slashParts_intercalate_of_isName hway hne]
  | document properties =>
    rcases List.mem_cons.1 h with rfl | h
    · rw [slashParts_intercalate_of_isName hway hne]
    · obtain ⟨e, -, rfl⟩ := List.mem_map.1 h
      rw [slashParts_append_slash, slashParts_intercalate_of_isName hway hne]
      exact List.prefix_append _ _

theorem exists_prefix_of_mem_entryPaths (hp : tree.Proper) (hway : ∀ name ∈ way, IsName name)
    (h : path ∈ entryPaths (String.intercalate "/" way) tree) :
    ∃ name, way ++ [name] <+: slashParts path := by
  obtain ⟨way', node, hn, hpath⟩ := exists_of_mem_entryPaths hp h
  have hne := ne_nil_of_nodeAt? hn
  rw [joinPath_intercalate hway hne] at hpath
  have hprefix := prefix_slashParts_of_mem_ownPaths
    (List.forall_mem_append.2 ⟨hway, hp.isName_of_nodeAt? hn⟩)
    (List.append_ne_nil_of_right_ne_nil way hne) hpath
  obtain ⟨name, rest, rfl⟩ := List.exists_cons_of_ne_nil hne
  exact ⟨name, (List.append_cons way name rest ▸ List.prefix_append _ rest).trans hprefix⟩

theorem prefix_slashParts_of_mem_pathsAt (hp : node.Proper) (hway : ∀ name ∈ way, IsName name)
    (hne : way ≠ []) (h : path ∈ node.pathsAt (String.intercalate "/" way)) :
    way <+: slashParts path := by
  cases node with
  | document properties =>
    have hown : path ∈ (PropertyNode.document properties).ownPaths (String.intercalate "/" way) := h
    exact prefix_slashParts_of_mem_ownPaths hway hne hown
  | folder entries =>
    rcases List.mem_cons.1 h with rfl | h
    · rw [slashParts_intercalate_of_isName hway hne]
    · obtain ⟨name, hprefix⟩ := exists_prefix_of_mem_entryPaths hp hway h
      exact (List.prefix_append way [name]).trans hprefix

/-- The path of a document is none of those of its properties, and these differ where theirs inside the
document do. -/
theorem nodup_pathsIn (h : (Value.object properties).Addressable) (document : String) :
    (document :: properties.pathsIn document).Nodup := by
  have hmap : properties.pathsIn document =
      (properties.flatten.map (·.1)).map (document ++ "/" ++ ·) := by
    rw [Properties.pathsIn, List.map_map]
    rfl
  rw [hmap, List.nodup_cons]
  constructor
  · intro hm
    obtain ⟨p, -, he⟩ := List.mem_map.1 hm
    rw [String.append_assoc, String.append_eq_left_iff, String.append_eq_empty_iff] at he
    exact absurd he.1 (by decide)
  · exact h.nodup_flatten.map fun a b he => String.append_right_inj _ |>.1 he

theorem Addressable.of_get? {entries : List (String × PropertyNode)} {name : String}
    (ha : tree.Addressable) (h : Entries.get? tree name = some (.folder entries)) :
    Addressable entries := by
  intro way properties hn
  obtain ⟨next, way, rfl⟩ := List.exists_cons_of_ne_nil (ne_nil_of_nodeAt? hn)
  refine ha (name :: next :: way) properties ?_
  rw [nodeAt?_cons_cons, h]
  exact hn

/-- The paths of what a folder holds differ: those of different entries in the name of the entry, and those
of one entry by induction on its size. -/
theorem Addressable.nodup_entryPaths {tree : PropertyTree} {way : List String}
    (ha : tree.Addressable) (hp : tree.Proper) (hway : ∀ name ∈ way, IsName name) :
    (entryPaths (String.intercalate "/" way) tree).Nodup := by
  have hnames : ∀ e ∈ tree, ∀ name ∈ way ++ [e.1], IsName name := fun e he =>
    List.forall_mem_append.2 ⟨hway, List.forall_mem_singleton.2 ((properEntries_iff tree).1 hp.2 e he).1⟩
  have hpath : ∀ e : String × PropertyNode, joinPath (String.intercalate "/" way) e.1 =
      String.intercalate "/" (way ++ [e.1]) := fun e => by
    rw [← joinPath_intercalate hway (List.cons_ne_nil e.1 []), String.intercalate_singleton]
  rw [entryPaths_eq, List.nodup_flatMap]
  simp only [hpath]
  constructor
  · rintro ⟨name, node⟩ he
    have hget : Entries.get? tree name = some node := (Entries.get?_eq_some_iff hp.1).2 he
    cases node with
    | document properties => exact nodup_pathsIn (ha [name] properties hget) _
    | folder entries =>
      have hproper : PropertyTree.Proper entries := (hp.of_get? hget).2
      refine List.nodup_cons.2 ⟨?_, ?_⟩
      · intro hm
        obtain ⟨next, hprefix⟩ := exists_prefix_of_mem_entryPaths hproper (hnames _ he) hm
        rw [slashParts_intercalate_of_isName (hnames _ he) (by simp)] at hprefix
        exact not_append_prefix_self _ (List.cons_ne_nil next []) hprefix
      · have hlt : sizeOf entries < sizeOf tree := by
          have := List.sizeOf_lt_of_mem he
          simp only [Prod.mk.sizeOf_spec, PropertyNode.folder.sizeOf_spec] at this
          omega
        exact (ha.of_get? hget).nodup_entryPaths hproper (hnames _ he)
  · have hbelow : ∀ e ∈ tree, ∀ p ∈ e.2.pathsAt (String.intercalate "/" (way ++ [e.1])),
        way ++ [e.1] <+: slashParts p := fun e he p hm =>
      prefix_slashParts_of_mem_pathsAt ((properEntries_iff tree).1 hp.2 e he).2 (hnames e he) (by simp) hm
    refine (List.pairwise_map.1 hp.1).imp_of_mem ?_
    intro e e' he he' hne p hm hm'
    have hsame : way ++ [e.1] <+: way ++ [e'.1] :=
      List.prefix_of_prefix_length_le (hbelow e he p hm) (hbelow e' he' p hm') (by simp)
    exact hne (by simpa using hsame.eq_of_length (by simp))
termination_by sizeOf tree

/-- No path is listed twice. -/
theorem Addressable.nodup_paths (ha : tree.Addressable) (hp : tree.Proper) : tree.paths.Nodup := by
  have htop : (entryPaths (String.intercalate "/" []) tree).Nodup :=
    ha.nodup_entryPaths hp (List.forall_mem_nil _)
  exact htop

end PropertyTree

/-! ### The index of a source -/

namespace Source

open PropertyTree

variable {source : Source} {tree : PropertyTree} {paths : List String}

theorem addressable_of_mirrors
    (hm : tree.Mirrors (paths.map fun path => (segments path, source.indexed path)))
    (haddressable : ∀ path ∈ paths, ∀ properties, source.properties path = .ok properties →
      (Value.object properties).Addressable) : tree.Addressable := by
  intro way properties hn
  obtain ⟨path, hmem, he⟩ := List.mem_map.1 ((hm.document_iff way properties).1 hn)
  cases he
  cases hread : source.properties path with
  | error e =>
    rw [indexed, hread]
    exact Value.addressable_of_children_eq_nil rfl
  | ok properties =>
    rw [indexed, hread]
    exact haddressable path hmem properties hread

/-- Where no document lies on the way to another and all properties are addressable, the list of paths is
an index of the tree of a source: no path is in it twice, each place has its own, there are no others, and
each one leads to what stands at its place. The documents of the source are among these places. -/
theorem index_of_apart (hd : source.documents = .ok paths)
    (hne : ∀ path ∈ paths, segments path ≠ [])
    (hapart : paths.Pairwise fun a b => Apart (segments a) (segments b))
    (haddressable : ∀ path ∈ paths, ∀ properties, source.properties path = .ok properties →
      (Value.object properties).Addressable) :
    ∃ tree, source.tree = .ok tree ∧
      tree.paths.Nodup ∧
      (∀ path, path ∈ tree.paths ↔
        ∃ way steps value, tree.Holds way steps value ∧ path = placeText way steps) ∧
      (∀ way steps value way' steps' value', tree.Holds way steps value →
        tree.Holds way' steps' value' → placeText way steps = placeText way' steps' →
          way = way' ∧ steps = steps') ∧
      (∀ way steps value, tree.Holds way steps value → tree.get? (placeText way steps) = value) ∧
      ∀ path ∈ paths, tree.nodeAt? (segments path) = some (.document (source.indexed path)) := by
  obtain ⟨tree, ht, hp, hm⟩ := mirrors_of_apart hd hne hapart
  have ha := addressable_of_mirrors hm haddressable
  refine ⟨tree, ht, ha.nodup_paths hp, fun path => mem_paths_iff_holds hp, ?_, ?_, ?_⟩
  · intro way steps value way' steps' value' h h' he
    exact ha.eq_of_placeText_eq hp h h' he
  · intro way steps value h
    exact ha.get?_placeText hp h
  · intro path hmem
    exact (hm.document_iff _ _).2 (List.mem_map.2 ⟨path, hmem, rfl⟩)

/-- Properties with a list, an object in it, and a name that is a number. -/
def listProperties : Properties :=
  [("list", .array [.integer 1, .object [("k]", .null)]]), ("0", .string "s")]

/-- A document in a folder, and one that cannot be read. -/
def listVault : MemoryVault where
  documents := [("a/x.md", listProperties), ("b.md", [("", .null)])]
  unreadable := ["b.md"]
  unlisted := false

theorem addressable_listProperties : (Value.object listProperties).Addressable := by
  have hnull : Value.null.Addressable := Value.addressable_of_children_eq_nil rfl
  have hinteger : (Value.integer 1).Addressable := Value.addressable_of_children_eq_nil rfl
  have hstring : (Value.string "s").Addressable := Value.addressable_of_children_eq_nil rfl
  have hobject : (Value.object [("k]", .null)]).Addressable :=
    ⟨by decide, List.forall_mem_singleton.2 ⟨by decide, by decide, by decide⟩,
      List.forall_mem_singleton.2 hnull⟩
  have harray : (Value.array [.integer 1, .object [("k]", .null)]]).Addressable :=
    ⟨by decide, List.forall_mem_cons.2 ⟨(by decide : 0 < twoTo 64),
        List.forall_mem_singleton.2 (by decide : 1 < twoTo 64)⟩,
      List.forall_mem_cons.2 ⟨hinteger, List.forall_mem_singleton.2 hobject⟩⟩
  exact ⟨by decide, List.forall_mem_cons.2 ⟨⟨by decide, by decide, by decide⟩,
      List.forall_mem_singleton.2 ⟨by decide, by decide, by decide⟩⟩,
    List.forall_mem_cons.2 ⟨harray, List.forall_mem_singleton.2 hstring⟩⟩

theorem index_of_apart_listVault :
    ∃ paths, listVault.source.documents = .ok paths ∧ (∀ path ∈ paths, segments path ≠ []) ∧
      (paths.Pairwise fun a b => Apart (segments a) (segments b)) ∧
      (∀ path ∈ paths, ∀ properties, listVault.source.properties path = .ok properties →
        (Value.object properties).Addressable) ∧
      ∃ tree, listVault.source.tree = .ok tree ∧ tree.paths.Nodup ∧
        "a/x.md/list[1].k]" ∈ tree.paths ∧ tree.get? "a/x.md/list[1].k]" = some .null := by
  have hd : listVault.source.documents = .ok ["a/x.md", "b.md"] := rfl
  have hx : segments "a/x.md" = ["a", "x.md"] := by cbv
  have hb : segments "b.md" = ["b.md"] := by cbv
  have hne : ∀ path ∈ ["a/x.md", "b.md"], segments path ≠ [] := by simp [hx, hb]
  have hapart : ["a/x.md", "b.md"].Pairwise fun a b => Apart (segments a) (segments b) := by
    simp [hx, hb, Apart]
  have haddressable : ∀ path ∈ ["a/x.md", "b.md"], ∀ properties,
      listVault.source.properties path = .ok properties → (Value.object properties).Addressable := by
    have hread : listVault.source.properties "a/x.md" = .ok listProperties := by cbv
    have hspoilt : listVault.source.properties "b.md" = .error (.notFound "b.md") := by cbv
    refine List.forall_mem_cons.2 ⟨fun properties h => ?_, List.forall_mem_singleton.2 ?_⟩
    · cases hread.symm.trans h
      exact addressable_listProperties
    · intro properties h
      cases hspoilt.symm.trans h
  obtain ⟨tree, ht, hnodup, hpaths, -, hget, hdocuments⟩ := index_of_apart hd hne hapart haddressable
  have hnode := hdocuments "a/x.md" (by simp)
  rw [hx] at hnode
  have hpart : (Value.object listProperties).PartAt [.field "list", .index 1, .field "k]"] .null :=
    .child List.mem_cons_self
      (.child (List.mem_cons_of_mem _ List.mem_cons_self) (.child List.mem_cons_self (.here _)))
  have hholds : tree.Holds ["a", "x.md"] [.field "list", .index 1, .field "k]"] (some .null) :=
    .part hnode hpart
  have htext : "a/x.md/list[1].k]" =
      placeText ["a", "x.md"] [.field "list", .index 1, .field "k]"] := by decide
  refine ⟨_, hd, hne, hapart, haddressable, tree, ht, hnodup, ?_, ?_⟩
  · exact (hpaths _).2 ⟨_, _, _, hholds, htext⟩
  · rw [htext]
    exact hget _ _ _ hholds

end Source

end LiveNotes
