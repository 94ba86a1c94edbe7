import LiveNotes.Proofs.Query.RoundTrip
import LiveNotes.Proofs.Store.Documents
import LiveNotes.Query.Eval

/-!
What the value of a query depends on: of all the documents of a vault, those that its references name.

* `Query.documents`: the documents that a query names;
* `Query.value?_congr`: trees with the same documents under these names give the same value;
* `Query.value?_of_documents`: so whatever else comes, goes or changes in a source changes no value, unless
  it takes the place of a document that is named;
* `Query.value?_ne_of_insert`: which a document behind it does.
-/

namespace LiveNotes

variable {context : Context} {tree : PropertyTree} {references : List String}

/-! ### References -/

/-- A reference sees nothing of a tree but the document that it names. -/
theorem resolve?_congr {reference : String}
    (h : tree.document? (splitReference context.document reference).1 =
      context.tree.document? (splitReference context.document reference).1) :
    resolve? { context with tree := tree } reference = resolve? context reference := by
  rw [resolve?, resolve?]
  simp only [h]

section References

variable (h : ∀ reference ∈ references,
  resolve? { context with tree := tree } reference = resolve? context reference)

include h

theorem getValue?_congr :
    getValue? { context with tree := tree } references = getValue? context references := by
  rcases references with _ | ⟨reference, _ | ⟨second, rest⟩⟩
  · rfl
  · rw [getValue?, getValue?, h reference List.mem_cons_self]
  · rfl

theorem sumValue_congr :
    sumValue { context with tree := tree } references = sumValue context references := by
  rw [sumValue, sumValue, List.map_congr_left h]

theorem resolveAll?_congr :
    resolveAll? { context with tree := tree } references = resolveAll? context references := by
  rw [resolveAll?, resolveAll?]
  induction references with
  | nil => rfl
  | cons reference references ih =>
    rw [List.forall_mem_cons] at h
    rw [List.mapM_cons, List.mapM_cons, h.1, ih h.2]

theorem runValue?_congr (code : String) :
    runValue? { context with tree := tree } code references = runValue? context code references := by
  rw [runValue?, runValue?, resolveAll?_congr h]

end References

theorem codeBlockValue?_congr {arguments : List String}
    (h : ∀ reference ∈ arguments.drop 2,
      resolve? { context with tree := tree } reference = resolve? context reference) :
    codeBlockValue? { context with tree := tree } arguments = codeBlockValue? context arguments := by
  rcases arguments with _ | ⟨code, _ | ⟨language, references⟩⟩
  · rfl
  · rfl
  · rw [List.drop_succ_cons, List.drop_succ_cons, List.drop_zero] at h
    rw [codeBlockValue?, codeBlockValue?, resolveAll?_congr h]

/-! ### Queries -/

namespace Query

variable {query : Query}

/-- The documents that the references of a query name; `current` is the one that it stands in. -/
def documents (query : Query) (current : String) : List String :=
  query.references.map fun reference => (splitReference current reference).1

/-- A query sees nothing of a tree but the documents that it names. -/
theorem value?_congr (h : ∀ document ∈ query.documents context.document,
      tree.document? document = context.tree.document? document) :
    query.value? { context with tree := tree } = query.value? context := by
  have hresolve : ∀ reference ∈ query.references,
      resolve? { context with tree := tree } reference = resolve? context reference :=
    fun reference hm => resolve?_congr (h _ (List.mem_map.2 ⟨reference, hm, rfl⟩))
  obtain ⟨function, arguments⟩ := query
  rw [value?, value?]
  cases function with
  | get => exact getValue?_congr hresolve
  | sum => exact congrArg some (sumValue_congr hresolve)
  | concat => rfl
  | codeBlock => exact codeBlockValue?_congr hresolve
  | jsFunc =>
    cases arguments with
    | nil => rfl
    | cons code references => exact runValue?_congr hresolve code
  | custom name =>
    dsimp only
    cases context.functions.find? (·.name == name) with
    | none => rfl
    | some f => exact runValue?_congr hresolve f.code

/-- A query depends only on the documents that it names. Two trees with the same documents under these
names give the same value. And so do two sources that list the same document as the last one on the way to
each name, at it or behind it, with the same properties if it is the one of that name: which other documents
they have, and what is in them, does not matter. -/
theorem value?_of_documents (query : Query) (context : Context) :
    (∀ tree : PropertyTree,
      (∀ document ∈ query.documents context.document,
        tree.document? document = context.tree.document? document) →
      query.value? { context with tree := tree } = query.value? context) ∧
    (∀ (source source' : Source) (paths paths' : List String),
      source.documents = .ok paths → source'.documents = .ok paths' →
      (∀ document ∈ query.documents context.document,
        PropertyTree.decisive? paths document = PropertyTree.decisive? paths' document ∧
        ∀ listed ∈ PropertyTree.decisive? paths document, segments listed = segments document →
          source.indexed listed = source'.indexed listed) →
      ∃ tree tree', source.tree = .ok tree ∧ source'.tree = .ok tree' ∧
        query.value? { context with tree := tree } = query.value? { context with tree := tree' }) := by
  refine ⟨fun tree h => value?_congr h, ?_⟩
  intro source source' paths paths' hd hd' h
  obtain ⟨tree, ht⟩ : ∃ tree, source.tree = .ok tree := ⟨_, Source.tree_of_documents hd⟩
  obtain ⟨tree', ht'⟩ : ∃ tree, source'.tree = .ok tree := ⟨_, Source.tree_of_documents hd'⟩
  refine ⟨tree, tree', ht, ht', ?_⟩
  have hdocument : ∀ document ∈ query.documents context.document,
      tree.document? document = tree'.document? document := by
    intro document hm
    obtain ⟨hdecisive, hindexed⟩ := h document hm
    rw [Source.document?_of_tree hd ht, Source.document?_of_tree hd' ht', ← hdecisive]
    refine Option.bind_congr fun listed hlisted => ?_
    by_cases hs : segments listed = segments document
    · rw [if_pos hs, if_pos hs, hindexed listed hlisted hs]
    · rw [if_neg hs, if_neg hs]
  exact @value?_congr { context with tree := tree' } tree query hdocument

/-- A query about the document that it stands in and one in a folder. -/
def rentQuery : Query := ⟨.sum, ["rent", "bills/march.md/total"]⟩

/-- A tree with the first of these documents. -/
def homeTree : PropertyTree := [("home.md", .document [("rent", .integer 900)])]

/-- The documents of the query, and two others. -/
def billVault : MemoryVault where
  documents := [("home.md", [("rent", .integer 900)]), ("b.md", []),
    ("bills/march.md", [("total", .integer 40)]), ("bills/may.md", [])]
  unreadable := []
  unlisted := false

/-- The vault with one of the others changed, the other one taken out, and a new one. -/
def laterVault : MemoryVault :=
  ((billVault.insert "b.md" [("rent", .integer 1)]).remove "bills/may.md").insert "bills/june.md" []

theorem value?_of_documents_laterVault :
    ((∀ document ∈ rentQuery.documents "home.md",
        (homeTree.insert "b.md" []).document? document = homeTree.document? document) ∧
      rentQuery.value? ⟨"home.md", homeTree.insert "b.md" [], [], 0⟩ =
        rentQuery.value? ⟨"home.md", homeTree, [], 0⟩) ∧
    ∃ paths paths', billVault.source.documents = .ok paths ∧ laterVault.source.documents = .ok paths' ∧
      (∀ document ∈ rentQuery.documents "home.md",
        PropertyTree.decisive? paths document = PropertyTree.decisive? paths' document ∧
        ∀ listed ∈ PropertyTree.decisive? paths document, segments listed = segments document →
          billVault.source.indexed listed = laterVault.source.indexed listed) ∧
      ∃ tree tree', billVault.source.tree = .ok tree ∧ laterVault.source.tree = .ok tree' ∧
        rentQuery.value? ⟨"home.md", tree, [], 0⟩ = rentQuery.value? ⟨"home.md", tree', [], 0⟩ := by
  have hd : billVault.source.documents = .ok ["home.md", "b.md", "bills/march.md", "bills/may.md"] := by
    cbv
  have hd' : laterVault.source.documents =
      .ok ["home.md", "b.md", "bills/march.md", "bills/june.md"] := by cbv
  have hnames : rentQuery.documents "home.md" = ["home.md", "bills/march.md"] := by cbv
  have hhome : segments "home.md" = ["home.md"] := by cbv
  have hb : segments "b.md" = ["b.md"] := by cbv
  have hmarch : segments "bills/march.md" = ["bills", "march.md"] := by cbv
  have hmay : segments "bills/may.md" = ["bills", "may.md"] := by cbv
  have hjune : segments "bills/june.md" = ["bills", "june.md"] := by cbv
  have hdecisive : ∀ document ∈ rentQuery.documents "home.md",
      PropertyTree.decisive? ["home.md", "b.md", "bills/march.md", "bills/may.md"] document =
        PropertyTree.decisive? ["home.md", "b.md", "bills/march.md", "bills/june.md"] document ∧
      ∀ listed ∈ PropertyTree.decisive? ["home.md", "b.md", "bills/march.md", "bills/may.md"] document,
        segments listed = segments document →
          billVault.source.indexed listed = laterVault.source.indexed listed := by
    have hsame : billVault.source.indexed "home.md" = laterVault.source.indexed "home.md" := by cbv
    have hsame' : billVault.source.indexed "bills/march.md" =
        laterVault.source.indexed "bills/march.md" := by cbv
    rw [hnames, List.forall_mem_cons, List.forall_mem_singleton]
    simp [PropertyTree.decisive?, PropertyTree.Meets, hhome, hb, hmarch, hmay, hjune, hsame, hsame']
  have hdocument : ∀ document ∈ rentQuery.documents "home.md",
      (homeTree.insert "b.md" []).document? document = homeTree.document? document := by
    rw [hnames, List.forall_mem_cons, List.forall_mem_singleton]
    constructor
    · cbv
    · cbv
  obtain ⟨htrees, hsources⟩ := value?_of_documents rentQuery ⟨"home.md", homeTree, [], 0⟩
  exact ⟨⟨hdocument, htrees _ hdocument⟩, _, _, hd, hd', hdecisive, hsources _ _ _ _ hd hd' hdecisive⟩

/-- The document of a query, without anything on the way to it or behind it. -/
def plainVault : MemoryVault := ⟨[("a.md", [("x", .integer 1)])], [], false⟩

/-- A document that is put behind one that a query names takes its place, and changes the value. -/
theorem value?_ne_of_insert :
    parseQuery [] "get(a.md/x)" = .ok ⟨.get, ["a.md/x"]⟩ ∧
    "a.md/c.md" ∉ "n.md" :: documents ⟨.get, ["a.md/x"]⟩ "n.md" ∧
    ∃ tree tree', plainVault.source.tree = .ok tree ∧
      (plainVault.insert "a.md/c.md" []).source.tree = .ok tree' ∧
      value? ⟨.get, ["a.md/x"]⟩ ⟨"n.md", tree, [], 0⟩ ≠ value? ⟨.get, ["a.md/x"]⟩ ⟨"n.md", tree', [], 0⟩ := by
  have hparse : parseQuery [] "get(a.md/x)" = .ok ⟨.get, ["a.md/x"]⟩ :=
    parseQuery_eq_ok_iff.2
      ⟨"get".toList, "a.md/x".toList, .get, ["a.md/x"], by cbv, by cbv, by cbv, rfl⟩
  have htree : plainVault.source.tree = .ok [("a.md", .document [("x", .integer 1)])] := by cbv
  have htree' : (plainVault.insert "a.md/c.md" []).source.tree =
      .ok [("a.md", .folder [("c.md", .document [])])] := by cbv
  have hdocuments : documents ⟨.get, ["a.md/x"]⟩ "n.md" = ["a.md"] := by cbv
  refine ⟨hparse, by simp [hdocuments], _, _, htree, htree', ?_⟩
  have hvalue : value? ⟨.get, ["a.md/x"]⟩ ⟨"n.md", [("a.md", .document [("x", .integer 1)])], [], 0⟩ =
      some (.integer 1) := by cbv
  have hvalue' : value? ⟨.get, ["a.md/x"]⟩ ⟨"n.md", [("a.md", .folder [("c.md", .document [])])], [], 0⟩ =
      some (.string "") := by cbv
  rw [hvalue, hvalue']
  simp

end Query

end LiveNotes
