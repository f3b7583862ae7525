import NetIntent.Proofs.ContextReport

namespace NetIntent

/-!
# Names that are listed and names that are found

The names of the nodes of a level are listed by a scan of the keys under the parent; the node of one
name is looked up at its key. Both agree on the nodes that there are. But a lookup reads the value,
and a listing does not.

* `AppContext.findChild`, `listChildren` — the lookup and the listing, for all levels alike;
* `AppContext.run_findChild` — the lookup is told by what is stored at the key;
* `AppContext.Listed` — the names that are listed against the lookups of all names;
* `AppContext.lists_as_found` — a name is listed just if it is found, or its value cannot be read.
-/

open Op

namespace AppContext

/-- The handle of a named node of a level under a parent. -/
def findChild (c : AppContext) (parent : Op Handle) (level name : String) : Op Handle := do
  Op.of (validateName level name)
  let parent ← parent
  c.existing (parent.child level name) level

/-- The names of the nodes of a level under a parent. -/
def listChildren (c : AppContext) (parent : Op Handle) (level : String) : Op (List String) := do
  let parent ← parent
  c.childNames parent level

section Levels

variable (c : AppContext) (app cluster : String)

/-- An app is found as a child of the root. -/
theorem getAppHandle_eq : c.getAppHandle = c.findChild c.root "app" := rfl

/-- The apps are listed as children of the root. -/
theorem getAppNames_eq : c.getAppNames = c.listChildren c.root "app" := rfl

/-- A cluster is found as a child of its app. -/
theorem getClusterHandle_eq :
    c.getClusterHandle app = c.findChild (c.getAppHandle app) "cluster" := rfl

/-- The clusters of an app are listed as its children. -/
theorem getClusterNames_eq :
    c.getClusterNames app = c.listChildren (c.getAppHandle app) "cluster" := rfl

/-- A resource is found as a child of its cluster. -/
theorem getResourceHandle_eq :
    c.getResourceHandle app cluster = c.findChild (c.getClusterHandle app cluster) "resource" := rfl

/-- The resources of a cluster are listed as its children. -/
theorem getResourceNames_eq :
    c.getResourceNames app cluster
      = c.listChildren (c.getClusterHandle app cluster) "resource" := rfl

end Levels

/-! ### Lookups under a parent that is found -/

/-- There is a node of a name under a parent if the name is valid and its key is stored. -/
theorem hasNode_child_iff {s : ContextStore} {p : Handle} {level name : String} (hp : p.Canonical)
    (hend : ¬ p.EndsBare) (hlevel : level ∈ namedLevels) :
    s.HasNode (p.child level name) ↔
      validateName level name = .ok () ∧ ∃ cell, s.get? (p.child level name).key = some cell := by
  rw [ContextStore.hasNode_iff, OrderedMap.mem_keys_iff, and_comm]
  refine and_congr_left fun _ => ⟨fun hchild => ?_, fun hname => ?_⟩
  · have hsound := hchild.sound (.level level name) (by simp [Handle.child, Handle.push])
    exact Handle.validateName_eq_ok_iff.2 hsound.2
  · exact (hp.child hend (Handle.sound_of_validateName hlevel hname)).1

/-- What comes of a lookup. -/
inductive Sought (w : World) (child : Handle) (out : Except Failure Handle × World) : Prop where
  | found (v : Json) (cell : w.contexts.get? child.key = some (.value v))
      (node : w.contexts.HasNode child) (run : out = (.ok child, w))
  /-- There is a node, but its value cannot be read. -/
  | spoiled (cell : w.contexts.get? child.key = some .unreadable)
      (node : w.contexts.HasNode child) (run : out = (.error (malformed child.key), w))
  /-- There is no node, or the name cannot be one. -/
  | missing (node : ¬ w.contexts.HasNode child) (e : Failure) (run : out = (.error e, w))

/-- A lookup under a parent that is found has one of three outcomes. -/
theorem findChild_sought {w : World} {id level : String} {parent : Op Handle} {p : Handle}
    (hw : w.Undisturbed) (hrun : parent.run w = (.ok p, w)) (hid : p.contextId = id)
    (hp : p.Canonical) (hend : ¬ p.EndsBare) (hlevel : level ∈ namedLevels) (name : String) :
    Sought w (p.child level name) (((ofId id).findChild parent level name).run w) := by
  have hnode : w.contexts.HasNode (p.child level name) ↔ _ := hasNode_child_iff hp hend hlevel
  -- Once the name is accepted, the lookup comes down to that of the node.
  have hlookup : ∀ u, validateName level name = .ok u →
      ((ofId id).findChild parent level name).run w
        = ((ofId id).existing (p.child level name) level).run w := by
    intro u hname
    unfold findChild
    rw [hname, of_ok_bind, run_bind_ok hrun]
  cases hname : validateName level name with
  | error e =>
    -- A name that is refused is the name of no node.
    refine .missing (fun hmem => ?_) e (by rw [findChild, hname]; rfl)
    rw [hname] at hnode
    cases (hnode.1 hmem).1
  | ok u =>
    rw [hlookup u hname, run_existing_eq (h := p.child level name) hw hid]
    cases hcell : w.contexts.get? (p.child level name).key with
    | none =>
      refine .missing (fun hmem => ?_) _ rfl
      obtain ⟨-, cell, hstored⟩ := hnode.1 hmem
      rw [hcell] at hstored
      cases hstored
    | some cell =>
      have hmem := hnode.2 ⟨hname, cell, hcell⟩
      cases cell with
      | value v => exact .found v hcell hmem rfl
      | unreadable => exact .spoiled hcell hmem rfl

/-- Nothing is found under a parent that is not found. -/
theorem run_findChild_of_error {w : World} {parent : Op Handle} {e : Failure} (c : AppContext)
    (hrun : parent.run w = (.error e, w)) (level name : String) :
    ∃ e', (c.findChild parent level name).run w = (.error e', w) := by
  unfold findChild
  cases validateName level name with
  | error e' => exact ⟨e', rfl⟩
  | ok u => exact ⟨e, by rw [of_ok_bind, run_bind_error hrun]⟩

/-- The names that are listed under a parent are those of its nodes of the level, each once; and a
    lookup succeeds just if the name is among them and the value of the node can be read. -/
structure Listed (w : World) (parent : Handle) (level : String) (names : List String)
    (lookup : String → Op Handle) : Prop where
  nodup : names.Nodup
  mem_iff : ∀ name, name ∈ names ↔ w.contexts.HasNode (parent.child level name)
  succeeds_iff : ∀ name, (∃ h, (lookup name).run w = (.ok h, w)) ↔
    name ∈ names ∧ w.contexts.get? (parent.child level name).key ≠ some .unreadable
  /-- A lookup that succeeds answers the handle of the node. -/
  found : ∀ name h, (lookup name).run w = (.ok h, w) → h = parent.child level name
  /-- The lookup of a listed name fails if the value cannot be read, and says so. -/
  spoiled : ∀ name ∈ names, w.contexts.get? (parent.child level name).key = some .unreadable →
    (lookup name).run w = (.error (malformed (parent.child level name).key), w)

/-- Under a parent that is found, names are listed as they are found. -/
theorem exists_listed {w : World} {id level : String} {parent : Op Handle} {p : Handle}
    (hw : w.Undisturbed) (hs : w.contexts.LegibleIn id) (hrun : parent.run w = (.ok p, w))
    (hid : p.contextId = id) (hp : p.Canonical) (hend : ¬ p.EndsBare)
    (hlevel : level ∈ namedLevels) :
    ∃ names, ((ofId id).listChildren parent level).run w = (.ok names, w) ∧
      Listed w p level names ((ofId id).findChild parent level) := by
  subst hid
  obtain ⟨handles, hsub⟩ := hs.exists_subtree hp hend
  obtain ⟨names, hnames, hnodup, hmem⟩ := run_childNames hw rfl hsub level
  have hsought := findChild_sought hw hrun rfl hp hend hlevel
  refine ⟨names, (run_bind_ok hrun).trans hnames, hnodup, hmem, ?_, ?_, ?_⟩
  -- A name is found just if its node can be read.
  · intro name
    rw [hmem]
    rcases hsought name with ⟨v, hcell, hnode, hout⟩ | ⟨hcell, -, hout⟩ | ⟨hnode, e, hout⟩
    · exact iff_of_true ⟨_, hout⟩ ⟨hnode, by simp [hcell]⟩
    · refine iff_of_false ?_ fun hreadable => hreadable.2 hcell
      simp [hout]
    · refine iff_of_false ?_ fun hreadable => hnode hreadable.1
      simp [hout]
  -- What is found is the handle of the node.
  · intro name h hfound
    rcases hsought name with ⟨v, -, -, hout⟩ | ⟨-, -, hout⟩ | ⟨-, e, hout⟩
    · rw [hout] at hfound
      cases hfound
      rfl
    all_goals
      rw [hout] at hfound
      cases hfound
  -- A listed node that cannot be read fails as such.
  · intro name hname hspoiled
    rcases hsought name with ⟨v, hcell, -, -⟩ | ⟨-, -, hout⟩ | ⟨hnode, -, -⟩
    · rw [hspoiled] at hcell
      cases hcell
    · exact hout
    · exact absurd ((hmem name).1 hname) hnode

/-! ### All levels -/

/-- Where the parent is found, names are listed as they are found under it; and where it is not, the
    listing and all lookups fail. -/
def ListsAsFound (w : World) (parent : Op Handle) (level : String) (list : Op (List String))
    (lookup : String → Op Handle) : Prop :=
  (∀ p, (parent.run w).1 = .ok p →
    ∃ names, list.run w = (.ok names, w) ∧ Listed w p level names lookup) ∧
  ∀ e, (parent.run w).1 = .error e →
    list.run w = (.error e, w) ∧ ∀ name, ∃ e', (lookup name).run w = (.error e', w)

/-- The operation changes nothing, and what it finds is a canonical handle of the context that does
    not end in a bare leaf. -/
def FindsParent (w : World) (id : String) (op : Op Handle) : Prop :=
  op.Ensures w fun r w' =>
    w' = w ∧ ∀ p, r = .ok p → p.contextId = id ∧ p.Canonical ∧ ¬ p.EndsBare

section Levels

variable {w : World} {id level : String} {parent : Op Handle} (hw : w.Undisturbed)
include hw

/-- The root is a parent under which things are looked for. -/
theorem root_findsParent (hid : RunContext.isValidId id = true) :
    FindsParent w id (ofId id).root := by
  have hsteady := (RunContext.root_looks (RunContext.seenAlike_eq ⟨some id⟩)).steady
  refine (hsteady.ensures (RunContext.root_reads id) hw).mono fun r w' hout => ⟨hout.1, ?_⟩
  intro p hp
  obtain ⟨rfl, -⟩ := hout.2 p hp
  exact ⟨rfl, Handle.canonical_root hid, Handle.not_endsBare_root id⟩

/-- What is found under such a handle is one. -/
theorem FindsParent.findChild (h : FindsParent w id parent) (hlevel : level ∈ namedLevels)
    (name : String) : FindsParent w id ((ofId id).findChild parent level name) := by
  unfold FindsParent Ensures at h ⊢
  rcases hrun : parent.run w with ⟨r, w'⟩
  rw [hrun] at h
  obtain ⟨rfl, hparent⟩ := h
  cases r with
  | error e =>
    obtain ⟨e', hout⟩ := run_findChild_of_error (ofId id) hrun level name
    rw [hout]
    exact ⟨rfl, fun _ hp => by cases hp⟩
  | ok p =>
    -- What is found beneath the parent can be a parent in turn.
    obtain ⟨hid, hp, hend⟩ := hparent p rfl
    rcases findChild_sought hw hrun hid hp hend hlevel name with
      ⟨v, -, hnode, hout⟩ | ⟨-, -, hout⟩ | ⟨-, e, hout⟩
    · rw [hout]
      refine ⟨rfl, fun child hchild => ?_⟩
      obtain rfl := Except.ok.inj hchild
      have hcanonical := (ContextStore.hasNode_iff.1 hnode).2
      exact ⟨hid, hcanonical, by simp [Handle.child, Handle.not_endsBare_push, Segment.IsBare]⟩
    all_goals
      rw [hout]
      exact ⟨rfl, fun _ hp => by cases hp⟩

/-- Under such a parent the children are listed as they are found. -/
theorem FindsParent.listsAsFound (h : FindsParent w id parent) (hs : w.contexts.LegibleIn id)
    (hlevel : level ∈ namedLevels) :
    ListsAsFound w parent level ((ofId id).listChildren parent level)
      ((ofId id).findChild parent level) := by
  constructor
  · intro p hp
    obtain ⟨hid, hcanonical, hend⟩ := h.2 p hp
    exact exists_listed hw hs (Prod.ext hp h.1) hid hcanonical hend hlevel
  · intro e he
    have hrun : parent.run w = (.error e, w) := Prod.ext he h.1
    exact ⟨run_bind_error hrun, run_findChild_of_error (ofId id) hrun level⟩

/-- **Names are listed as they are found, except for values that cannot be read.** Let the keys of a
    context be legible. The names of the apps, of the clusters of an app, and of the resources of a
    cluster are those of the nodes of that level right under the parent, each once; so neither
    leaves nor instructions nor deeper nodes appear among them. A name is found just if it is listed
    and the value of its node can be read; where it cannot, the lookup reports that. If the parent
    is not found, nothing is listed and nothing is found. -/
theorem lists_as_found (hid : RunContext.isValidId id = true) (hs : w.contexts.LegibleIn id) :
    ListsAsFound w (ofId id).root "app" (ofId id).getAppNames (ofId id).getAppHandle ∧
    (∀ app, ListsAsFound w ((ofId id).getAppHandle app) "cluster"
      ((ofId id).getClusterNames app) ((ofId id).getClusterHandle app)) ∧
    ∀ app cluster, ListsAsFound w ((ofId id).getClusterHandle app cluster) "resource"
      ((ofId id).getResourceNames app cluster) ((ofId id).getResourceHandle app cluster) := by
  have hroot := root_findsParent hw hid
  have happ : ∀ app, FindsParent w id ((ofId id).getAppHandle app) := by
    rw [getAppHandle_eq]
    exact hroot.findChild hw (by decide)
  have hcluster : ∀ app cluster, FindsParent w id ((ofId id).getClusterHandle app cluster) := by
    intro app
    rw [getClusterHandle_eq]
    exact (happ app).findChild hw (by decide)
  refine ⟨?_, fun app => ?_, fun app cluster => ?_⟩
  · rw [getAppNames_eq, getAppHandle_eq]
    exact hroot.listsAsFound hw hs (by decide)
  · rw [getClusterNames_eq, getClusterHandle_eq]
    exact (happ app).listsAsFound hw hs (by decide)
  · rw [getResourceNames_eq, getResourceHandle_eq]
    exact (hcluster app cluster).listsAsFound hw hs (by decide)

end Levels

/-- Two apps whose names begin alike are listed, and nothing beneath them. -/
theorem lists_as_found_siblings :
    ListsAsFound World.siblings (ofId "1").root "app" (ofId "1").getAppNames
      (ofId "1").getAppHandle ∧
    ((ofId "1").getAppNames.run World.siblings).1 = .ok ["net1", "net10"] := by
  have hid : RunContext.isValidId "1" = true := by decide
  have hlists := lists_as_found World.siblings_undisturbed hid
    (World.siblings_legible.legibleIn "1")
  exact ⟨hlists.1, by decide +kernel⟩

end AppContext

/-- A context with an app whose text is no JSON. -/
def World.garbled : World where
  contexts := OrderedMap.ofList
    [("/context/1/", .value (.string "1")), ("/context/1/app/net/", .ofText "not json")]
  contextId n := toString n

/-- The app is listed, and it is not found. -/
theorem AppContext.listed_not_found_garbled :
    World.garbled.Undisturbed ∧ World.garbled.contexts.LegibleIn "1" ∧
    ((fromId "1").run World.garbled).1 = .ok (ofId "1") ∧
    ((ofId "1").getAppNames.run World.garbled).1 = .ok ["net"] ∧
    (((ofId "1").getAppHandle "net").run World.garbled).1
      = .error (malformed "/context/1/app/net/") := by
  have hlegible : World.garbled.contexts.Legible := by decide +kernel
  exact ⟨⟨rfl, rfl, rfl⟩, hlegible.legibleIn "1", by decide +kernel, by decide +kernel,
    by decide +kernel⟩

end NetIntent
