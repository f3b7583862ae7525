import NetIntent.Proofs.AppContext

namespace NetIntent

/-!
# The context of a cluster, node by node

* `contextNodes` — the nodes of the context of a cluster, in the order in which they are stored;
* `buildContext_puts` — building a context stores these nodes, up to its failure;
* `ContextStore.Holds` — a context consists of given nodes and nothing else;
* `ContextStore.Vacant.holds_built` — a context that was built under a fresh id consists of its
  nodes;
* `ContextStore.builtUpTo_eq_or_rooted` — what there is of a context that was built in part has a
  root.
-/

open Op Deployment

/-- The handle of the cluster in a context. -/
def clusterHandle (id cluster : String) : Handle :=
  ((Handle.root id).child "app" networkApp).child "cluster" cluster

/-- The nodes of a context above its resources. -/
def upperNodes (id cluster : String) : List (Handle × Json) :=
  [(Handle.root id, .string id),
    ((Handle.root id).leaf "status", ContextStatus.instantiating.document),
    ((Handle.root id).child "app" networkApp, .string networkApp),
    ((Handle.root id).instruction "app" "order", .string appOrder),
    ((Handle.root id).instruction "app" "dependency", .string appDependency),
    (clusterHandle id cluster, .string cluster)]

/-- The nodes of resources. -/
def resourceNodes (id cluster : String) (resources : List Rendered) : List (Handle × Json) :=
  resources.map fun r => ((clusterHandle id cluster).child "resource" r.name, .string r.text)

/-- The instructions for resources. -/
def resourceInstructions (id cluster : String) (resources : List Rendered) :
    List (Handle × Json) :=
  [((clusterHandle id cluster).instruction "resource" "order", .string (resourceOrder resources)),
    ((clusterHandle id cluster).instruction "resource" "dependency",
      .string (resourceDependency resources))]

/-- The nodes of the context of a cluster, in the order in which they are stored. -/
def contextNodes (id cluster : String) (resources : List Rendered) : List (Handle × Json) :=
  upperNodes id cluster ++ resourceNodes id cluster resources
    ++ resourceInstructions id cluster resources

/-- The store after the context of a cluster was built. It is not unfolded, so that stores are never
    compared node by node. -/
@[irreducible] def ContextStore.built (s : ContextStore) (id cluster : String)
    (resources : List Rendered) : ContextStore :=
  s.withNodes (contextNodes id cluster resources)

/-- The store after the context of a cluster was built up to some node. -/
@[irreducible] def ContextStore.builtUpTo (s : ContextStore) (id cluster : String)
    (resources : List Rendered) (n : Nat) : ContextStore :=
  s.withNodes ((contextNodes id cluster resources).take n)

/-! ### Building -/

/-- A node is stored and is the result. -/
theorem storeNode_puts (h : Handle) (value : Json) :
    (putNode h.key value >>= fun _ => pure h : Op Handle).Puts [(h, value)] h True :=
  ((putNode_puts h value).bind (puts_pure h)).mono fun _ => trivial

namespace RunContext

variable (c : RunContext) (h : Handle)

/-- A named node of a level holds its name, which was checked. -/
theorem addLevel_puts (level name : String) :
    (c.addLevel h level name).Puts [(h.child level name, .string name)] (h.child level name)
      (validateName level name = .ok ()) := by
  unfold addLevel
  simp only [throw_bind]
  exact (of_bind_puts (guard_puts _ _ (of_bind_puts (storeNode_puts _ _)))).mono
    fun hchecks => hchecks.2.2.1

/-- A node of one word holds its value. -/
theorem addOneLevel_puts (word : String) (value : Json) :
    (c.addOneLevel h word value).Puts [(h.leaf word, value)] (h.leaf word) True := by
  unfold addOneLevel
  simp only [throw_bind]
  exact (of_bind_puts (of_bind_puts (guard_puts _ _ (guard_puts _ _ (storeNode_puts _ _))))).mono
    fun _ => trivial

/-- A resource holds its value, and its name was checked. -/
theorem addResource_puts (name : String) (value : Json) :
    (c.addResource h name value).Puts [(h.child "resource" name, value)] (h.child "resource" name)
      (validateName "resource" name = .ok ()) := by
  unfold addResource
  simp only [throw_bind]
  exact (of_bind_puts (of_bind_puts (guard_puts _ _ (storeNode_puts _ _)))).mono
    fun hchecks => hchecks.2.1

/-- An instruction holds its value. -/
theorem addInstruction_puts (level kind : String) (value : Json) :
    (c.addInstruction h level kind value).Puts [(h.instruction level kind, value)]
      (h.instruction level kind) True := by
  unfold addInstruction
  simp only [throw_bind]
  exact (of_bind_puts (of_bind_puts (of_bind_puts (guard_puts _ _ (storeNode_puts _ _))))).mono
    fun _ => trivial

/-- To find the root stores nothing. -/
theorem root_puts (id : String) : (RunContext.root ⟨some id⟩).Puts [] (Handle.root id) True := by
  refine Reads.puts fun w hw => (root_answers id w hw).mono fun r w' h => ?_
  exact ⟨h.1, fun root hroot => ⟨(h.2.1 root hroot).1, trivial⟩⟩

end RunContext

namespace AppContext

variable (id : String)

/-- The root holds the id. -/
theorem create_puts :
    (AppContext.ofId id).create.Puts [(Handle.root id, .string id)] (Handle.root id) True :=
  storeNode_puts (Handle.root id) (.string id)

/-- The overall status is stored at its leaf beneath the root. -/
theorem setStatus_puts (s : ContextStatus) :
    ((AppContext.ofId id).setStatus s).Puts [((Handle.root id).leaf "status", s.document)]
      ((Handle.root id).leaf "status") True :=
  ((RunContext.root_puts id).bind (RunContext.addOneLevel_puts _ _ _ _)).mono fun _ => trivial

variable (c : AppContext) (h : Handle)

/-- An app is a named node under the root. -/
theorem addApp_puts (name : String) :
    (c.addApp h name).Puts [(h.child "app" name, .string name)] (h.child "app" name)
      (validateName "app" name = .ok ()) :=
  (of_bind_puts (c.nodes.addLevel_puts h "app" name)).mono fun hchecks => hchecks.2

/-- A cluster is a named node under its app. -/
theorem addCluster_puts (name : String) :
    (c.addCluster h name).Puts [(h.child "cluster" name, .string name)] (h.child "cluster" name)
      (validateName "cluster" name = .ok ()) :=
  (of_bind_puts (c.nodes.addLevel_puts h "cluster" name)).mono fun hchecks => hchecks.2

/-- A resource is stored under its cluster, with its text. -/
theorem addResource_puts (name value : String) :
    (c.addResource h name value).Puts [(h.child "resource" name, .string value)]
      (h.child "resource" name) (validateName "resource" name = .ok ()) :=
  (of_bind_puts (c.nodes.addResource_puts h name (.string value))).mono fun hchecks => hchecks.2

/-- An instruction is stored under its node, with its text. -/
theorem addInstruction_puts (level : InstructionLevel) (kind : InstructionKind) (value : String) :
    (c.addInstruction h level kind value).Puts
      [(h.instruction level.name kind.name, .string value)]
      (h.instruction level.name kind.name) True :=
  (of_bind_puts (of_bind_puts (c.nodes.addInstruction_puts h level.name kind.name
    (.string value)))).mono fun _ => trivial

end AppContext

/-- Several resources are stored one after the other, and all of their names were checked. -/
theorem addResources_puts (c : AppContext) (cluster : Handle) (resources : List Rendered) :
    (addResources c cluster resources).Puts
      (resources.map fun r => (cluster.child "resource" r.name, .string r.text)) ()
      (∀ r ∈ resources, validateName "resource" r.name = .ok ()) := by
  induction resources with
  | nil => exact (puts_pure ()).mono fun _ r hr => absurd hr (by simp)
  | cons r resources ih =>
    refine ((c.addResource_puts cluster r.name r.text).bind ih).mono ?_
    rintro ⟨hr, hrest⟩
    exact List.forall_mem_cons.2 ⟨hr, hrest⟩

/-- Building a context stores its nodes one after the other, up to its failure; and a context that
    was built has names that can be words of keys. -/
theorem buildContext_puts (id cluster : String) (resources : List Rendered) :
    (buildContext (.ofId id) cluster resources).Puts (contextNodes id cluster resources) ()
      (validateName "cluster" cluster = .ok () ∧
        ∀ r ∈ resources, validateName "resource" r.name = .ok ()) := by
  -- From the last steps to the first, each with the nodes that are stored from there on.
  have hinstructions : (do
      let _ ← (AppContext.ofId id).addInstruction (clusterHandle id cluster) .resource .order
        (resourceOrder resources)
      let _ ← (AppContext.ofId id).addInstruction (clusterHandle id cluster) .resource .dependency
        (resourceDependency resources)
      return () : Op Unit).Puts (resourceInstructions id cluster resources) () True := by
    refine (AppContext.addInstruction_puts _ _ _ _ _).step rfl ?_
    refine (AppContext.addInstruction_puts _ _ _ _ _).step rfl ?_
    exact (puts_pure ()).mono fun _ _ _ => trivial
  have hresources : (do
      addResources (.ofId id) (clusterHandle id cluster) resources
      let _ ← (AppContext.ofId id).addInstruction (clusterHandle id cluster) .resource .order
        (resourceOrder resources)
      let _ ← (AppContext.ofId id).addInstruction (clusterHandle id cluster) .resource .dependency
        (resourceDependency resources)
      return () : Op Unit).Puts
        (resourceNodes id cluster resources ++ resourceInstructions id cluster resources) ()
        (∀ r ∈ resources, validateName "resource" r.name = .ok ()) :=
    (addResources_puts _ _ _).step rfl (hinstructions.mono fun _ hnames => hnames)
  unfold buildContext
  rw [contextNodes, List.append_assoc]
  refine (AppContext.create_puts id).step rfl ?_
  refine (AppContext.setStatus_puts id _).step rfl ?_
  refine (AppContext.addApp_puts _ _ _).step rfl ?_
  refine (AppContext.addInstruction_puts _ _ _ _ _).step rfl ?_
  refine (AppContext.addInstruction_puts _ _ _ _ _).step rfl ?_
  refine (AppContext.addCluster_puts _ _ _).step rfl ?_
  exact hresources.mono fun hnames hcluster _ _ _ _ _ => ⟨hcluster, hnames⟩

/-! ### The nodes as a part of a store -/

section Nodes

variable {id cluster : String} {resources : List Rendered}

/-- All nodes below the root are steps from a node of the same context. -/
theorem contextNodes_eq (id cluster : String) (resources : List Rendered) :
    ∃ below : List (Handle × Json),
      contextNodes id cluster resources = (Handle.root id, .string id) :: below ∧
        ∀ n ∈ below, ∃ h s, n.1 = Handle.push h s ∧ h.contextId = id := by
  refine ⟨_, rfl, fun n hn => ?_⟩
  simp only [List.mem_append, List.mem_cons, List.not_mem_nil, or_false, List.append_eq,
    resourceNodes, List.mem_map, resourceInstructions] at hn
  rcases hn with ((rfl | rfl | rfl | rfl | rfl) | ⟨r, -, rfl⟩) | rfl | rfl
  all_goals exact ⟨_, _, rfl, rfl⟩

/-- All nodes of a context have its id. -/
theorem contextId_of_mem {n : Handle × Json} (hn : n ∈ contextNodes id cluster resources) :
    n.1.contextId = id := by
  obtain ⟨below, hnodes, hbelow⟩ := contextNodes_eq id cluster resources
  rw [hnodes] at hn
  rcases List.mem_cons.1 hn with rfl | hn
  · rfl
  · obtain ⟨h, s, hpush, hid⟩ := hbelow n hn
    rw [hpush]
    exact hid

/-- The words of the nodes' keys. -/
theorem words_contextNodes (id cluster : String) (resources : List Rendered) :
    (contextNodes id cluster resources).map (·.1.words)
      = [[id], [id, "status"], [id, "app", networkApp], [id, "app", "instruction", "order"],
          [id, "app", "instruction", "dependency"], [id, "app", networkApp, "cluster", cluster]]
        ++ resources.map (fun r => [id, "app", networkApp, "cluster", cluster, "resource", r.name])
        ++ [[id, "app", networkApp, "cluster", cluster, "resource", "instruction", "order"],
          [id, "app", networkApp, "cluster", cluster, "resource", "instruction", "dependency"]] := by
  simp [contextNodes, upperNodes, resourceNodes, resourceInstructions, clusterHandle, Handle.child,
    Handle.leaf, Handle.instruction, Handle.push, Handle.root, Handle.words, Segment.words,
    instructionWord, Function.comp_def]

/-- The app of the networks is not called as the word before an instruction. -/
theorem networkApp_ne_instruction : networkApp ≠ "instruction" := by decide

/-- Nodes with different names have different keys. -/
theorem nodup_keys_contextNodes (hid : Handle.IsWord id) (hcluster : Handle.IsWord cluster)
    (hnames : ∀ r ∈ resources, Handle.IsWord r.name) (hnodup : (resources.map (·.name)).Nodup) :
    ((contextNodes id cluster resources).map (·.1.key)).Nodup := by
  -- The words of the nodes differ, and as they have no slashes, so do the keys that they spell.
  have hwords : ((contextNodes id cluster resources).map (·.1.words)).Nodup := by
    have hresources : (resources.map fun r =>
        [id, "app", networkApp, "cluster", cluster, "resource", r.name]).Nodup :=
      List.pairwise_map.2 ((List.pairwise_map.1 hnodup).imp fun hne heq => hne (by simpa using heq))
    rw [words_contextNodes]
    simp [List.nodup_append, hresources, networkApp_ne_instruction]
  have hplain : ∀ n ∈ contextNodes id cluster resources, ∀ w ∈ n.1.words, Handle.IsWord w := by
    intro n hn
    have hmem : n.1.words ∈ (contextNodes id cluster resources).map (·.1.words) :=
      List.mem_map_of_mem hn
    rw [words_contextNodes] at hmem
    have hfixed : ∀ w ∈ ["status", "app", networkApp, "instruction", "order", "dependency", "cluster",
        "resource"], Handle.IsWord w := by decide
    simp only [List.mem_append, List.mem_cons, List.not_mem_nil, or_false, List.mem_map] at hmem
    rcases hmem with ((h | h | h | h | h | h) | ⟨r, hr, h⟩) | h | h
    -- Only the nodes of resources have words that are not the same in all contexts.
    case inl.inr =>
      rw [← h]
      clear h hn
      simp_all
    all_goals
      rw [h]
      simp_all
  refine List.pairwise_map.2 ((List.pairwise_map.1 hwords).imp_of_mem fun {a b} ha hb hne heq => ?_)
  exact hne (Handle.words_eq_of_key_eq (hplain a ha) (hplain b hb) heq)

end Nodes

namespace ContextStore

variable {s : ContextStore} {id key : String} {nodes : List (Handle × Json)}

/-- Nothing is stored under the context. -/
def Vacant (s : ContextStore) (id : String) : Prop :=
  ∀ key, Text.beginsWith (Handle.root id).key key = true → s.get? key = none

/-- The context consists of the nodes and of nothing else. -/
def Holds (s : ContextStore) (id : String) (nodes : List (Handle × Json)) : Prop :=
  ∀ key cell, Text.beginsWith (Handle.root id).key key = true →
    (s.get? key = some cell ↔ ∃ n ∈ nodes, n.1.key = key ∧ cell = .value n.2)

/-- The keys of nodes are those of their handles. -/
theorem mem_keys_nodes :
    key ∈ (nodes.map fun n => (n.1.key, Cell.value n.2)).map (·.1) ↔ ∃ n ∈ nodes, n.1.key = key := by
  simp

/-- Building one context leaves the others alone. -/
theorem get?_builtUpTo_of_foreign (s : ContextStore) {cluster : String}
    {resources : List Rendered} (n : Nat)
    (hkey : ¬ Text.beginsWith (Handle.root id).key key = true) :
    (s.builtUpTo id cluster resources n).get? key = s.get? key := by
  rw [builtUpTo]
  refine OrderedMap.get?_insertAll_of_notMem (fun hmem => hkey ?_) s
  obtain ⟨m, hm, rfl⟩ := mem_keys_nodes.1 hmem
  rw [← contextId_of_mem (List.mem_of_mem_take hm)]
  exact Handle.beginsWith_root_self m.1

/-- A context that was built is one that was built up to its last node. -/
theorem built_eq (s : ContextStore) (id cluster : String) (resources : List Rendered) :
    s.built id cluster resources
      = s.builtUpTo id cluster resources (contextNodes id cluster resources).length := by
  rw [built, builtUpTo, List.take_length]

/-- A context that is built changes no key of another one. -/
theorem get?_built_of_foreign (s : ContextStore) {cluster : String} {resources : List Rendered}
    (hkey : ¬ Text.beginsWith (Handle.root id).key key = true) :
    (s.built id cluster resources).get? key = s.get? key := by
  rw [built_eq]
  exact get?_builtUpTo_of_foreign s _ hkey

/-- Building a context stores the same nodes in all stores. -/
theorem get?_built_congr {s s' : ContextStore} {key : String} (h : s.get? key = s'.get? key)
    (id cluster : String) (resources : List Rendered) :
    (s.built id cluster resources).get? key = (s'.built id cluster resources).get? key := by
  rw [built, built]
  exact OrderedMap.get?_insertAll_congr h _

/-- Nodes that were stored where nothing was are all that is there. -/
theorem Vacant.holds_withNodes (h : s.Vacant id) (hnodup : (nodes.map (·.1.key)).Nodup) :
    (s.withNodes nodes).Holds id nodes := by
  intro key cell hkey
  have hkeys : ((nodes.map fun n => (n.1.key, Cell.value n.2)).map (·.1)).Nodup := by
    rwa [List.map_map]
  have hstored : ∀ n ∈ nodes, (s.withNodes nodes).get? n.1.key = some (.value n.2) := fun n hn =>
    OrderedMap.get?_insertAll_of_mem hkeys (e := (n.1.key, Cell.value n.2))
      (List.mem_map_of_mem hn) s
  constructor
  · intro hcell
    -- At a key of none of the nodes there is what was there before, and that is nothing.
    by_cases hmem : ∃ n ∈ nodes, n.1.key = key
    · obtain ⟨n, hn, rfl⟩ := hmem
      exact ⟨n, hn, rfl, Option.some.inj (hcell.symm.trans (hstored n hn))⟩
    · have hnone : (s.withNodes nodes).get? key = none :=
        (OrderedMap.get?_insertAll_of_notMem (mt mem_keys_nodes.1 hmem) s).trans (h key hkey)
      exact absurd (hcell.symm.trans hnone) (by simp)
  · rintro ⟨n, hn, rfl, rfl⟩
    exact hstored n hn

/-- A context that was built under a fresh id consists of its nodes. -/
theorem Vacant.holds_built {cluster : String} {resources : List Rendered} (h : s.Vacant id)
    (hid : Handle.IsWord id) (hcluster : Handle.IsWord cluster)
    (hnames : ∀ r ∈ resources, Handle.IsWord r.name) (hnodup : (resources.map (·.name)).Nodup) :
    (s.built id cluster resources).Holds id (contextNodes id cluster resources) := by
  rw [built]
  exact h.holds_withNodes (nodup_keys_contextNodes hid hcluster hnames hnodup)

/-- Of a context that was built in part, either nothing is there or its root is. -/
theorem builtUpTo_eq_or_rooted (s : ContextStore) (id cluster : String)
    (resources : List Rendered) (n : Nat) :
    s.builtUpTo id cluster resources n = s ∨ (s.builtUpTo id cluster resources n).Rooted id := by
  obtain ⟨below, hnodes, hbelow⟩ := contextNodes_eq id cluster resources
  rw [builtUpTo, hnodes]
  cases n with
  | zero => exact .inl rfl
  | succ n =>
    right
    rw [List.take_succ_cons, ← List.singleton_append, withNodes_append, Rooted]
    -- No node below the root is stored at the root's key.
    have hnot : ¬ ∃ m ∈ below.take n, m.1.key = (Handle.root id).key := by
      rintro ⟨m, hm, hkey⟩
      obtain ⟨h, s, hpush, rfl⟩ := hbelow m (List.mem_of_mem_take hm)
      rw [hpush] at hkey
      exact Handle.key_push_ne_root h s hkey
    refine (OrderedMap.get?_insertAll_of_notMem (mt mem_keys_nodes.1 hnot) _).trans ?_
    exact (OrderedMap.get?_insert _ _ _ _).trans (if_pos rfl)

end ContextStore

end NetIntent
