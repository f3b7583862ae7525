import NetIntent.Proofs.Requests
import NetIntent.Proofs.Subtree

namespace NetIntent

/-!
# The statuses in a context

The synchronizer writes the status of a resource below the resource. Apart from that, the context of
a cluster stays as it was built, and all of its keys can be read.

* `Metadata.IsName` — the names that objects can have, and what two of them are joined to;
* `Handle.key_inj` — canonical handles have different keys;
* `Written`, `reportedNodes` — the statuses that were written last, and a context with them;
* `Sayable.canonical` — all nodes of such a context have canonical handles;
* `ContextStore.Holds.withStatus` — a status is written below a resource.
-/

/-! ### Names -/

/-- A name that an object can have: it is not empty and has neither a plus sign nor a slash. -/
def Metadata.IsName (name : String) : Prop := name ≠ "" ∧ '+' ∉ name.toList ∧ Handle.IsWord name

/-- Whether an object can have a name can be decided. -/
instance (name : String) : Decidable (Metadata.IsName name) := inferInstanceAs (Decidable (_ ∧ _))

/-- Metadata that pass their check have a proper name. -/
theorem Metadata.isName_of_validate {m : Metadata} (h : m.validate = .ok ()) : IsName m.name := by
  unfold validate at h
  split at h
  · cases h
  · rename_i hne
    split at h
    · cases h
    · rename_i hchars
      simp only [Bool.or_eq_true, not_or, Bool.not_eq_true] at hchars
      exact ⟨hne, by simpa [Text.hasChar] using hchars.1, Handle.hasChar_slash.1 hchars.2⟩

section Joined

variable {a b : String}

/-- Two names are joined with a plus sign between them. -/
theorem toList_joined (a b : String) : (a ++ separator ++ b).toList = a.toList ++ '+' :: b.toList := by
  rw [String.toList_append, String.toList_append]
  simp [separator]

/-- Two names with a plus sign between them are a name of a node. -/
theorem Segment.sound_joined {l : String} (hl : l ∈ namedLevels) (ha : Handle.IsWord a)
    (hb : Handle.IsWord b) : (Segment.level l (a ++ separator ++ b)).Sound := by
  -- With a plus sign the name is neither empty nor the word that starts an instruction.
  have hplus : '+' ∈ (a ++ separator ++ b).toList := by
    rw [toList_joined]
    simp
  refine ⟨hl, ?_, ?_, ?_⟩
  · intro hempty
    simp [hempty] at hplus
  · rw [Handle.IsWord, toList_joined]
    simpa [not_or] using ⟨ha, hb⟩
  · intro hinstr
    rw [hinstr] at hplus
    exact absurd hplus (by decide)

/-- They are taken apart at the plus sign. -/
theorem Text.splitOnce_joined (ha : '+' ∉ a.toList) :
    splitOnce '+' (a ++ separator ++ b) = some (a, b) := by
  have hbefore : ∀ c ∈ a.toList, decide (c ≠ '+') = true := by
    intro c hc
    exact decide_eq_true fun heq => ha (heq ▸ hc)
  have htake : (a.toList ++ '+' :: b.toList).takeWhile (fun c => decide (c ≠ '+')) = a.toList := by
    rw [List.takeWhile_append_of_pos hbefore]
    simp
  have hdrop : (a.toList ++ '+' :: b.toList).dropWhile (fun c => decide (c ≠ '+'))
      = '+' :: b.toList := by
    rw [List.dropWhile_append_of_pos hbefore]
    simp
  rw [splitOnce, hasChar, toList_joined, htake, hdrop]
  simp

/-- A text has one more piece than it has separators. -/
theorem Text.length_pieces (sep : Char) (text : List Char) :
    (pieces sep text).length = text.count sep + 1 := by
  induction text with
  | nil => rfl
  | cons c rest ih =>
    rw [pieces]
    split
    · rename_i hc
      simp [hc, ih]
    · rename_i hc
      split
      · rename_i hnil
        exact absurd hnil (pieces_ne_nil _ _)
      · rename_i first more heq
        rw [heq] at ih
        simpa [List.count_cons, hc] using ih

/-- A name and a kind with a plus sign between them are a name of a resource. -/
theorem Handle.isResourceName_joined (ha : '+' ∉ a.toList) (hb : '+' ∉ b.toList) :
    isResourceName (a ++ separator ++ b) = true := by
  refine decide_eq_true ?_
  rw [Text.splitAt, List.length_map, Text.length_pieces, toList_joined, List.count_append,
    List.count_cons_self, List.count_eq_zero.2 ha, List.count_eq_zero.2 hb]

end Joined

/-! ### Canonical handles -/

namespace Handle

variable {h h' : Handle}

/-- Canonical handles have different keys. -/
theorem key_inj (hh : h.Canonical) (hh' : h'.Canonical) : h.key = h'.key ↔ h = h' := by
  constructor
  · intro heq
    have hparse := hh.parse_key
    rw [heq, hh'.parse_key] at hparse
    exact (Except.ok.inj hparse).symm
  · intro heq
    rw [heq]

/-- Two steps lead to the same handle just if they are the same steps from the same handle. -/
theorem push_inj {s s' : Segment} : h.push s = h'.push s' ↔ h = h' ∧ s = s' := by
  obtain ⟨id, segments⟩ := h
  obtain ⟨id', segments'⟩ := h'
  simp only [push, Handle.mk.injEq]
  constructor
  · intro heq
    obtain ⟨rfl, heq⟩ := heq
    obtain ⟨rfl, heq⟩ := List.append_inj' heq rfl
    exact ⟨⟨rfl, rfl⟩, by simpa using heq⟩
  · intro heq
    obtain ⟨⟨rfl, rfl⟩, rfl⟩ := heq
    exact ⟨rfl, rfl⟩

/-- A handle ends in a bare leaf just if its last step is one. -/
theorem not_endsBare_push {s : Segment} : (h.push s).EndsBare ↔ s.IsBare := by
  simp [EndsBare, last?, push]

/-- The handle of the root of a valid id is canonical. -/
theorem canonical_root {id : String} (hid : RunContext.isValidId id = true) :
    (root id).Canonical := by
  obtain ⟨hne, hword⟩ := isValidId_iff.1 hid
  exact ⟨hne, hword, by simp [root], by simp [root]⟩

/-- The handle of a root does not end in a bare leaf. -/
theorem not_endsBare_root (id : String) : ¬ (root id).EndsBare := by simp [EndsBare, last?, root]

/-- A sound step from a canonical handle that does not end in a bare leaf leads to one. -/
theorem Canonical.push {s : Segment} (hh : h.Canonical) (hend : ¬ h.EndsBare) (hs : s.Sound) :
    (h.push s).Canonical where
  id_ne := hh.id_ne
  id_word := hh.id_word
  sound := by
    intro t ht
    rcases List.mem_append.1 ht with hold | hnew
    · exact hh.sound t hold
    · exact List.mem_singleton.1 hnew ▸ hs
  bare_last := by
    have hbare := hh.not_isBare hend
    simpa [Handle.push] using hbare

/-- A name that passes its check, on a level that has names, is a sound step. -/
theorem sound_of_validateName {field level name : String} (hlevel : level ∈ namedLevels)
    (hname : validateName field name = .ok ()) : (Segment.level level name).Sound :=
  ⟨hlevel, validateName_eq_ok_iff.1 hname⟩

/-- A named node beneath a canonical handle has such a handle again, and further nodes may lie
    beneath it. -/
theorem Canonical.child {level name : String} (hh : h.Canonical) (hend : ¬ h.EndsBare)
    (hs : (Segment.level level name).Sound) :
    (h.child level name).Canonical ∧ ¬ (h.child level name).EndsBare :=
  ⟨hh.push hend hs, by simp [Handle.child, not_endsBare_push, Segment.IsBare]⟩

end Handle

/-! ### A context with statuses -/

/-- The handle of a resource in the context of a cluster. -/
def resourceHandle (id cluster name : String) : Handle :=
  (clusterHandle id cluster).child "resource" name

/-- The status documents that the synchronizer wrote last, by the handles of the resources. -/
abbrev Written := Handle → Option Json

section Nodes

variable (written : Written) (id cluster : String) (resources : List Rendered)

/-- The nodes of the statuses that were written for resources. -/
def statusNodes : List (Handle × Json) :=
  resources.filterMap fun r => (written (resourceHandle id cluster r.name)).map fun v =>
    ((resourceHandle id cluster r.name).leaf "status", v)

/-- The nodes of the context of a cluster with the statuses that were written. -/
def reportedNodes : List (Handle × Json) :=
  contextNodes id cluster resources ++ statusNodes written id cluster resources

end Nodes

section Nodes

variable {written : Written} {id cluster : String} {resources : List Rendered} {n : Handle × Json}

/-- The statuses in a context are those that were written for its resources. -/
theorem mem_statusNodes :
    n ∈ statusNodes written id cluster resources ↔
      ∃ r ∈ resources, n.1 = (resourceHandle id cluster r.name).leaf "status" ∧
        written (resourceHandle id cluster r.name) = some n.2 := by
  obtain ⟨h, v⟩ := n
  simp only [statusNodes, List.mem_filterMap, Option.map_eq_some_iff, Prod.mk.injEq]
  constructor
  · intro hmem
    obtain ⟨r, hr, v', hv', rfl, rfl⟩ := hmem
    exact ⟨r, hr, rfl, hv'⟩
  · intro hmem
    obtain ⟨r, hr, rfl, hv⟩ := hmem
    exact ⟨r, hr, v, hv, rfl, rfl⟩

/-- A context as it was built has upper nodes, nodes of resources, and instructions for them. -/
theorem mem_contextNodes :
    n ∈ contextNodes id cluster resources ↔
      n ∈ upperNodes id cluster ∨
        (∃ r ∈ resources, n = (resourceHandle id cluster r.name, .string r.text)) ∨
        n ∈ resourceInstructions id cluster resources := by
  simp only [contextNodes, resourceNodes, List.mem_append, List.mem_map, or_assoc, eq_comm,
    resourceHandle]

/-- A context with statuses has the nodes that were built and those of the statuses. -/
theorem mem_reportedNodes :
    n ∈ reportedNodes written id cluster resources ↔
      n ∈ contextNodes id cluster resources ∨ n ∈ statusNodes written id cluster resources :=
  List.mem_append

/-- What is written in other contexts does not show. -/
theorem reportedNodes_congr {written' : Written}
    (h : ∀ x : Handle, x.contextId = id → written' x = written x) :
    reportedNodes written' id cluster resources = reportedNodes written id cluster resources := by
  have hsame : ∀ name, written' (resourceHandle id cluster name)
      = written (resourceHandle id cluster name) := fun name => h _ rfl
  simp only [reportedNodes, statusNodes, hsame]

/-- Only the nodes of resources are named nodes of that level. -/
theorem exists_resource_of_nameAt? (hn : n ∈ reportedNodes written id cluster resources)
    (hname : (n.1.nameAt? "resource").isSome) :
    ∃ r ∈ resources, n.1 = resourceHandle id cluster r.name := by
  rw [mem_reportedNodes, mem_contextNodes, mem_statusNodes] at hn
  -- The last steps of the other nodes are of another kind or level.
  rcases hn with (hupper | ⟨r, hr, rfl⟩ | hinstr) | ⟨r, hr, hn, -⟩
  · simp only [upperNodes, List.mem_cons, List.not_mem_nil, or_false] at hupper
    rcases hupper with rfl | rfl | rfl | rfl | rfl | rfl
    all_goals simp [Handle.nameAt?, Handle.last?, Handle.root, Handle.leaf, Handle.child,
      Handle.instruction, Handle.push, clusterHandle] at hname
  · exact ⟨r, hr, rfl⟩
  · simp only [resourceInstructions, List.mem_cons, List.not_mem_nil, or_false] at hinstr
    rcases hinstr with rfl | rfl
    all_goals simp [Handle.nameAt?, Handle.last?, Handle.instruction, Handle.push] at hname
  · rw [hn] at hname
    simp [Handle.nameAt?, Handle.last?, Handle.leaf, Handle.push] at hname

/-- A context as it was built has no statuses of resources. -/
theorem ne_status_of_mem_contextNodes (hn : n ∈ contextNodes id cluster resources) (name : String) :
    n.1 ≠ (resourceHandle id cluster name).leaf "status" := by
  intro heq
  -- The status of the context itself is a leaf too, but one step away from the root.
  have hlast : n.1.last? = some (.leaf "status") := by
    rw [heq]
    simp [Handle.last?, Handle.leaf, Handle.push]
  have hlength : n.1.segments.length = 4 := by rw [heq]; rfl
  rcases mem_contextNodes.1 hn with hupper | ⟨r, hr, rfl⟩ | hinstr
  · simp only [upperNodes, List.mem_cons, List.not_mem_nil, or_false] at hupper
    rcases hupper with rfl | rfl | rfl | rfl | rfl | rfl
    all_goals simp [Handle.root, Handle.leaf, Handle.child, Handle.instruction, Handle.push,
      clusterHandle] at hlength
  · simp [resourceHandle, Handle.last?, Handle.child, Handle.push] at hlast
  · simp only [resourceInstructions, List.mem_cons, List.not_mem_nil, or_false] at hinstr
    rcases hinstr with rfl | rfl
    all_goals simp [Handle.last?, Handle.instruction, Handle.push] at hlast

/-- A status that is written below a resource is in the place of an earlier one. -/
theorem mem_reportedNodes_update {r : Rendered} (hr : r ∈ resources) (v : Json) :
    n ∈ reportedNodes (Function.update written (resourceHandle id cluster r.name) (some v)) id
        cluster resources ↔
      n = ((resourceHandle id cluster r.name).leaf "status", v) ∨
        n ∈ reportedNodes written id cluster resources ∧
          n.1 ≠ (resourceHandle id cluster r.name).leaf "status" := by
  have hleaf : ∀ r' : Rendered, (resourceHandle id cluster r'.name).leaf "status"
      = (resourceHandle id cluster r.name).leaf "status" ↔
        resourceHandle id cluster r'.name = resourceHandle id cluster r.name := by
    intro r'
    simp [Handle.leaf, Handle.push_inj]
  rw [mem_reportedNodes, mem_reportedNodes, mem_statusNodes, mem_statusNodes]
  constructor
  · intro hn
    rcases hn with hcontext | ⟨r', hr', hn, hv⟩
    · exact .inr ⟨.inl hcontext, ne_status_of_mem_contextNodes hcontext r.name⟩
    · by_cases hsame : resourceHandle id cluster r'.name = resourceHandle id cluster r.name
      · -- the resource itself, for which the new status counts
        rw [hsame, Function.update_self] at hv
        exact .inl (Prod.ext (hsame ▸ hn) (Option.some.inj hv).symm)
      · rw [Function.update_of_ne hsame] at hv
        exact .inr ⟨.inr ⟨r', hr', hn, hv⟩, fun heq => hsame ((hleaf r').1 (hn.symm.trans heq))⟩
  · intro hn
    rcases hn with rfl | ⟨hcontext | ⟨r', hr', hn, hv⟩, hne⟩
    · exact .inr ⟨r, hr, rfl, Function.update_self ..⟩
    · exact .inl hcontext
    · refine .inr ⟨r', hr', hn, ?_⟩
      rw [Function.update_of_ne fun hsame => hne (hn.trans ((hleaf r').2 hsame))]
      exact hv

/-- The handle of a cluster does not end in a bare leaf. -/
theorem not_endsBare_cluster (id cluster : String) : ¬ (clusterHandle id cluster).EndsBare := by
  simp [clusterHandle, Handle.child, Handle.not_endsBare_push, Segment.IsBare]

/-- The names in the context can be words of its keys. -/
structure Sayable (id cluster : String) (resources : List Rendered) : Prop where
  id_valid : RunContext.isValidId id = true
  cluster_sound : (Segment.level "cluster" cluster).Sound
  resource_sound : ∀ r ∈ resources, (Segment.level "resource" r.name).Sound

namespace Sayable

variable (h : Sayable id cluster resources)
include h

/-- The root of the context has a canonical handle. -/
theorem canonical_root : (Handle.root id).Canonical := Handle.canonical_root h.id_valid

/-- The app of the context has a canonical handle. -/
theorem canonical_app : ((Handle.root id).child "app" networkApp).Canonical :=
  h.canonical_root.push (Handle.not_endsBare_root id) (by decide)

/-- The cluster of the context has a canonical handle. -/
theorem canonical_cluster : (clusterHandle id cluster).Canonical :=
  h.canonical_app.push (by simp [Handle.child, Handle.not_endsBare_push, Segment.IsBare])
    h.cluster_sound

/-- Every resource of the context has a canonical handle. -/
theorem canonical_resource {r : Rendered} (hr : r ∈ resources) :
    (resourceHandle id cluster r.name).Canonical :=
  h.canonical_cluster.push (not_endsBare_cluster id cluster) (h.resource_sound r hr)

/-- The status of every resource has a canonical handle. -/
theorem canonical_status {r : Rendered} (hr : r ∈ resources) :
    ((resourceHandle id cluster r.name).leaf "status").Canonical :=
  (h.canonical_resource hr).push
    (by simp [resourceHandle, Handle.child, Handle.not_endsBare_push, Segment.IsBare]) (by decide)

/-- All nodes of the context have canonical handles. -/
theorem canonical (hn : n ∈ reportedNodes written id cluster resources) : n.1.Canonical := by
  have hroot := h.canonical_root
  have hrootEnd := Handle.not_endsBare_root id
  have hcluster := h.canonical_cluster
  have hclusterEnd := not_endsBare_cluster id cluster
  rw [mem_reportedNodes, mem_contextNodes, mem_statusNodes] at hn
  -- Each node is one sound step further than another one, from the root down.
  rcases hn with (hupper | ⟨r, hr, rfl⟩ | hinstr) | ⟨r, hr, hn, -⟩
  · simp only [upperNodes, List.mem_cons, List.not_mem_nil, or_false] at hupper
    rcases hupper with rfl | rfl | rfl | rfl | rfl | rfl
    · exact hroot
    · exact hroot.push hrootEnd (by decide)
    · exact h.canonical_app
    · exact hroot.push hrootEnd (by decide)
    · exact hroot.push hrootEnd (by decide)
    · exact hcluster
  · exact h.canonical_resource hr
  · simp only [resourceInstructions, List.mem_cons, List.not_mem_nil, or_false] at hinstr
    rcases hinstr with rfl | rfl
    · exact hcluster.push hclusterEnd (by decide)
    · exact hcluster.push hclusterEnd (by decide)
  · rw [hn]
    exact h.canonical_status hr

end Sayable

end Nodes

namespace ContextStore

variable {s : ContextStore} {id : String} {nodes : List (Handle × Json)}

/-- The nodes of a context are found at their keys. -/
theorem Holds.get?_of_mem (h : s.Holds id nodes) {n : Handle × Json} (hn : n ∈ nodes)
    (hid : n.1.contextId = id) : s.get? n.1.key = some (.value n.2) :=
  (h _ _ (hid ▸ Handle.beginsWith_root_self n.1)).2 ⟨n, hn, rfl, rfl⟩

/-- At a canonical handle of no node of the context nothing is stored. -/
theorem Holds.get?_eq_none (h : s.Holds id nodes) (hcanonical : ∀ n ∈ nodes, n.1.Canonical)
    {x : Handle} (hx : x.Canonical) (hid : x.contextId = id) (hnot : ∀ n ∈ nodes, n.1 ≠ x) :
    s.get? x.key = none := by
  by_contra hsome
  obtain ⟨cell, hcell⟩ := Option.ne_none_iff_exists'.1 hsome
  obtain ⟨n, hn, hkey, -⟩ := (h _ _ (hid ▸ Handle.beginsWith_root_self x)).1 hcell
  exact hnot n hn ((Handle.key_inj (hcanonical n hn) hx).1 hkey)

/-- What is stored of the context is at the handles of its nodes. -/
theorem Holds.hasNode_iff (h : s.Holds id nodes) (hcanonical : ∀ n ∈ nodes, n.1.Canonical)
    {x : Handle} (hid : x.contextId = id) : s.HasNode x ↔ ∃ n ∈ nodes, n.1 = x := by
  rw [ContextStore.hasNode_iff]
  constructor
  · intro hnode
    obtain ⟨hkey, hx⟩ := hnode
    by_contra hnot
    push Not at hnot
    have hnone := h.get?_eq_none hcanonical hx hid hnot
    exact OrderedMap.get?_eq_none_iff.1 hnone hkey
  · intro hnode
    obtain ⟨n, hn, rfl⟩ := hnode
    have hsome := h.get?_of_mem hn hid
    exact ⟨OrderedMap.mem_keys_iff.2 ⟨_, hsome⟩, hcanonical n hn⟩

/-- The subtree of a node of the context can be read. -/
theorem Holds.exists_subtree (h : s.Holds id nodes) (hcanonical : ∀ n ∈ nodes, n.1.Canonical)
    {a : Handle} (ha : a.Canonical) (hend : ¬ a.EndsBare) (hid : a.contextId = id) :
    ∃ handles, s.IsSubtree a handles := by
  subst hid
  refine ContextStore.LegibleIn.exists_subtree ?_ ha hend
  intro key hkey hroot
  obtain ⟨cell, hcell⟩ := OrderedMap.mem_keys_iff.1 hkey
  obtain ⟨n, hn, hkey, -⟩ := (h key cell hroot).1 hcell
  exact ⟨n.1, hkey ▸ (hcanonical n hn).parse_key⟩

/-- There is a resource at the handle. -/
def HasResource (s : ContextStore) (resource : Handle) : Prop :=
  s.HasNode resource ∧ (resource.nameAt? "resource").isSome = true

/-- The store after a status was written below a resource. -/
def withStatus (s : ContextStore) (resource : Handle) (v : Json) : ContextStore :=
  s.insert (resource.leaf "status").key (.value v)

/-- Statuses in one context are not seen in another. -/
theorem agree_withStatus (s : ContextStore) {id : String} {resource : Handle}
    (hid : Handle.IsWord id) (hword : Handle.IsWord resource.contextId)
    (hne : resource.contextId ≠ id) (v : Json) : s.Agree (s.withStatus resource v) id := by
  intro key hkey
  have hother : key ≠ (resource.leaf "status").key := by
    intro heq
    rw [heq] at hkey
    have hself := Handle.beginsWith_root_self (resource.leaf "status")
    exact hne (Handle.eq_of_beginsWith_root hword hid hself hkey)
  rw [withStatus, OrderedMap.get?_insert, if_neg hother]

/-- A context with a resource is not vacant. -/
theorem HasResource.contextId_ne {resource : Handle} (h : s.HasResource resource)
    (hvacant : s.Vacant id) : resource.contextId ≠ id := by
  intro heq
  obtain ⟨hkey, -⟩ := hasNode_iff.1 h.1
  have hnone := hvacant resource.key (heq ▸ Handle.beginsWith_root_self resource)
  exact OrderedMap.get?_eq_none_iff.1 hnone hkey

/-- A context with a resource has a word for its id. -/
theorem HasResource.isWord {resource : Handle} (h : s.HasResource resource) :
    Handle.IsWord resource.contextId :=
  (hasNode_iff.1 h.1).2.id_word

/-- A status that is written below a resource of the context is the only change of it. -/
theorem Holds.withStatus {written : Written} {cluster : String} {resources : List Rendered}
    (h : s.Holds id (reportedNodes written id cluster resources))
    (hnames : Sayable id cluster resources) {resource : Handle} (hresource : s.HasResource resource)
    (hid : resource.contextId = id) (v : Json) :
    (s.withStatus resource v).Holds id
      (reportedNodes (Function.update written resource (some v)) id cluster resources) := by
  obtain ⟨n, hn, rfl⟩ := (h.hasNode_iff (fun n hn => hnames.canonical hn) hid).1 hresource.1
  obtain ⟨r, hr, heq⟩ := exists_resource_of_nameAt? hn hresource.2
  rw [heq]
  clear hn hid hresource heq n
  have hstatus := hnames.canonical_status hr
  intro key cell hkey
  rw [ContextStore.withStatus, OrderedMap.get?_insert]
  split
  · -- the key of the new status
    rename_i hnew
    constructor
    · intro hcell
      exact ⟨((resourceHandle id cluster r.name).leaf "status", v),
        (mem_reportedNodes_update hr v).2 (.inl rfl), hnew.symm, (Option.some.inj hcell).symm⟩
    · intro hcell
      obtain ⟨n, hn, hnkey, rfl⟩ := hcell
      rcases (mem_reportedNodes_update hr v).1 hn with rfl | ⟨hold, hne⟩
      · rfl
      · exact absurd ((Handle.key_inj (hnames.canonical hold) hstatus).1 (hnkey.trans hnew)) hne
  · -- another key
    rename_i hother
    rw [h key cell hkey]
    refine exists_congr fun n => and_congr_left fun hn => ?_
    have hne : n.1 ≠ (resourceHandle id cluster r.name).leaf "status" := by
      intro heq
      exact hother (heq ▸ hn.1.symm)
    rw [mem_reportedNodes_update hr v]
    constructor
    · exact fun hold => .inr ⟨hold, hne⟩
    · intro hnew
      rcases hnew with heq | ⟨hold, -⟩
      · exact absurd (congrArg Prod.fst heq) hne
      · exact hold

end ContextStore

end NetIntent
