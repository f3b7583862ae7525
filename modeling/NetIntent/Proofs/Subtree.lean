import NetIntent.Proofs.HandleParse
import NetIntent.Proofs.Undisturbed

namespace NetIntent

/-!
# Keys with a common beginning are subtrees

The context store knows nodes by the beginning of their keys alone. For canonical handles that do
not end in a bare leaf, a key begins with another one just if its node lies there in the tree.

* `Handle.EndsBare` — the last step is a bare leaf;
* `Handle.beginsWith_key_iff` — initial pieces of keys are ancestors;
* `ContextStore.Legible`, `LegibleIn` — all keys of the store, or of one context, can be read;
* `ContextStore.IsSubtree` — the handles at a node and beneath it, as a scan of its key finds them;
* `RunContext.run_handles`, `RunContext.run_deletePrefix` — the two operations that go by the
  beginning of a key;
* `RunContext.subtree_operations` — both are about the nodes of the subtree, and no others.
-/

namespace Handle

/-- The last step is a bare leaf. Its key also begins the keys of the named nodes of the level. -/
def EndsBare (h : Handle) : Prop := ∃ s ∈ h.last?, s.IsBare

/-- Whether a handle ends in a bare leaf can be decided. -/
instance (h : Handle) : Decidable h.EndsBare := inferInstanceAs (Decidable (∃ s ∈ h.last?, _))

/-- A canonical handle has a bare leaf at its end only, so one without it there has none. -/
theorem Canonical.not_isBare {h : Handle} (hh : h.Canonical) (hend : ¬ h.EndsBare) :
    ∀ s ∈ h.segments, ¬ s.IsBare := by
  intro s hs hsbare
  obtain ⟨init, last, hsegments⟩ :=
    (List.eq_nil_or_concat' h.segments).resolve_left (List.ne_nil_of_mem hs)
  have hbare : ∀ s ∈ init, ¬ s.IsBare := by simpa [hsegments] using hh.bare_last
  rw [hsegments, List.mem_append, List.mem_singleton] at hs
  rcases hs with hinit | rfl
  · exact hbare s hinit hsbare
  · exact hend ⟨s, by simp [last?, hsegments], hsbare⟩

/-- A key begins with the key of a handle that does not end in a bare leaf just if its node lies at
    that handle or beneath it. -/
theorem beginsWith_key_iff {h a : Handle} (hh : h.Canonical) (ha : a.Canonical)
    (hend : ¬ a.EndsBare) : Text.beginsWith a.key h.key = true ↔ h.isWithin a = true := by
  -- No word has a slash, so that texts can be compared word by word.
  have hwords : Text.beginsWith a.key h.key = true ↔ a.contextId = h.contextId ∧
      a.segments.flatMap Segment.words <+: h.segments.flatMap Segment.words := by
    rw [Text.beginsWith_iff, toList_key, toList_key, List.prefix_append_right_inj,
      joinWords_prefix_iff ha.isWord hh.isWord, words, words, List.cons_prefix_cons]
  rw [hwords, isWithin, Bool.and_eq_true, decide_eq_true_iff, List.isPrefixOf_iff_prefix, eq_comm]
  refine and_congr_right fun _ => ⟨?_, ?_⟩
  · intro hprefix
    obtain ⟨rest, hrest⟩ := hprefix
    -- The words of the ancestor are read as its steps, whatever follows.
    have hsteps := parseWords_append ha.sound (ha.not_isBare hend) rest
    rw [hrest, (Spells.mk rfl hh.sound hh.bare_last).parseWords_eq] at hsteps
    cases hmore : parseWords rest with
    | error fault => rw [hmore] at hsteps; cases hsteps
    | ok more =>
      rw [hmore] at hsteps
      exact ⟨more, (Except.ok.inj hsteps).symm⟩
  · intro hprefix
    obtain ⟨more, hmore⟩ := hprefix
    rw [← hmore, List.flatMap_append]
    exact List.prefix_append _ _

end Handle

/-! ### The nodes of a store -/

namespace ContextStore

/-- Every key of the store can be read as a handle. -/
def Legible (s : ContextStore) : Prop := ∀ key ∈ s.keys, ∃ h, Handle.parse key = .ok h

/-- Every key of the context can be read as a handle. -/
def LegibleIn (s : ContextStore) (id : String) : Prop :=
  ∀ key ∈ s.keys, Text.beginsWith (Handle.root id).key key = true → ∃ h, Handle.parse key = .ok h

/-- That a key can be read can be computed. -/
theorem exists_parse_iff {key : String} :
    (∃ h, Handle.parse key = .ok h) ↔ (Handle.parse key).isOk = true := by
  cases Handle.parse key <;> simp [Except.isOk, Except.toBool]

/-- Whether all keys of a store can be read can be decided. -/
instance (s : ContextStore) : Decidable s.Legible :=
  decidable_of_iff (∀ key ∈ s.keys, (Handle.parse key).isOk = true)
    (forall₂_congr fun _ _ => exists_parse_iff.symm)

/-- In a store whose keys can all be read, those of one context can. -/
theorem Legible.legibleIn {s : ContextStore} (h : s.Legible) (id : String) : s.LegibleIn id :=
  fun key hkey _ => h key hkey

/-- There is a node at the handle: its key is stored and can be read. -/
def HasNode (s : ContextStore) (h : Handle) : Prop :=
  ∃ key ∈ s.keys, Handle.parse key = .ok h

/-- The handles of the nodes at the ancestor and beneath it, each once, in the order of their
    keys. -/
structure IsSubtree (s : ContextStore) (a : Handle) (handles : List Handle) : Prop where
  /-- They are read from the keys that a scan finds. -/
  keys_eq : handles.map Handle.key = (s.scan a.key).map (·.1)
  canonical : ∀ h ∈ handles, h.Canonical
  nodup : handles.Nodup
  mem_iff : ∀ h, h ∈ handles ↔ s.HasNode h ∧ h.isWithin a = true

variable {s : ContextStore} {a : Handle}

/-- There is a node at a handle just if the handle is canonical and its key is stored. -/
theorem hasNode_iff {h : Handle} : s.HasNode h ↔ h.key ∈ s.keys ∧ h.Canonical := by
  constructor
  · intro hnode
    obtain ⟨key, hkey, hparse⟩ := hnode
    obtain ⟨hh, rfl⟩ := Handle.canonical_of_parse hparse
    exact ⟨hkey, hh⟩
  · intro hnode
    exact ⟨h.key, hnode.1, hnode.2.parse_key⟩

/-- A scan finds just the keys that begin with the piece. -/
theorem mem_keys_scan {piece key : String} :
    key ∈ (s.scan piece).map (·.1) ↔ key ∈ s.keys ∧ Text.beginsWith piece key = true := by
  rw [OrderedMap.map_scan, List.mem_filter]

/-- Keys that can be read are the keys of canonical handles. -/
theorem exists_map_key {keys : List String} (h : ∀ k ∈ keys, ∃ x, Handle.parse k = .ok x) :
    ∃ handles : List Handle, (∀ x ∈ handles, x.Canonical) ∧ handles.map Handle.key = keys := by
  induction keys with
  | nil => exact ⟨[], by simp, rfl⟩
  | cons k keys ih =>
    obtain ⟨⟨x, hx⟩, hrest⟩ := List.forall_mem_cons.1 h
    obtain ⟨handles, hcanonical, hkeys⟩ := ih hrest
    obtain ⟨hxc, hxkey⟩ := Handle.canonical_of_parse hx
    exact ⟨x :: handles, List.forall_mem_cons.2 ⟨hxc, hcanonical⟩, by
      rw [List.map_cons, hxkey, hkeys]⟩

/-- A scan of the key of a handle finds the subtree of its node, if the keys that begin so can be
    read. -/
theorem exists_subtree (ha : a.Canonical) (hend : ¬ a.EndsBare)
    (hs : ∀ key ∈ s.keys, Text.beginsWith a.key key = true → ∃ h, Handle.parse key = .ok h) :
    ∃ handles, s.IsSubtree a handles := by
  have hparse : ∀ k ∈ (s.scan a.key).map (·.1), ∃ x, Handle.parse k = .ok x := by
    intro k hk
    obtain ⟨hkey, hbegins⟩ := mem_keys_scan.1 hk
    exact hs k hkey hbegins
  obtain ⟨handles, hcanonical, hkeys⟩ := exists_map_key hparse
  -- The keys of a store differ, and so do the handles that are read from them.
  have hnodup : (handles.map Handle.key).Nodup := by
    rw [hkeys, OrderedMap.map_scan]
    exact s.nodup_keys.filter _
  refine ⟨handles, hkeys, hcanonical, hnodup.of_map, fun h => ?_⟩
  rw [hasNode_iff]
  constructor
  · intro hmem
    have hfound := hkeys ▸ List.mem_map_of_mem (f := Handle.key) hmem
    obtain ⟨hkey, hbegins⟩ := mem_keys_scan.1 hfound
    have hh := hcanonical h hmem
    exact ⟨⟨hkey, hh⟩, (Handle.beginsWith_key_iff hh ha hend).1 hbegins⟩
  · intro hmem
    obtain ⟨⟨hkey, hh⟩, hwithin⟩ := hmem
    have hfound : h.key ∈ (s.scan a.key).map (·.1) :=
      mem_keys_scan.2 ⟨hkey, (Handle.beginsWith_key_iff hh ha hend).2 hwithin⟩
    rw [← hkeys] at hfound
    obtain ⟨x, hx, hxkey⟩ := List.mem_map.1 hfound
    -- a canonical handle is read back from its key
    have heq : Handle.parse x.key = .ok x := (hcanonical x hx).parse_key
    rw [hxkey, hh.parse_key] at heq
    exact Except.ok.inj heq ▸ hx

/-- Such subtrees are found at all of these handles in a context whose keys can be read. -/
theorem LegibleIn.exists_subtree (h : s.LegibleIn a.contextId) (ha : a.Canonical)
    (hend : ¬ a.EndsBare) : ∃ handles, s.IsSubtree a handles :=
  ContextStore.exists_subtree ha hend fun key hkey hbegins =>
    h key hkey (Handle.beginsWith_root_of_beginsWith hbegins)

/-- A further key that can be read leaves the context so. -/
theorem LegibleIn.insert {id key : String} {h : Handle} (hs : s.LegibleIn id)
    (hparse : Handle.parse key = .ok h) (cell : Cell) : LegibleIn (s.insert key cell) id := by
  intro key' hkey' hbegins
  obtain ⟨cell', hcell'⟩ := OrderedMap.mem_keys_iff.1 hkey'
  rw [OrderedMap.get?_insert] at hcell'
  split at hcell'
  · rename_i heq
    exact ⟨h, heq ▸ hparse⟩
  · exact hs key' (OrderedMap.mem_keys_iff.2 ⟨cell', hcell'⟩) hbegins

end ContextStore

/-- Canonical handles are read back from their keys, all of a list. -/
theorem Handle.mapM_parse {handles : List Handle} (h : ∀ x ∈ handles, x.Canonical) :
    (handles.map Handle.key).mapM Handle.parse = .ok handles := by
  induction handles with
  | nil => rfl
  | cons x handles ih =>
    obtain ⟨hx, hrest⟩ := List.forall_mem_cons.1 h
    rw [List.map_cons, List.mapM_cons, hx.parse_key, ih hrest]
    rfl

/-! ### Finding and removing a subtree -/

namespace RunContext

variable {w : World} {c : RunContext} {a : Handle} {handles : List Handle}

/-- The handles at a node and beneath it are listed in the order of their keys. -/
theorem run_handles (hw : w.Undisturbed) (hc : c.id? = some a.contextId)
    (h : w.contexts.IsSubtree a handles) : (c.handles a).run w = (.ok handles, w) := by
  unfold RunContext.handles
  rw [check, if_pos hc, Op.of_ok_bind, Op.run_bind_ok (Op.run_nodeKeys hw _), Op.run_of, ← h.keys_eq,
    Handle.mapM_parse h.canonical]

/-- A node is deleted with all that lies beneath it, and the deleted nodes are counted. -/
theorem run_deletePrefix (hw : w.Undisturbed) (hc : c.id? = some a.contextId)
    (h : w.contexts.IsSubtree a handles) :
    (c.deletePrefix a).run w
      = (.ok handles.length, w.withContexts (w.contexts.eraseScan a.key)) := by
  have hlength : (w.contexts.scan a.key).length = handles.length := by
    have hmap := congrArg List.length h.keys_eq
    simpa using hmap.symm
  unfold RunContext.deletePrefix
  rw [check, if_pos hc, Op.of_ok_bind, Op.run_deleteNodes hw, hlength]

end RunContext

/-- After the removal of a subtree, its keys hold nothing, and all other keys what they held. -/
theorem ContextStore.IsSubtree.get?_eraseScan {s : ContextStore} {a : Handle}
    {handles : List Handle} (h : s.IsSubtree a handles) (key : String) :
    (s.eraseScan a.key).get? key = if key ∈ handles.map Handle.key then none else s.get? key := by
  simp only [OrderedMap.get?_eraseScan, h.keys_eq, mem_keys_scan]
  by_cases hkey : key ∈ s.keys
  · simp [hkey]
  · simp [hkey, OrderedMap.get?_eq_none_iff.2 hkey]

/-- **Keys with a common beginning are subtrees.** For canonical handles, the first not ending in a
    bare leaf, the key of the one begins the key of the other just if it is an ancestor. So in a
    store whose keys can be read, the nodes found under such a handle are those at it and beneath
    it, each once; and their removal takes these nodes, tells their number, and leaves every other
    key with its value. -/
theorem RunContext.subtree_operations :
    (∀ h a : Handle, h.Canonical → a.Canonical → ¬ a.EndsBare →
      (Text.beginsWith a.key h.key = true ↔ h.isWithin a = true)) ∧
    ∀ (w : World) (c : RunContext) (a : Handle), w.Undisturbed → w.contexts.Legible →
      c.id? = some a.contextId → a.Canonical → ¬ a.EndsBare →
      ∃ (handles : List Handle) (s' : ContextStore),
        (c.handles a).run w = (.ok handles, w) ∧ handles.Nodup ∧
        (∀ h, h ∈ handles ↔ w.contexts.HasNode h ∧ h.isWithin a = true) ∧
        (c.deletePrefix a).run w = (.ok handles.length, w.withContexts s') ∧
        (∀ h ∈ handles, s'.get? h.key = none) ∧
        ∀ key, (∀ h ∈ handles, h.key ≠ key) → s'.get? key = w.contexts.get? key := by
  constructor
  · intro h a hh ha hend
    exact Handle.beginsWith_key_iff hh ha hend
  · intro w c a hw hlegible hc ha hend
    -- The keys that a scan finds are those of the subtree, and so are the erased ones.
    obtain ⟨handles, hsub⟩ :=
      ContextStore.exists_subtree ha hend fun key hkey _ => hlegible key hkey
    refine ⟨handles, w.contexts.eraseScan a.key, run_handles hw hc hsub, hsub.nodup, hsub.mem_iff,
      run_deletePrefix hw hc hsub, ?_, ?_⟩
    · intro h hmem
      rw [hsub.get?_eraseScan, if_pos (List.mem_map_of_mem hmem)]
    · intro key hkey
      have hnot : key ∉ handles.map Handle.key := by
        intro hmem
        obtain ⟨h, hh, heq⟩ := List.mem_map.1 hmem
        exact hkey h hh heq
      rw [hsub.get?_eraseScan, if_neg hnot]

/-- Nodes of two contexts and two apps whose ids and names begin alike. -/
def World.siblings : World where
  contexts := OrderedMap.ofList
    [("/context/1/", .value (.string "1")),
      ("/context/1/app/net1/", .value (.string "net1")),
      ("/context/1/app/net1/status/", .value .null),
      ("/context/1/app/net10/", .value (.string "net10")),
      ("/context/12/", .value (.string "12")),
      ("/context/12/app/net1/", .value (.string "net1"))]
  contextId n := toString n

/-- The stores answer in the example. -/
theorem World.siblings_undisturbed : siblings.Undisturbed := ⟨rfl, rfl, rfl⟩

/-- All keys of the example can be read. -/
theorem World.siblings_legible : siblings.contexts.Legible := by decide +kernel

/-- The app with the shorter name is found and removed with its status, and nothing of the other app
    or of the other context. -/
theorem RunContext.subtree_operations_siblings :
    let a := (Handle.root "1").child "app" "net1"
    (Text.beginsWith a.key (a.leaf "status").key = true ↔ (a.leaf "status").isWithin a = true) ∧
    ∃ (handles : List Handle) (s' : ContextStore),
      (RunContext.handles ⟨some "1"⟩ a).run World.siblings = (.ok handles, World.siblings) ∧
      handles.Nodup ∧
      (∀ h, h ∈ handles ↔ World.siblings.contexts.HasNode h ∧ h.isWithin a = true) ∧
      (RunContext.deletePrefix ⟨some "1"⟩ a).run World.siblings
        = (.ok handles.length, World.siblings.withContexts s') ∧
      (∀ h ∈ handles, s'.get? h.key = none) ∧
      ∀ key, (∀ h ∈ handles, h.key ≠ key) → s'.get? key = World.siblings.contexts.get? key := by
  intro a
  have ha : a.Canonical := by decide
  have hend : ¬ a.EndsBare := by decide
  exact ⟨subtree_operations.1 _ a (by decide) ha hend,
    subtree_operations.2 World.siblings ⟨some "1"⟩ a World.siblings_undisturbed
      World.siblings_legible rfl ha hend⟩

end NetIntent
