import NetIntent.Proofs.Bytes
import NetIntent.Proofs.DocumentTable
import NetIntent.Proofs.Run

namespace NetIntent

/-!
# Scans of the context store are complete

A scan walks from the first key that is not below its piece to the first key that does not begin
with it. Whatever calls came before, this is all that begins with the piece: the keys stand in the
order of their bytes, and those with a common beginning form one interval there.

* `NodeCall`, `NodeTable` — the calls that change nodes, and what each of them makes of a table from
  keys to values;
* `ContextStore.Represents` — the store holds what the table says;
* `World.storing_represents` — after any calls it does;
* `World.Scans` — what a scan, and a deletion of what it finds, have to answer;
* `OrderedMap.scan_eq_bytes` — the walk, told of the bytes of the keys;
* `ContextStore.scans_complete` — the answers after any calls.
-/

open Op

/-! ### Calls and tables -/

/-- A call that changes what the context store holds. -/
inductive NodeCall where
  | put (key : String) (value : Json)
  | delete (key : String)
  | deleteAll (piece : String)

/-- The value at each key, if there is one. -/
abbrev NodeTable := String → Option Json

namespace NodeCall

/-- What the call does. -/
def perform : NodeCall → Op Unit
  | put key value => putNode key value
  | delete key => deleteNode key
  | deleteAll piece => (deleteNodes piece).void

/-- What the call makes of a table. -/
def change (t : NodeTable) : NodeCall → NodeTable
  | put key value => fun k => if k = key then some value else t k
  | delete key => fun k => if k = key then none else t k
  | deleteAll piece => fun k => if Text.beginsWith piece k = true then none else t k

/-- The table after calls on an empty one. -/
def tableAfter (calls : List NodeCall) : NodeTable := calls.foldl change fun _ => none

/-- What the call makes of a store. -/
def changed (s : ContextStore) : NodeCall → ContextStore
  | put key value => s.insert key (.value value)
  | delete key => s.erase key
  | deleteAll piece => s.eraseScan piece

end NodeCall

/-- The world after calls. -/
def World.storing (w : World) (calls : List NodeCall) : World :=
  calls.foldl (fun w c => (c.perform.run w).2) w

/-- The store holds what the table says. -/
def ContextStore.Represents (s : ContextStore) (t : NodeTable) : Prop :=
  ∀ key, s.get? key = (t key).map .value

section Calls

variable {w : World} {s : ContextStore} {t : NodeTable}

/-- Where the stores answer, each call has its effect on the contexts and on nothing else. -/
theorem NodeCall.run_perform (hw : w.Undisturbed) (c : NodeCall) :
    c.perform.run w = (.ok (), w.withContexts (c.changed w.contexts)) := by
  cases c with
  | put key value =>
    rw [perform, putNode, run_onContexts hw]
    rfl
  | delete key =>
    rw [perform, deleteNode, run_onContexts hw]
    rfl
  | deleteAll piece =>
    rw [perform, Op.void, run_bind_ok (run_deleteNodes hw piece)]
    rfl

/-- A call does to the store what it does to the table. -/
theorem ContextStore.Represents.changed (h : s.Represents t) (c : NodeCall) :
    ContextStore.Represents (c.changed s) (c.change t) := by
  intro k
  cases c with
  | put key value =>
    rw [NodeCall.changed, NodeCall.change, OrderedMap.get?_insert, h k, apply_ite (Option.map _)]
    rfl
  | delete key =>
    rw [NodeCall.changed, NodeCall.change, OrderedMap.get?_erase, h k, apply_ite (Option.map _)]
    rfl
  | deleteAll piece =>
    rw [NodeCall.changed, NodeCall.change, OrderedMap.get?_eraseScan, h k,
      apply_ite (Option.map _)]
    rfl

/-- After any calls the store holds what the table says. -/
theorem World.storing_represents (hw : w.Undisturbed) (hempty : w.contexts = .empty)
    (calls : List NodeCall) :
    (w.storing calls).Undisturbed ∧
      (w.storing calls).contexts.Represents (NodeCall.tableAfter calls) := by
  have hfold : ∀ (calls : List NodeCall) (w : World) (t : NodeTable), w.Undisturbed →
      w.contexts.Represents t →
      (w.storing calls).Undisturbed ∧
        (w.storing calls).contexts.Represents (calls.foldl NodeCall.change t) := by
    intro calls
    induction calls with
    | nil => exact fun w t hw h => ⟨hw, h⟩
    | cons c calls ih =>
      intro w t hw h
      rw [World.storing, List.foldl_cons, List.foldl_cons, ← World.storing, c.run_perform hw]
      exact ih _ _ (hw.withContexts _) (h.changed c)
  refine hfold calls w _ hw fun key => ?_
  rw [hempty]
  rfl

/-- What is read of such a store is what the table says. -/
theorem ContextStore.Represents.run_getNode (hw : w.Undisturbed) (h : w.contexts.Represents t)
    (key : String) : (getNode key).run w = (.ok (t key), w) := by
  rw [Op.run_getNode hw, h key]
  cases t key <;> rfl

end Calls

/-! ### Scans -/

/-- A text begins with a piece just if it is the piece and a rest. -/
theorem Text.beginsWith_iff_exists {piece text : String} :
    beginsWith piece text = true ↔ ∃ rest, text = piece ++ rest := by
  rw [beginsWith_iff]
  constructor
  · rintro ⟨rest, hrest⟩
    refine ⟨String.ofList rest, ?_⟩
    rw [← String.toList_inj, String.toList_append, String.toList_ofList, hrest]
  · rintro ⟨rest, rfl⟩
    rw [String.toList_append]
    exact List.prefix_append _ _

/-- The walk from the first key whose bytes are not below those of the piece to the first key whose
    bytes do not begin with them finds all keys whose bytes do. -/
theorem OrderedMap.scan_eq_bytes {α : Type} (m : OrderedMap α) (piece : String) :
    (m.entries.dropWhile fun e => decide (Text.bytes e.1 < Text.bytes piece)).takeWhile
        (fun e => decide (Text.bytes piece <+: Text.bytes e.1)) = m.scan piece ∧
      m.scan piece = m.entries.filter fun e => decide (Text.bytes piece <+: Text.bytes e.1) := by
  simp only [Text.bytes_lt_iff, Text.bytes_prefix_iff, Bool.decide_eq_true]
  exact ⟨rfl, m.scan_eq_filter piece⟩

/-- What the context store answers about a piece where it holds what the table says: these keys, all
    of which a deletion removes, and nothing else. -/
structure World.Scans (w : World) (t : NodeTable) (piece : String) (keys : List String) : Prop where
  /-- The keys stand in the order of their bytes. -/
  ascending : keys.Pairwise fun a b => Text.bytes a < Text.bytes b
  nodup : keys.Nodup
  mem_iff : ∀ key, key ∈ keys ↔ t key ≠ none ∧ ∃ rest, key = piece ++ rest
  listed : (nodeKeys piece).run w = (.ok keys, w)
  deleted : ∃ w', (deleteNodes piece).run w = (.ok keys.length, w') ∧
    ∀ key, (getNode key).run w' = (.ok (if key ∈ keys then none else t key), w')

/-- A store answers about a piece what its table says of it. -/
theorem ContextStore.Represents.scans {w : World} {t : NodeTable} (hw : w.Undisturbed)
    (h : w.contexts.Represents t) (piece : String) :
    w.Scans t piece ((w.contexts.scan piece).map (·.1)) := by
  have hmem : ∀ key, key ∈ (w.contexts.scan piece).map (·.1) ↔
      t key ≠ none ∧ Text.beginsWith piece key = true := by
    intro key
    rw [OrderedMap.map_scan, List.mem_filter, OrderedMap.mem_keys_iff, h key]
    cases t key <;> simp
  constructor
  case ascending =>
    rw [OrderedMap.map_scan]
    exact (w.contexts.pairwise_keys.filter _).imp Text.bytes_lt_iff.2
  case nodup =>
    rw [OrderedMap.map_scan]
    exact w.contexts.nodup_keys.filter _
  case mem_iff =>
    intro key
    rw [hmem, Text.beginsWith_iff_exists]
  case listed => exact run_nodeKeys hw piece
  case deleted =>
    have hafter := h.changed (.deleteAll piece)
    refine ⟨_, ?_, fun key => hafter.run_getNode (hw.withContexts _) key |>.trans ?_⟩
    · rw [run_deleteNodes hw, List.length_map]
      rfl
    · -- at a key without a value there is nothing either way
      have hchange : (NodeCall.deleteAll piece).change t key
          = if key ∈ (w.contexts.scan piece).map (·.1) then none else t key := by
        rw [NodeCall.change]
        by_cases hkey : t key = none <;> simp [hmem, hkey]
      rw [hchange]

/-- **Scans are complete.** After any calls that store values, delete keys, or delete all keys with a
    common beginning, and for every piece, the walk from the piece up to the first key without it
    finds the same entries as a look at all of them. A scan answers their keys, which are the stored
    keys that begin with the piece, each once and in the order of their bytes; and a deletion of what
    begins with the piece removes just these keys, tells their number, and leaves every other key
    with its value. -/
theorem ContextStore.scans_complete {w : World} (hw : w.Undisturbed) (hempty : w.contexts = .empty)
    (calls : List NodeCall) (piece : String) :
    (∀ key, (getNode key).run (w.storing calls)
      = (.ok (NodeCall.tableAfter calls key), w.storing calls)) ∧
    ∃ found,
      ((w.storing calls).contexts.entries.dropWhile fun e =>
        decide (Text.bytes e.1 < Text.bytes piece)).takeWhile
          (fun e => decide (Text.bytes piece <+: Text.bytes e.1)) = found ∧
      ((w.storing calls).contexts.entries.filter fun e =>
        decide (Text.bytes piece <+: Text.bytes e.1)) = found ∧
      (w.storing calls).Scans (NodeCall.tableAfter calls) piece (found.map (·.1)) := by
  obtain ⟨hstoring, hrep⟩ := World.storing_represents hw hempty calls
  obtain ⟨hwalk, hfilter⟩ := (w.storing calls).contexts.scan_eq_bytes piece
  exact ⟨hrep.run_getNode hstoring, _, hwalk, hfilter.symm, hrep.scans hstoring piece⟩

/-- Calls on keys that begin alike, the empty key and keys with characters of two, three and four bytes
    among them, with one key stored twice, one deleted, and one context deleted whole. -/
def contextCalls : List NodeCall :=
  [.put "/context/1/" (.string "1"), .put "/context/12/" (.string "12"),
    .put "/context/1/app/é/" (.string "old"), .put "/context/1/app/é/" (.string "new"),
    .put "/context/1/app/𝛼/" (.string "alpha"), .put "/context/1/app/b/" (.string "b"),
    .put "/context/1/app/ﬀ/" (.string "ff"), .put "" .null, .delete "/context/1/app/b/",
    .put "/context/2/" (.string "2"), .put "/context/2/app/a/" (.string "a"),
    .deleteAll "/context/2/"]

/-- After these calls a scan answers the keys below one context in the order of their bytes, and one
    without a piece answers all keys. -/
theorem ContextStore.scans_complete_contextCalls :
    World.vacant.Undisturbed ∧ World.vacant.contexts = .empty ∧
    (World.vacant.storing contextCalls).Scans (NodeCall.tableAfter contextCalls) "/context/1/app/"
      ["/context/1/app/é/", "/context/1/app/ﬀ/", "/context/1/app/𝛼/"] ∧
    (World.vacant.storing contextCalls).Scans (NodeCall.tableAfter contextCalls) ""
      ["", "/context/1/", "/context/1/app/é/", "/context/1/app/ﬀ/", "/context/1/app/𝛼/",
        "/context/12/"] := by
  have hw : World.vacant.Undisturbed := ⟨rfl, rfl, rfl⟩
  have hchild : ((nodeKeys "/context/1/app/").run (World.vacant.storing contextCalls)).1
      = .ok ["/context/1/app/é/", "/context/1/app/ﬀ/", "/context/1/app/𝛼/"] := by decide
  have hall : ((nodeKeys "").run (World.vacant.storing contextCalls)).1
      = .ok ["", "/context/1/", "/context/1/app/é/", "/context/1/app/ﬀ/", "/context/1/app/𝛼/",
        "/context/12/"] := by decide
  refine ⟨hw, rfl, ?_, ?_⟩
  · obtain ⟨-, found, -, -, hscans⟩ :=
      ContextStore.scans_complete hw rfl contextCalls "/context/1/app/"
    rw [hscans.listed] at hchild
    rwa [Except.ok.inj hchild] at hscans
  · obtain ⟨-, found, -, -, hscans⟩ := ContextStore.scans_complete hw rfl contextCalls ""
    rw [hscans.listed] at hall
    rwa [Except.ok.inj hall] at hscans

end NetIntent
