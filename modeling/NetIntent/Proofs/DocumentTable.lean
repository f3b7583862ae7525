import NetIntent.Proofs.Undisturbed

namespace NetIntent

/-!
# The document store refines a flat table

After any calls, a search of the document store answers what a flat table lists: one row for each
store, key and tag, with the value that was inserted last. The key of a call is any value; a call
whose key is no object of texts fails and changes nothing.

* `Json.IsFlat` — an object of texts with different names, in any order;
* `DocumentKey.ofJson_of_perm`, `ofJson_of_not_flat` — which values are keys, and what is reported of
  the others;
* `RowTable` — the table, whose rows are filed under keys or under the texts of keys;
* `DocumentCall` — the calls that change documents, and what each of them makes of the table;
* `RowTable.Lists` — the rows that a pattern covers, in the order of the texts of their keys;
* `DocumentStore.Represents` — the store holds what the table says;
* `DocumentStore.refines_table` — the answers of searches, after any calls.
-/

open Op

/-! ### Values that are keys -/

namespace Json

/-- The value is an object of texts, each with a name of its own. -/
def IsFlat (v : Json) : Prop :=
  ∃ fields : List (String × String), (fields.map (·.1)).Nodup ∧ v = .object (textMembers fields)

/-- The members of an object have different names. -/
def NamesDiffer : Json → Prop
  | .object members => (members.map (·.1)).Nodup
  | _ => True

/-- The names of an object of texts are those of the fields. -/
theorem names_textMembers (fields : List (String × String)) :
    (textMembers fields).map (·.1) = fields.map (·.1) := by
  simp [textMembers, Function.comp_def]

/-- An object all of whose values are texts comes from fields. -/
theorem exists_textMembers {members : List (String × Json)}
    (h : ∀ m ∈ members, ∃ s, m.2 = .string s) : ∃ fields, members = textMembers fields := by
  induction members with
  | nil => exact ⟨[], rfl⟩
  | cons m members ih =>
    obtain ⟨⟨s, hs⟩, hrest⟩ := List.forall_mem_cons.1 h
    obtain ⟨fields, rfl⟩ := ih hrest
    exact ⟨(m.1, s) :: fields, congrArg (· :: textMembers fields) (Prod.ext rfl hs)⟩

end Json

open Json

namespace DocumentKey

/-- An object of texts is the key with these fields. -/
theorem ofJson_textMembers {fields : List (String × String)} (h : (fields.map (·.1)).Nodup) :
    ofJson (.object (textMembers fields)) = .ok (ofFields fields) := by
  have hperm : (textMembers fields).Perm (textMembers (ofFields fields).entries) :=
    (OrderedMap.perm_entries_ofList h).symm.map _
  have hread : ofJson (ofFields fields).toJson = .ok (ofFields fields) := ofJson_toJson _
  rw [toJson_eq, ofJson] at hread
  rw [ofJson, sortMembers_eq_of_perm hperm (by rwa [names_textMembers]), hread]

/-- The order of the fields is no matter. -/
theorem ofJson_of_perm {members members' : List (String × Json)} (h : members.Perm members')
    (hnodup : (members.map (·.1)).Nodup) : ofJson (.object members) = ofJson (.object members') := by
  rw [ofJson, ofJson, sortMembers_eq_of_perm h hnodup]

/-- What is reported of a field that is no text. -/
def fieldNoText : String := "document key fields must be strings"

/-- Members are all texts, or the first one that is none is reported. -/
theorem fieldsOf_cases (members : List (String × Json)) :
    (∀ m ∈ members, ∃ s, m.2 = .string s) ∨
      ∃ before field value after, members = before ++ (field, value) :: after ∧
        (∀ m ∈ before, ∃ s, m.2 = .string s) ∧ (∀ s, value ≠ .string s) ∧
        fieldsOf members = .error (.validation field fieldNoText) := by
  induction members with
  | nil => exact .inl (by simp)
  | cons m members ih =>
    obtain ⟨name, v⟩ := m
    -- The first value that is no text decides, wherever it stands.
    by_cases hv : ∃ s, v = .string s
    · obtain ⟨s, rfl⟩ := hv
      rcases ih with hall | hfirst
      · exact .inl (List.forall_mem_cons.2 ⟨⟨s, rfl⟩, hall⟩)
      · obtain ⟨before, field, value, after, rfl, hbefore, hvalue, herror⟩ := hfirst
        refine .inr ⟨(name, .string s) :: before, field, value, after, rfl, ?_, hvalue, ?_⟩
        · exact List.forall_mem_cons.2 ⟨⟨s, rfl⟩, hbefore⟩
        · rw [fieldsOf, herror]
          rfl
    · have hne : ∀ s, v ≠ .string s := fun s hs => hv ⟨s, hs⟩
      refine .inr ⟨[], name, v, members, rfl, by simp, hne, ?_⟩
      cases v with
      | string s => exact absurd rfl (hne s)
      | _ => rfl

/-- The failure names what is wrong with a value that is no key: that it is no object, or the first
    field by name that is no text. -/
inductive Refuses : Json → Failure → Prop
  | noObject {v : Json} (h : ∀ members, v ≠ .object members) :
    Refuses v (.validation "key" "document key must be an object")
  | noText {members : List (String × Json)} {field : String} {value : Json}
      (hmem : (field, value) ∈ members) (hvalue : ∀ s, value ≠ .string s)
      (hfirst : ∀ m ∈ members, (∀ s, m.2 ≠ .string s) → ¬ m.1 < field) :
    Refuses (.object members) (.validation field fieldNoText)

/-- A value that is no object of texts is no key. -/
theorem ofJson_of_not_flat {v : Json} (hnames : v.NamesDiffer) (h : ¬ v.IsFlat) :
    ∃ e, ofJson v = .error e ∧ Refuses v e := by
  cases v with
  | object members =>
    have hperm : (sortMembers members).Perm members := perm_sortMembers hnames
    rcases fieldsOf_cases (sortMembers members) with hall | hfirst
    · obtain ⟨fields, rfl⟩ := exists_textMembers fun m hm => hall m (hperm.mem_iff.2 hm)
      refine absurd ⟨fields, ?_, rfl⟩ h
      rw [← names_textMembers]
      exact hnames
    · obtain ⟨before, field, value, after, hsorted, hbefore, hvalue, herror⟩ := hfirst
      refine ⟨_, by rw [ofJson, herror]; rfl, .noText ?_ hvalue fun m hm hno hlt => ?_⟩
      · exact hperm.mem_iff.1 (by simp [hsorted])
      · -- whatever comes before the field in order is a text
        have hascending : (sortMembers members).Pairwise fun a b => a.1 < b.1 := by
          rw [sortMembers_eq]
          exact (OrderedMap.ofList members).ascending
        rw [hsorted] at hascending
        have hmem : m ∈ before ++ (field, value) :: after := hsorted ▸ hperm.mem_iff.2 hm
        rcases List.mem_append.1 hmem with hin | hin
        · obtain ⟨s, hs⟩ := hbefore m hin
          exact hno s hs
        · have hafter := (List.pairwise_append.1 hascending).2.1
          rcases List.mem_cons.1 hin with rfl | hin
          · exact String.lt_irrefl _ hlt
          · exact String.lt_irrefl _ (String.lt_trans hlt ((List.pairwise_cons.1 hafter).1 m hin))
  | _ => exact ⟨_, rfl, .noObject fun _ heq => by cases heq⟩

end DocumentKey

/-! ### Tables -/

/-- A flat table: the value of a row by its store, by what its key is filed as, and by its tag. -/
abbrev RowTable (κ : Type) := String → κ → String → Option Json

namespace RowTable

variable {κ : Type} [DecidableEq κ]

/-- The table without rows. -/
def empty : RowTable κ := fun _ _ _ => none

/-- The table with a value in a row, whatever was there before. -/
def insert (t : RowTable κ) (store : String) (k : κ) (tag : String) (value : Json) : RowTable κ :=
  fun store' k' tag' =>
    if store' = store ∧ k' = k ∧ tag' = tag then some value else t store' k' tag'

/-- The table without the rows of a key. -/
def remove (t : RowTable κ) (store : String) (k : κ) : RowTable κ := fun store' k' tag' =>
  if store' = store ∧ k' = k then none else t store' k' tag'

/-- The table without one row. -/
def removeTag (t : RowTable κ) (store : String) (k : κ) (tag : String) : RowTable κ :=
  fun store' k' tag' =>
    if store' = store ∧ k' = k ∧ tag' = tag then none else t store' k' tag'

/-- These are the rows of a tag whose key has the same fields as the pattern, and the same text in
    every field that the pattern does not leave empty, in the order of the texts of the keys. -/
structure Lists (t : RowTable DocumentKey) (store : String) (pattern : DocumentKey) (tag : String)
    (rows : List (DocumentKey × Json)) : Prop where
  ordered : rows.Pairwise fun a b => a.1.canonical < b.1.canonical
  mem_iff : ∀ key value, (key, value) ∈ rows ↔
    t store key tag = some value ∧ key.keys = pattern.keys ∧
      ∀ field text, pattern.get? field = some text → text ≠ "" → key.get? field = some text

end RowTable

/-! ### Calls -/

/-- A call that changes documents. Its key is any value. -/
inductive DocumentCall where
  /-- The value of a tag is stored. -/
  | insert (store : String) (key : Json) (tag : String) (value : Json)
  /-- A document is removed with all its tags. -/
  | remove (store : String) (key : Json)
  /-- One tag is removed. -/
  | removeTag (store : String) (key : Json) (tag : String)

namespace DocumentCall

/-- The call of the store. -/
def perform : DocumentCall → Op Unit
  | .insert store key tag value => Op.insertDocument store key tag value
  | .remove store key => Op.removeDocument store key
  | .removeTag store key tag => Op.removeTag store key tag

/-- The key of a call. -/
def key : DocumentCall → Json
  | .insert _ key .. | .remove _ key | .removeTag _ key _ => key

section Change

variable {κ : Type} [DecidableEq κ] (file : DocumentKey → κ)

/-- What a call with this key makes of a table whose rows are filed in the given way. -/
def changeAt (k : DocumentKey) (t : RowTable κ) : DocumentCall → RowTable κ
  | .insert store _ tag value => t.insert store (file k) tag value
  | .remove store _ => t.remove store (file k)
  | .removeTag store _ tag => t.removeTag store (file k) tag

/-- What a call makes of the table: nothing if its key is none. -/
def change (t : RowTable κ) (c : DocumentCall) : RowTable κ :=
  match DocumentKey.ofJson c.key with
  | .ok k => c.changeAt file k t
  | .error _ => t

/-- The table after these calls. -/
def tableAfter (calls : List DocumentCall) : RowTable κ := calls.foldl (change file) .empty

end Change

end DocumentCall

/-- The world after these calls, whether they fail or not. -/
def World.calling (w : World) (calls : List DocumentCall) : World :=
  calls.foldl (fun w c => (c.perform.run w).2) w

/-- Whether rows are filed under keys or under the texts of keys makes no difference. -/
theorem DocumentCall.tableAfter_canonical (calls : List DocumentCall) (store : String)
    (key : DocumentKey) (tag : String) :
    tableAfter DocumentKey.canonical calls store key.canonical tag
      = tableAfter id calls store key tag := by
  have hfold : ∀ (calls : List DocumentCall) (t : RowTable String) (t' : RowTable DocumentKey),
      (∀ store key tag, t store key.canonical tag = t' store key tag) →
      ∀ store key tag, calls.foldl (change DocumentKey.canonical) t store key.canonical tag
        = calls.foldl (change id) t' store key tag := by
    intro calls
    induction calls with
    | nil => exact fun _ _ h => h
    | cons c calls ih =>
      intro t t' h
      -- Keys that differ in the order of their fields have one canonical text.
      refine ih _ _ fun store key tag => ?_
      unfold change
      cases DocumentKey.ofJson c.key with
      | error e => exact h store key tag
      | ok k =>
        cases c <;>
          simp [changeAt, RowTable.insert, RowTable.remove, RowTable.removeTag,
            DocumentKey.canonical_inj_iff, h]
  exact hfold calls .empty .empty (fun _ _ _ => rfl) store key tag

/-! ### The store and the table -/

/-- The document that a call is about is filed under its key, and the store holds what the table
    says. -/
structure DocumentStore.Represents (d : DocumentStore) (t : RowTable DocumentKey) : Prop where
  filed : d.Filed
  value?_eq : ∀ store key tag, d.value? store key tag = t store key tag

namespace DocumentStore

variable {d : DocumentStore} {t : RowTable DocumentKey} {store tag : String}
  {key pattern : DocumentKey}

/-- The empty store represents the empty table. -/
theorem represents_empty : empty.Represents .empty := ⟨filed_empty, fun _ _ _ => rfl⟩

/-- The documents after a call with this key. -/
def changedAt (d : DocumentStore) (k : DocumentKey) : DocumentCall → DocumentStore
  | .insert store _ tag value => d.insert store k tag value
  | .remove store _ => d.remove store k
  | .removeTag store _ tag => d.removeTag store k tag

/-- A call changes the store as it changes the table. -/
theorem Represents.changedAt (h : d.Represents t) (k : DocumentKey) (c : DocumentCall) :
    (d.changedAt k c).Represents (c.changeAt id k t) := by
  cases c with
  | insert store key tag value =>
    exact ⟨h.filed.insert value, fun _ _ _ => by
      simp [DocumentStore.changedAt, DocumentCall.changeAt, RowTable.insert, h.value?_eq]⟩
  | remove store key =>
    exact ⟨h.filed.remove, fun _ _ _ => by
      simp [DocumentStore.changedAt, DocumentCall.changeAt, RowTable.remove, h.value?_eq]⟩
  | removeTag store key tag =>
    exact ⟨h.filed.removeTag, fun _ _ _ => by
      simp [DocumentStore.changedAt, DocumentCall.changeAt, RowTable.removeTag, h.value?_eq]⟩

/-- A search answers what the table lists. -/
theorem Represents.lists (h : d.Represents t) (store : String) (pattern : DocumentKey)
    (tag : String) : t.Lists store pattern tag (d.rows store pattern tag) where
  ordered := pairwise_rows h.filed store pattern tag
  mem_iff := by
    intro key value
    rw [mem_rows_iff h.filed, DocumentKey.covers_iff, h.value?_eq, and_comm]
    refine and_congr_right fun _ => and_congr_right fun _ => ?_
    exact forall₂_congr fun field text => imp_congr_right fun _ => or_iff_not_imp_left

end DocumentStore

section Calling

variable {α : Type} {w : World} {key : Json} {k : DocumentKey} {e : Failure}

/-- A call with a key has its effect on the document with this key. -/
theorem Op.run_onKey_ok (hw : w.Undisturbed) (hkey : DocumentKey.ofJson key = .ok k)
    (call : StoreCall) (instead : FaultEffect → Option α)
    (effect : DocumentKey → DocumentStore → α × DocumentStore) :
    (onDocuments call instead (onKey key effect)).run w
      = (.ok (effect k w.documents).1, w.withDocuments (effect k w.documents).2) := by
  have heffect : onKey key effect = .ok (effect k) := by rw [onKey, hkey]; rfl
  rw [heffect]
  exact run_onDocuments hw call instead (effect k)

/-- A call without a key fails and changes nothing. -/
theorem Op.run_onKey_error (hw : w.Undisturbed) (hkey : DocumentKey.ofJson key = .error e)
    (call : StoreCall) (instead : FaultEffect → Option α)
    (effect : DocumentKey → DocumentStore → α × DocumentStore) :
    (onDocuments call instead (onKey key effect)).run w = (.error e, w) := by
  have heffect : onKey key effect = .error e := by rw [onKey, hkey]; rfl
  have hfaults : { w with faults := [] } = w := hw.calm
  rw [heffect]
  simp only [run, onDocuments, hw.faults, Faults.consult]
  rw [hfaults]

/-- While the store answers, a call with a key has its effect there. -/
theorem DocumentCall.run_perform_ok (hw : w.Undisturbed) {c : DocumentCall}
    (hkey : DocumentKey.ofJson c.key = .ok k) :
    c.perform.run w = (.ok (), w.withDocuments (w.documents.changedAt k c)) := by
  cases c <;> exact run_onKey_ok hw hkey _ _ _

/-- A call whose key is none fails and has no effect. -/
theorem DocumentCall.run_perform_error (hw : w.Undisturbed) {c : DocumentCall}
    (hkey : DocumentKey.ofJson c.key = .error e) : c.perform.run w = (.error e, w) := by
  cases c <;> exact run_onKey_error hw hkey _ _ _

/-- After any calls the store holds what the table says. -/
theorem World.calling_represents (hw : w.Undisturbed) (hempty : w.documents = .empty)
    (calls : List DocumentCall) :
    (w.calling calls).Undisturbed ∧
      (w.calling calls).documents.Represents (DocumentCall.tableAfter id calls) := by
  have hfold : ∀ (calls : List DocumentCall) (w : World) (t : RowTable DocumentKey),
      w.Undisturbed → w.documents.Represents t →
      (w.calling calls).Undisturbed ∧ (w.calling calls).documents.Represents
        (calls.foldl (DocumentCall.change id) t) := by
    intro calls
    induction calls with
    | nil => exact fun w t hw h => ⟨hw, h⟩
    | cons c calls ih =>
      intro w t hw h
      rw [World.calling, List.foldl_cons, List.foldl_cons, ← World.calling, DocumentCall.change]
      -- A call with a key that cannot be read fails and changes nothing.
      cases hkey : DocumentKey.ofJson c.key with
      | ok k =>
        rw [DocumentCall.run_perform_ok hw hkey]
        exact ih _ _ (hw.withDocuments _) (h.changedAt k c)
      | error e =>
        rw [DocumentCall.run_perform_error hw hkey]
        exact ih _ _ hw h
  refine hfold calls w .empty hw ?_
  rw [hempty]
  exact DocumentStore.represents_empty

end Calling

/-- **The document store refines a flat table.** After any calls, with whatever keys, a search answers
    the values of the rows that its pattern covers, each once and in the order of the texts of their
    keys; and without empty fields in the pattern, the value of the one row that is filed under the
    text of the pattern. The order of the fields in a key is no matter, and each of the four calls
    fails and changes nothing if its key is no object of texts. -/
theorem DocumentStore.refines_table {w : World} (hw : w.Undisturbed) (hempty : w.documents = .empty)
    (calls : List DocumentCall) :
    (∀ store fields tag, (fields.map (·.1)).Nodup →
      ∃ rows, (DocumentCall.tableAfter id calls).Lists store (.ofFields fields) tag rows ∧
        (findDocuments store (.object (textMembers fields)) tag).run (w.calling calls)
          = (.ok (rows.map (·.2)), w.calling calls)) ∧
    (∀ store fields tag, (fields.map (·.1)).Nodup → (∀ f ∈ fields, f.2 ≠ "") →
      (findDocuments store (.object (textMembers fields)) tag).run (w.calling calls)
        = (.ok (DocumentCall.tableAfter DocumentKey.canonical calls store
            (DocumentKey.ofFields fields).canonical tag).toList, w.calling calls)) ∧
    (∀ members members' : List (String × Json), members.Perm members' →
      (members.map (·.1)).Nodup → ∀ store tag value,
        insertDocument store (.object members) tag value
          = insertDocument store (.object members') tag value ∧
        findDocuments store (.object members) tag = findDocuments store (.object members') tag ∧
        removeDocument store (.object members) = removeDocument store (.object members') ∧
        Op.removeTag store (.object members) tag = Op.removeTag store (.object members') tag) ∧
    ∀ key : Json, key.NamesDiffer → ¬ key.IsFlat →
      ∃ e, DocumentKey.Refuses key e ∧ ∀ store tag value,
        (insertDocument store key tag value).run (w.calling calls) = (.error e, w.calling calls) ∧
        (findDocuments store key tag).run (w.calling calls) = (.error e, w.calling calls) ∧
        (removeDocument store key).run (w.calling calls) = (.error e, w.calling calls) ∧
        (Op.removeTag store key tag).run (w.calling calls) = (.error e, w.calling calls) := by
  obtain ⟨hcalling, hrep⟩ := World.calling_represents hw hempty calls
  have hfind : ∀ store (fields : List (String × String)) tag, (fields.map (·.1)).Nodup →
      (findDocuments store (.object (textMembers fields)) tag).run (w.calling calls)
        = (.ok ((w.calling calls).documents.find store (.ofFields fields) tag), w.calling calls) :=
    fun store fields tag hnodup =>
      run_onKey_ok hcalling (DocumentKey.ofJson_textMembers hnodup) _ _ _
  refine ⟨fun store fields tag hnodup => ?_, fun store fields tag hnodup htexts => ?_,
    fun members members' hperm hnodup store tag value => ?_, fun key hnames hflat => ?_⟩
  · refine ⟨_, hrep.lists store (.ofFields fields) tag, ?_⟩
    rw [hfind store fields tag hnodup, find_eq_rows]
  · -- a pattern without empty fields covers no key but itself
    have hexact : (DocumentKey.ofFields fields).Exact := fun f hf =>
      htexts f ((OrderedMap.perm_entries_ofList hnodup).mem_iff.1 hf)
    rw [hfind store fields tag hnodup, find_eq_toList hrep.filed hexact, hrep.value?_eq,
      DocumentCall.tableAfter_canonical]
  · have hkey := DocumentKey.ofJson_of_perm hperm hnodup
    simp only [insertDocument, findDocuments, removeDocument, Op.removeTag, onKey, hkey, and_self]
  · obtain ⟨e, he, hrefuses⟩ := DocumentKey.ofJson_of_not_flat hnames hflat
    exact ⟨e, hrefuses, fun store tag value => ⟨run_onKey_error hcalling he _ _ _,
      run_onKey_error hcalling he _ _ _, run_onKey_error hcalling he _ _ _,
      run_onKey_error hcalling he _ _ _⟩⟩

/-- A world in which nothing is stored. -/
def World.vacant : World := { contextId := fun _ => "" }

/-- Calls on documents of two clusters and on a document with an empty field, with one key in two
    orders, one quote in a name, and one key that is none. -/
def clusterCalls : List DocumentCall :=
  [.insert "cluster" (.object [("provider", .string "p"), ("cluster", .string "a\"b")]) "meta"
      (.string "first"),
    .insert "cluster" (.object [("cluster", .string "a\"b"), ("provider", .string "p")]) "meta"
      (.string "second"),
    .insert "cluster" (.object [("provider", .string "p"), ("cluster", .string "")]) "meta"
      (.string "third"),
    .insert "cluster" (.object [("provider", .string "p"), ("cluster", .null)]) "meta"
      (.string "fourth"),
    .insert "cluster" (.object [("provider", .string "p"), ("cluster", .string "c")]) "meta"
      (.string "fifth"),
    .removeTag "cluster" (.object [("provider", .string "p"), ("cluster", .string "c")]) "meta"]

/-- After these calls a search with an empty field answers two values, and one without an empty field
    the value of its row. -/
theorem DocumentStore.refines_table_clusterCalls :
    World.vacant.Undisturbed ∧ World.vacant.documents = .empty ∧
    (∃ rows, (DocumentCall.tableAfter id clusterCalls).Lists "cluster"
        (.ofFields [("provider", "p"), ("cluster", "")]) "meta" rows ∧
      rows.map (·.2) = [.string "third", .string "second"]) ∧
    DocumentCall.tableAfter DocumentKey.canonical clusterCalls "cluster"
      (DocumentKey.ofFields [("provider", "p"), ("cluster", "a\"b")]).canonical "meta"
        = some (.string "second") := by
  have hw : World.vacant.Undisturbed := ⟨rfl, rfl, rfl⟩
  have hrun : ((findDocuments "cluster" (.object (textMembers [("provider", "p"), ("cluster", "")]))
      "meta").run (World.vacant.calling clusterCalls)).1
        = .ok [.string "third", .string "second"] := by decide
  have hexact : ((findDocuments "cluster"
      (.object (textMembers [("provider", "p"), ("cluster", "a\"b")])) "meta").run
        (World.vacant.calling clusterCalls)).1 = .ok [.string "second"] := by decide
  obtain ⟨hlists, hlookup, -, -⟩ := DocumentStore.refines_table hw rfl clusterCalls
  refine ⟨hw, rfl, ?_, ?_⟩
  · obtain ⟨rows, hrows, hfind⟩ := hlists "cluster" [("provider", "p"), ("cluster", "")] "meta"
      (by decide)
    rw [hfind] at hrun
    exact ⟨rows, hrows, Except.ok.inj hrun⟩
  · rw [hlookup "cluster" [("provider", "p"), ("cluster", "a\"b")] "meta" (by decide) (by decide)]
      at hexact
    exact Option.toList_eq_singleton_iff.1 (Except.ok.inj hexact)

end NetIntent
