import Mathlib.Data.List.Perm.Subperm
import NetIntent.Proofs.JsonText
import NetIntent.Proofs.OrderedMap
import NetIntent.Store.Document

namespace NetIntent

/-!
# The document store as a table

The store is a table of rows: a store, a key, a tag and a value. Each operation changes the rows of
its own key only, and a search lists the rows that its pattern covers.

* `DocumentKey.canonical_inj` — the text under which a document is filed identifies its key;
* `DocumentKey.covers_iff` — what a pattern covers, field by field;
* `DocumentStore.Filed` — every document is filed under the text of its own key;
* `DocumentStore.value?_insert`, `value?_remove`, `value?_removeTag` — the operations as changes of
  the table;
* `DocumentStore.rows`, `mem_rows_iff` — a search as a list of rows;
* `DocumentStore.find_eq_toList` — a pattern without empty fields finds one row.
-/

namespace Json

/-- Sorted members are the entries of a map. -/
theorem sortMembers_eq (l : List (String × Json)) :
    sortMembers l = (OrderedMap.ofList l).entries := by
  have hfold : ∀ (l : List (String × Json)) (m : OrderedMap Json),
      l.foldl (fun done e => OrderedMap.insertEntry e.1 e.2 done) m.entries
        = (l.foldl (fun m e => m.insert e.1 e.2) m).entries := by
    intro l
    induction l with
    | nil => intro m; rfl
    | cons e l ih => intro m; exact ih (m.insert e.1 e.2)
  exact hfold l .empty

/-- Members that stand in order stay where they are. -/
theorem sortMembers_entries (m : OrderedMap Json) : sortMembers m.entries = m.entries := by
  rw [sortMembers_eq, OrderedMap.ofList_entries]

/-- Sorting members with different names only changes their order. -/
theorem perm_sortMembers {l : List (String × Json)} (h : (l.map (·.1)).Nodup) :
    (sortMembers l).Perm l := by
  rw [sortMembers_eq]
  exact OrderedMap.perm_entries_ofList h

/-- The order in which members with different names are given is no matter. -/
theorem sortMembers_eq_of_perm {l l' : List (String × Json)} (h : l.Perm l')
    (hnodup : (l.map (·.1)).Nodup) : sortMembers l = sortMembers l' := by
  rw [sortMembers_eq, sortMembers_eq, OrderedMap.ofList_eq_of_perm h hnodup]

end Json

/-! ### Keys -/

namespace DocumentKey

/-- A key is an object of texts. -/
theorem toJson_eq (key : DocumentKey) : key.toJson = .object (Json.textMembers key.entries) := rfl

/-- The text under which a document is filed identifies its key. -/
theorem canonical_inj {key key' : DocumentKey} (h : key.canonical = key'.canonical) : key = key' :=
  OrderedMap.ext (Json.text_object_inj h)

/-- The canonical text of a key tells which key it is. -/
theorem canonical_inj_iff {key key' : DocumentKey} : key.canonical = key'.canonical ↔ key = key' :=
  ⟨canonical_inj, fun h => h ▸ rfl⟩

/-- An object of texts is a key with these fields. -/
theorem fieldsOf_textMembers (fields : List (String × String)) :
    fieldsOf (Json.textMembers fields) = .ok fields := by
  induction fields with
  | nil => rfl
  | cons f fields ih => simp_all [Json.textMembers, fieldsOf, Except.map]

/-- A key is read back from the value that it is written as. -/
@[simp] theorem ofJson_toJson (key : DocumentKey) : ofJson key.toJson = .ok key := by
  have hsorted : (Json.textMembers key.entries).Pairwise (fun a b => a.1 < b.1) :=
    List.pairwise_map.2 key.ascending
  rw [toJson_eq, ofJson, Json.sortMembers_entries ⟨_, hsorted⟩, fieldsOf_textMembers]
  exact congrArg Except.ok (OrderedMap.ofList_entries key)

/-- A pattern covers a key with the same fields that has the same text wherever the pattern names
    one. -/
theorem covers_iff {pattern key : DocumentKey} :
    pattern.covers key = true ↔
      key.keys = pattern.keys ∧
        ∀ field want, pattern.get? field = some want → want = "" ∨ key.get? field = some want := by
  simp only [covers, Bool.and_eq_true, decide_eq_true_eq, List.all_eq_true]
  constructor
  · rintro ⟨hsize, hall⟩
    have hfield : ∀ field want, pattern.get? field = some want →
        ∃ text, key.get? field = some text ∧ (want = "" ∨ text = want) := by
      intro field want hw
      have h := hall _ (OrderedMap.get?_eq_some_iff.1 hw)
      cases hk : key.get? field with
      | none => simp [hk] at h
      | some text => exact ⟨text, rfl, by simpa [hk] using h⟩
    -- The fields of the pattern are among those of the key, and there are as many of them.
    have hsub : pattern.keys ⊆ key.keys := by
      intro field hf
      obtain ⟨want, hw⟩ := OrderedMap.mem_keys_iff.1 hf
      obtain ⟨text, ht, -⟩ := hfield field want hw
      exact OrderedMap.mem_keys_iff.2 ⟨text, ht⟩
    have hlen : key.keys.length ≤ pattern.keys.length := by
      simpa [OrderedMap.keys, OrderedMap.size] using Nat.le_of_eq hsize.symm
    have hperm : pattern.keys.Perm key.keys :=
      (pattern.nodup_keys.subperm hsub).perm_of_length_le hlen
    refine ⟨(OrderedMap.keys_eq_of_perm hperm).symm, fun field want hw => ?_⟩
    obtain ⟨text, ht, hwant⟩ := hfield field want hw
    exact hwant.imp_right fun heq => ht.trans (congrArg some heq)
  · rintro ⟨hkeys, hall⟩
    refine ⟨?_, fun e he => ?_⟩
    · simpa [OrderedMap.keys, OrderedMap.size] using (congrArg List.length hkeys).symm
    · have hw := OrderedMap.get?_eq_some_iff.2 he
      have hf : e.1 ∈ key.keys := hkeys ▸ OrderedMap.mem_keys_iff.2 ⟨e.2, hw⟩
      obtain ⟨text, ht⟩ := OrderedMap.mem_keys_iff.1 hf
      rw [ht]
      rcases hall e.1 e.2 hw with hempty | hsame
      · simp [hempty]
      · simp [Option.some.inj (ht.symm.trans hsame)]

/-- The same field by field: where the pattern has a text, the key has this one, or the pattern's is
    empty; and no other field is in the key. -/
theorem covers_iff_rel {pattern key : DocumentKey} :
    pattern.covers key = true ↔ ∀ field,
      Option.Rel (fun want text => want = "" ∨ text = want) (pattern.get? field)
        (key.get? field) := by
  rw [covers_iff]
  constructor
  · rintro ⟨hkeys, hall⟩ field
    cases hp : pattern.get? field with
    | none =>
      rw [OrderedMap.get?_eq_none_iff, ← hkeys, ← OrderedMap.get?_eq_none_iff] at hp
      rw [hp]
      exact .none
    | some want =>
      have hfield : field ∈ key.keys := hkeys ▸ OrderedMap.mem_keys_iff.2 ⟨want, hp⟩
      obtain ⟨text, ht⟩ := OrderedMap.mem_keys_iff.1 hfield
      rw [ht]
      exact .some ((hall field want hp).imp_right fun hsame => Option.some.inj (ht.symm.trans hsame))
  · intro hrel
    constructor
    · -- both have the same fields, and so in the same order
      refine OrderedMap.keys_eq_of_perm ((List.perm_ext_iff_of_nodup (OrderedMap.nodup_keys _)
        (OrderedMap.nodup_keys _)).2 fun field => ?_)
      have hfield := hrel field
      rw [OrderedMap.mem_keys_iff, OrderedMap.mem_keys_iff]
      generalize pattern.get? field = want at hfield ⊢
      generalize key.get? field = text at hfield ⊢
      cases hfield <;> simp
    · intro field want hw
      have hfield := hrel field
      rw [hw] at hfield
      generalize key.get? field = text at hfield ⊢
      cases hfield with
      | some h => exact h.imp_right (congrArg some)

/-- A field of the pattern is one of a key that it covers, with the text that the pattern gives. -/
theorem exists_of_covers {pattern key : DocumentKey} (h : pattern.covers key = true)
    {field want : String} (hw : pattern.get? field = some want) :
    ∃ text, key.get? field = some text ∧ (want = "" ∨ text = want) := by
  have hfield := covers_iff_rel.1 h field
  rw [hw] at hfield
  generalize key.get? field = text at hfield ⊢
  cases hfield with
  | some htext => exact ⟨_, rfl, htext⟩

/-- A field that is not in the pattern is not in a key that it covers. -/
theorem get?_eq_none_of_covers {pattern key : DocumentKey} (h : pattern.covers key = true)
    {field : String} (hnone : pattern.get? field = none) : key.get? field = none := by
  have hfield := covers_iff_rel.1 h field
  rw [hnone] at hfield
  generalize key.get? field = text at hfield ⊢
  cases hfield with
  | none => rfl

/-- A pattern without empty fields. -/
def Exact (pattern : DocumentKey) : Prop := ∀ f ∈ pattern.entries, f.2 ≠ ""

/-- A key without fields has no empty ones. -/
theorem exact_empty : Exact .empty := fun _ he => absurd he List.not_mem_nil

/-- A field that is not empty may be added to an exact pattern. -/
theorem Exact.insert {key : DocumentKey} (h : key.Exact) (field : String) {text : String}
    (htext : text ≠ "") : Exact (OrderedMap.insert key field text) := by
  intro e he
  have hget := OrderedMap.get?_eq_some_iff.2 he
  rw [OrderedMap.get?_insert] at hget
  split at hget
  · rw [← Option.some.inj hget]
    exact htext
  · exact h e (OrderedMap.get?_eq_some_iff.1 hget)

/-- A pattern without empty fields covers no key but itself. -/
theorem Exact.covers_iff {pattern key : DocumentKey} (h : pattern.Exact) :
    pattern.covers key = true ↔ key = pattern := by
  rw [DocumentKey.covers_iff]
  constructor
  · rintro ⟨hkeys, hall⟩
    refine OrderedMap.ext_get? fun field => ?_
    cases hp : pattern.get? field with
    | none =>
      -- the fields are the same, so that the key does not have this one either
      rw [OrderedMap.get?_eq_none_iff] at hp ⊢
      rwa [hkeys]
    | some want =>
      exact (hall field want hp).resolve_left (h _ (OrderedMap.get?_eq_some_iff.1 hp))
  · rintro rfl
    exact ⟨rfl, fun _ _ hw => .inr hw⟩

end DocumentKey

/-! ### The table -/

namespace DocumentStore

variable {d : DocumentStore} {store store' tag tag' : String} {key key' pattern : DocumentKey}

/-- Every document is filed under the text of its own key. -/
def Filed (d : DocumentStore) : Prop :=
  ∀ store text doc, (d.documents store).get? text = some doc → text = doc.key.canonical

/-- Only the documents of the one store are replaced. -/
@[simp] theorem documents_withDocuments (d : DocumentStore) (store store' : String)
    (docs : OrderedMap Document) :
    (d.withDocuments store docs).documents store'
      = if store' = store then docs else d.documents store' := by
  unfold withDocuments documents
  rw [OrderedMap.get?_insert]
  split <;> rfl

/-- The document of a key after an insertion. A new one has the key that was given. -/
theorem document?_insert (d : DocumentStore) (store : String) (key : DocumentKey) (tag : String)
    (value : Json) (store' : String) (key' : DocumentKey) :
    (d.insert store key tag value).document? store' key'
      = if store' = store ∧ key' = key then
          let doc := (d.document? store key).getD ⟨key, .empty⟩
          some ⟨doc.key, doc.tags.insert tag value⟩
        else d.document? store' key' := by
  simp only [insert, document?, documents_withDocuments]
  by_cases hs : store' = store
  · subst hs
    by_cases hk : key' = key
    · simp [hk]
    · simp [hk, DocumentKey.canonical_inj_iff]
  · simp [hs]

/-- An insertion puts one row in place of what was there. -/
@[simp] theorem value?_insert (d : DocumentStore) (store : String) (key : DocumentKey)
    (tag : String) (value : Json) (store' : String) (key' : DocumentKey) (tag' : String) :
    (d.insert store key tag value).value? store' key' tag'
      = if store' = store ∧ key' = key ∧ tag' = tag then some value
        else d.value? store' key' tag' := by
  rw [value?, document?_insert]
  by_cases h : store' = store ∧ key' = key
  · obtain ⟨rfl, rfl⟩ := h
    by_cases ht : tag' = tag
    · simp [ht]
    · cases hd : d.document? store' key' <;> simp [ht, hd, value?]
  · rw [if_neg h, if_neg fun hall => h ⟨hall.1, hall.2.1⟩, value?]

/-- The document of a key after a removal. -/
theorem document?_remove (d : DocumentStore) (store : String) (key : DocumentKey) (store' : String)
    (key' : DocumentKey) :
    (d.remove store key).document? store' key'
      = if store' = store ∧ key' = key then none else d.document? store' key' := by
  simp only [remove, document?, documents_withDocuments]
  by_cases hs : store' = store
  · subst hs
    by_cases hk : key' = key
    · simp [hk]
    · simp [hk, DocumentKey.canonical_inj_iff]
  · simp [hs]

/-- A removal takes all rows of a key. -/
@[simp] theorem value?_remove (d : DocumentStore) (store : String) (key : DocumentKey)
    (store' : String) (key' : DocumentKey) (tag : String) :
    (d.remove store key).value? store' key' tag
      = if store' = store ∧ key' = key then none else d.value? store' key' tag := by
  rw [value?, document?_remove, value?]
  split <;> rfl

/-- The document of a key after the removal of a tag, with which it may go itself. -/
theorem document?_removeTag (d : DocumentStore) (store : String) (key : DocumentKey) (tag : String)
    (store' : String) (key' : DocumentKey) :
    (d.removeTag store key tag).document? store' key'
      = if store' = store ∧ key' = key then
          (d.document? store key).bind fun doc =>
            if (doc.tags.erase tag).isEmpty then none else some ⟨doc.key, doc.tags.erase tag⟩
        else d.document? store' key' := by
  unfold removeTag
  cases hd : d.document? store key with
  | none =>
    by_cases h : store' = store ∧ key' = key
    · simp [h, hd]
    · simp [h]
  | some doc =>
    dsimp only
    by_cases hlast : (doc.tags.erase tag).isEmpty = true
    · -- the document goes with its last tag
      rw [if_pos hlast, document?_remove, Option.bind_some, if_pos hlast]
    · rw [if_neg hlast, Option.bind_some, if_neg hlast]
      simp only [document?, documents_withDocuments]
      by_cases hs : store' = store
      · subst hs
        by_cases hk : key' = key
        · simp [hk]
        · simp [hk, DocumentKey.canonical_inj_iff]
      · simp [hs]

/-- Removing a tag takes one row; whether the document goes with it is not seen in the table. -/
@[simp] theorem value?_removeTag (d : DocumentStore) (store : String) (key : DocumentKey)
    (tag : String) (store' : String) (key' : DocumentKey) (tag' : String) :
    (d.removeTag store key tag).value? store' key' tag'
      = if store' = store ∧ key' = key ∧ tag' = tag then none
        else d.value? store' key' tag' := by
  rw [value?, document?_removeTag]
  by_cases h : store' = store ∧ key' = key
  · obtain ⟨rfl, rfl⟩ := h
    cases hd : d.document? store' key' with
    | none => simp [value?, hd]
    | some doc =>
      by_cases hlast : (doc.tags.erase tag).isEmpty = true
      · -- no other tag is left
        have hnone : (doc.tags.erase tag).get? tag' = none := by
          rw [OrderedMap.get?, List.isEmpty_iff.1 hlast]
          rfl
        rw [OrderedMap.get?_erase] at hnone
        by_cases ht : tag' = tag
        · simp [hlast, ht]
        · rw [if_neg ht] at hnone
          simp [hlast, ht, value?, hd, hnone]
      · by_cases ht : tag' = tag
        · simp [hlast, ht]
        · simp [hlast, ht, value?, hd]
  · rw [if_neg h, if_neg fun hall => h ⟨hall.1, hall.2.1⟩, value?]

/-- Where nothing is stored, everything is filed under its own key. -/
theorem filed_empty : empty.Filed := nofun

/-- Documents that are filed under their keys may be put in the place of others. -/
theorem Filed.withDocuments (h : d.Filed) {docs : OrderedMap Document}
    (hdocs : ∀ text doc, docs.get? text = some doc → text = doc.key.canonical) :
    (d.withDocuments store docs).Filed := by
  intro store' text doc hget
  rw [documents_withDocuments] at hget
  split at hget
  · exact hdocs text doc hget
  · exact h store' text doc hget

/-- An insertion keeps every document under its own key. -/
theorem Filed.insert (h : d.Filed) (value : Json) : (d.insert store key tag value).Filed := by
  refine h.withDocuments fun text doc hget => ?_
  rw [OrderedMap.get?_insert] at hget
  split at hget
  · -- the document is a new one, or the one that was there with one more tag
    rename_i htext
    cases hd : d.document? store key with
    | none => simp_all [← Option.some.inj hget]
    | some old => simp_all [← Option.some.inj hget, h store _ old hd]
  · exact h store text doc hget

/-- A removal keeps every document under its own key. -/
theorem Filed.remove (h : d.Filed) : (d.remove store key).Filed := by
  refine h.withDocuments fun text doc hget => ?_
  rw [OrderedMap.get?_erase] at hget
  split at hget
  · exact absurd hget (by simp)
  · exact h store text doc hget

/-- The removal of a tag keeps every document under its own key. -/
theorem Filed.removeTag (h : d.Filed) : (d.removeTag store key tag).Filed := by
  unfold DocumentStore.removeTag
  cases hd : d.document? store key with
  | none => exact h
  | some old =>
    dsimp only
    split
    · exact h.remove
    · refine h.withDocuments fun text doc hget => ?_
      rw [OrderedMap.get?_insert] at hget
      split at hget
      · -- the document is the one that was there
        rename_i htext
        rw [htext, ← Option.some.inj hget]
        exact h store _ old hd
      · exact h store text doc hget

/-! ### Searches -/

/-- The row of a tag that a filed document contributes to a search. -/
def row? (pattern : DocumentKey) (tag : String) (e : String × Document) :
    Option (DocumentKey × Json) :=
  if pattern.covers e.2.key then (e.2.tags.get? tag).map (e.2.key, ·) else none

/-- The rows of a tag whose key the pattern covers, in the order in which they are filed. -/
def rows (d : DocumentStore) (store : String) (pattern : DocumentKey) (tag : String) :
    List (DocumentKey × Json) :=
  (d.documents store).entries.filterMap (row? pattern tag)

/-- What is found are the values of the rows. -/
theorem find_eq_rows (d : DocumentStore) (store : String) (pattern : DocumentKey) (tag : String) :
    d.find store pattern tag = (d.rows store pattern tag).map (·.2) := by
  rw [find, rows, OrderedMap.values, List.filter_map, List.filterMap_map, List.filterMap_filter,
    List.map_filterMap]
  refine List.filterMap_congr fun e _ => ?_
  by_cases hc : pattern.covers e.2.key <;> simp [row?, hc, Function.comp_def]

/-- A search lists the rows of the table that the pattern covers. -/
theorem mem_rows_iff (h : d.Filed) {value : Json} :
    (key, value) ∈ d.rows store pattern tag ↔
      pattern.covers key = true ∧ d.value? store key tag = some value := by
  rw [rows, List.mem_filterMap]
  constructor
  · rintro ⟨⟨text, doc⟩, he, hrow⟩
    have hget := OrderedMap.get?_eq_some_iff.2 he
    have htext := h store text doc hget
    by_cases hc : pattern.covers doc.key
    · simp only [row?, hc, if_true, Option.map_eq_some_iff, Prod.mk.injEq] at hrow
      obtain ⟨v, hv, rfl, rfl⟩ := hrow
      exact ⟨hc, by simp [value?, document?, ← htext, hget, hv]⟩
    · simp [row?, hc] at hrow
  · rintro ⟨hc, hv⟩
    obtain ⟨doc, hdoc, hv⟩ := Option.bind_eq_some_iff.1 hv
    have hkey : key = doc.key := DocumentKey.canonical_inj (h store _ doc hdoc)
    exact ⟨(key.canonical, doc), OrderedMap.get?_eq_some_iff.1 hdoc, by simp [row?, ← hkey, hc, hv]⟩

/-- What a search finds first is stored under some key that the pattern covers. -/
theorem exists_of_head?_find (h : d.Filed) {v : Json}
    (hv : (d.find store pattern tag).head? = some v) :
    ∃ key, pattern.covers key = true ∧ d.value? store key tag = some v := by
  rw [find_eq_rows, List.head?_map] at hv
  obtain ⟨⟨key, v⟩, hrow, rfl⟩ := Option.map_eq_some_iff.1 hv
  exact ⟨key, (mem_rows_iff h).1 (List.mem_of_mem_head? hrow)⟩

/-- The rows of a search stand in the order of the texts of their keys. -/
theorem pairwise_rows (h : d.Filed) (store : String) (pattern : DocumentKey) (tag : String) :
    (d.rows store pattern tag).Pairwise fun a b => a.1.canonical < b.1.canonical := by
  refine List.Pairwise.filterMap (row? pattern tag) ?_ ((d.documents store).ascending.imp_of_mem ?_)
    (R := fun a b => a.2.key.canonical < b.2.key.canonical)
  · intro a b hab x hx y hy
    simp only [row?] at hx hy
    split at hx <;> split at hy <;> simp at hx hy
    obtain ⟨_, _, rfl⟩ := hx
    obtain ⟨_, _, rfl⟩ := hy
    exact hab
  · intro a b ha hb hab
    rw [← h store a.1 a.2 (OrderedMap.get?_eq_some_iff.2 ha),
      ← h store b.1 b.2 (OrderedMap.get?_eq_some_iff.2 hb)]
    exact hab

/-- A pattern without empty fields finds the one row with this key, if there is one. -/
theorem find_eq_toList (h : d.Filed) (hp : pattern.Exact) :
    d.find store pattern tag = (d.value? store pattern tag).toList := by
  have hrows : d.rows store pattern tag
      = ((d.value? store pattern tag).map (pattern, ·)).toList := by
    -- Only the document that is filed under the text of the pattern can contribute a row.
    have hrow : ∀ text doc, text ≠ pattern.canonical →
        (d.documents store).get? text = some doc → row? pattern tag (text, doc) = none := by
      intro text doc hne hget
      have hkey : pattern.covers doc.key ≠ true := fun hc =>
        hne ((h store text doc hget).trans (congrArg _ (hp.covers_iff.1 hc)))
      simp [row?, hkey]
    rw [rows, OrderedMap.filterMap_eq_toList hrow]
    have hold : (d.documents store).get? pattern.canonical = d.document? store pattern := rfl
    rw [value?, hold]
    cases hd : d.document? store pattern with
    | none => rfl
    | some doc =>
      have hkey : pattern = doc.key := DocumentKey.canonical_inj (h store _ doc hd)
      have hc : pattern.covers pattern = true := hp.covers_iff.2 rfl
      simp [row?, ← hkey, hc]
  rw [find_eq_rows, hrows]
  cases d.value? store pattern tag <;> rfl

/-- Searches of filed stores find the same if the same is stored under all keys that the pattern
    covers. -/
theorem find_congr {d' : DocumentStore} (h : d.Filed) (h' : d'.Filed)
    (hvalue : ∀ key, pattern.covers key = true → d.value? store key tag = d'.value? store key tag) :
    d.find store pattern tag = d'.find store pattern tag := by
  have hnodup : ∀ {d : DocumentStore}, d.Filed → (d.rows store pattern tag).Nodup := by
    intro d hd
    refine (pairwise_rows hd store pattern tag).imp fun {a b} hlt heq => ?_
    rw [heq] at hlt
    exact String.lt_irrefl _ hlt
  have hperm : (d.rows store pattern tag).Perm (d'.rows store pattern tag) := by
    refine (List.perm_ext_iff_of_nodup (hnodup h) (hnodup h')).2 fun (key, value) => ?_
    rw [mem_rows_iff h, mem_rows_iff h']
    exact and_congr_right fun hcovers => by rw [hvalue key hcovers]
  rw [find_eq_rows, find_eq_rows, hperm.eq_of_pairwise (fun _ _ _ _ hlt hgt =>
    absurd (String.lt_trans hlt hgt) (String.lt_irrefl _)) (pairwise_rows h _ _ _)
      (pairwise_rows h' _ _ _)]

/-- Filed stores with the same documents hold the same. -/
theorem documents_ext {d' : DocumentStore} (h : d.Filed) (h' : d'.Filed)
    (hdocument : ∀ key, d.document? store key = d'.document? store key) :
    d.documents store = d'.documents store := by
  have hsub : ∀ {d d' : DocumentStore}, d.Filed →
      (∀ key, d.document? store key = d'.document? store key) →
      ∀ {text doc}, (d.documents store).get? text = some doc →
        (d'.documents store).get? text = some doc := by
    intro d d' hd hsame text doc hdoc
    obtain rfl := hd store text doc hdoc
    exact (hsame doc.key).symm.trans hdoc
  refine OrderedMap.ext_get? fun text => Option.ext fun doc => ⟨hsub h hdocument, ?_⟩
  exact hsub h' fun key => (hdocument key).symm

end DocumentStore

end NetIntent
