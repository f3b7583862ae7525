import Mathlib.Data.List.Nodup
import NetIntent.Data.OrderedMap

namespace NetIntent

/-!
# Laws of maps in key order

A map is determined by its lookups, and every operation has one equation in terms of them.

* `OrderedMap.get?_insert`, `get?_erase`, `get?_eraseScan` — the operations as changes of lookups;
* `OrderedMap.ext_get?` — maps with the same lookups are equal;
* `OrderedMap.scan_eq_filter` — a scan misses nothing: the texts that begin with a piece form one
  interval of the order, and the piece is its least element;
* `OrderedMap.filterMap_eq_toList` — what one key contributes to a reading of all entries.
-/

/-! ### Pieces of text and their order -/

namespace Text

/-- A text begins with a piece just as its characters do. -/
theorem beginsWith_iff {piece text : String} :
    beginsWith piece text = true ↔ piece.toList <+: text.toList := by
  simp [beginsWith]

/-- No list is below its own initial pieces. -/
theorem not_lt_of_prefix {piece cs : List Char} (h : piece <+: cs) : ¬ cs < piece := by
  obtain ⟨rest, rfl⟩ := h
  -- Both lists begin with the same character, so that the comparison goes on after it.
  induction piece with
  | nil => exact List.not_lt_nil _
  | cons c piece ih =>
    rw [List.cons_append, List.cons_lt_cons_iff]
    rintro (hlt | ⟨-, hlt⟩)
    · exact absurd hlt (Char.lt_irrefl c)
    · exact ih hlt

/-- What lies between a piece and a list that begins with it begins with it too. -/
theorem prefix_of_between {piece a b : List Char} (ha : ¬ a < piece) (hab : a < b)
    (hb : piece <+: b) : piece <+: a := by
  obtain ⟨rest, rfl⟩ := hb
  induction piece generalizing a with
  | nil => exact List.nil_prefix
  | cons c piece ih =>
    cases a with
    | nil => exact absurd (List.nil_lt_cons c piece) ha
    | cons d a =>
      rw [List.cons_lt_cons_iff] at ha
      rw [List.cons_append, List.cons_lt_cons_iff] at hab
      rcases hab with hlt | ⟨rfl, hlt⟩
      · -- a smaller first character would put the list below the piece
        exact absurd (.inl hlt) ha
      · exact List.cons_prefix_cons.2 ⟨rfl, ih (fun h => ha (.inr ⟨rfl, h⟩)) hlt⟩

end Text

namespace OrderedMap

variable {α β : Type}

/-- Maps are equal if they have the same entries. -/
instance [DecidableEq α] : DecidableEq (OrderedMap α) := fun m m' =>
  decidable_of_iff (m.entries = m'.entries) OrderedMap.ext_iff.symm

/-! ### Lookups and entries -/

/-- In an ordered list a key has just the values that are listed with it. -/
theorem lookup_eq_some_iff {l : List (String × α)} (h : l.Pairwise (fun a b => a.1 < b.1))
    {key : String} {value : α} : lookup key l = some value ↔ (key, value) ∈ l := by
  induction l with
  | nil => simp [lookup]
  | cons hd tl ih =>
    obtain ⟨k, v⟩ := hd
    obtain ⟨hhd, htl⟩ := List.pairwise_cons.1 h
    by_cases hk : k = key
    · subst hk
      have hnot : ∀ v', (k, v') ∉ tl := fun v' hv => String.lt_irrefl k (hhd _ hv)
      simp [lookup, hnot, eq_comm]
    · simp [lookup, hk, ih htl, Ne.symm hk]

/-- A key is found just if it is listed. -/
theorem lookup_isSome_iff {l : List (String × α)} {key : String} :
    (lookup key l).isSome ↔ key ∈ l.map (·.1) := by
  induction l with
  | nil => simp [lookup]
  | cons e l ih =>
    obtain ⟨k, v⟩ := e
    by_cases hk : k = key
    · simp [lookup, hk]
    · rw [lookup, if_neg hk, ih, List.map_cons, List.mem_cons, or_iff_right (Ne.symm hk)]

/-- A key that is not listed is not found. -/
theorem lookup_eq_none_of_notMem {l : List (String × α)} {key : String} (h : key ∉ l.map (·.1)) :
    lookup key l = none :=
  Option.not_isSome_iff_eq_none.1 (mt lookup_isSome_iff.1 h)

/-- Where the entries are kept or left out by their keys, a key that is kept is found as before. -/
theorem lookup_filter (passes : String → Bool) (key : String) (l : List (String × α)) :
    lookup key (l.filter fun e => passes e.1) = if passes key then lookup key l else none := by
  induction l with
  | nil => simp [lookup]
  | cons e l ih =>
    obtain ⟨k, v⟩ := e
    by_cases hkey : k = key
    · subst hkey
      by_cases hk : passes k = true <;> simp [lookup, hk, ih]
    · by_cases hk : passes k = true <;> simp [lookup, hk, hkey, ih]

/-- A key has the value that it is listed with. -/
theorem get?_eq_some_iff {m : OrderedMap α} {key : String} {value : α} :
    m.get? key = some value ↔ (key, value) ∈ m.entries :=
  lookup_eq_some_iff m.ascending

/-- No key is listed twice. -/
theorem nodup_keys (m : OrderedMap α) : m.keys.Nodup := by
  refine List.pairwise_map.2 (m.ascending.imp fun {a b} hlt heq => ?_)
  rw [heq] at hlt
  exact String.lt_irrefl _ hlt

/-- The keys are listed in ascending order. -/
theorem pairwise_keys (m : OrderedMap α) : m.keys.Pairwise (· < ·) :=
  List.pairwise_map.2 m.ascending

/-- The order of the keys is no choice. -/
theorem keys_eq_of_perm {m m' : OrderedMap α} (h : m.keys.Perm m'.keys) : m.keys = m'.keys :=
  h.eq_of_pairwise (fun _ _ _ _ hab hba => absurd (String.lt_trans hab hba) (String.lt_irrefl _))
    m.pairwise_keys m'.pairwise_keys

/-- A key is listed just if it has a value. -/
theorem mem_keys_iff {m : OrderedMap α} {key : String} :
    key ∈ m.keys ↔ ∃ value, m.get? key = some value := by
  simp [keys, get?_eq_some_iff]

/-- A key has no value just if it is not listed. -/
theorem get?_eq_none_iff {m : OrderedMap α} {key : String} : m.get? key = none ↔ key ∉ m.keys := by
  rw [mem_keys_iff, Option.eq_none_iff_forall_ne_some]
  simp

/-- Entries in the order of their keys are determined by which ones they are. -/
theorem eq_of_ascending {l l' : List (String × α)} (h : l.Pairwise fun a b => a.1 < b.1)
    (h' : l'.Pairwise fun a b => a.1 < b.1) (hmem : ∀ e, e ∈ l ↔ e ∈ l') : l = l' := by
  have hnodup : ∀ {l : List (String × α)}, l.Pairwise (fun a b => a.1 < b.1) → l.Nodup := by
    intro l h
    refine List.Pairwise.imp (fun hlt heq => ?_) h
    rw [heq] at hlt
    exact String.lt_irrefl _ hlt
  have hperm : l.Perm l' := (List.perm_ext_iff_of_nodup (hnodup h) (hnodup h')).2 hmem
  exact hperm.eq_of_pairwise
    (fun a b _ _ hab hba => absurd (String.lt_trans hab hba) (String.lt_irrefl _)) h h'

/-- A map is determined by its lookups. -/
theorem ext_get? {m m' : OrderedMap α} (h : ∀ key, m.get? key = m'.get? key) : m = m' := by
  refine OrderedMap.ext (eq_of_ascending m.ascending m'.ascending fun ⟨k, v⟩ => ?_)
  rw [← get?_eq_some_iff, ← get?_eq_some_iff, h]

/-! ### One equation for each operation -/

/-- The empty map has no values. -/
@[simp] theorem get?_empty (key : String) : (empty : OrderedMap α).get? key = none := rfl

/-- An insertion is found at its key, and all other keys are found as before. -/
theorem lookup_insertEntry (key k : String) (value : α) (l : List (String × α)) :
    lookup k (insertEntry key value l) = if k = key then some value else lookup k l := by
  induction l with
  | nil => simp [insertEntry, lookup, eq_comm]
  | cons hd tl ih =>
    obtain ⟨k', v'⟩ := hd
    unfold insertEntry
    split
    · -- the entry goes in front
      simp [lookup, eq_comm]
    · split
      · -- it takes the place of the first one
        rename_i heq
        subst heq
        by_cases hk : k = key
        · simp [lookup, hk]
        · simp [lookup, hk, Ne.symm hk]
      · -- it goes further back
        rename_i hne
        by_cases hk' : k' = k
        · subst hk'
          simp [lookup, Ne.symm hne]
        · simp [lookup, hk', ih]

/-- The value of a key after an insertion. -/
@[simp] theorem get?_insert (m : OrderedMap α) (key k : String) (value : α) :
    (m.insert key value).get? k = if k = key then some value else m.get? k :=
  lookup_insertEntry key k value m.entries

/-- A filter keeps a value or leaves it out, whatever else there is. -/
theorem get?_filter (m : OrderedMap α) (keep : String × α → Bool) (key : String) :
    (m.filter keep).get? key = (m.get? key).filter fun v => keep (key, v) := by
  refine Option.ext fun v => ?_
  rw [Option.filter_eq_some_iff, get?_eq_some_iff, get?_eq_some_iff]
  simp [filter]

/-- The value of a key after its removal, or that of another. -/
@[simp] theorem get?_erase (m : OrderedMap α) (key k : String) :
    (m.erase key).get? k = if k = key then none else m.get? k := by
  rw [erase, get?_filter]
  by_cases hk : k = key
  · simp [hk]
  · cases hm : m.get? k <;> simp [hk]

/-! ### Scans -/

/-- Past the piece, the entries that begin with it come first. -/
theorem takeWhile_eq_filter {piece : String} {l : List (String × α)}
    (h : l.Pairwise (fun a b => a.1 < b.1)) (hl : ∀ e ∈ l, ¬ e.1 < piece) :
    l.takeWhile (fun e => Text.beginsWith piece e.1)
      = l.filter (fun e => Text.beginsWith piece e.1) := by
  induction l with
  | nil => rfl
  | cons hd tl ih =>
    obtain ⟨hhd, htl⟩ := List.pairwise_cons.1 h
    have hrest := ih htl fun e he => hl e (List.mem_cons_of_mem _ he)
    by_cases hp : Text.beginsWith piece hd.1 = true
    · simp only [List.takeWhile_cons, List.filter_cons, hp, if_true, hrest]
    · -- the head is past the piece without beginning with it, and so is all that follows it
      simp only [List.takeWhile_cons, List.filter_cons, hp]
      refine (List.filter_eq_nil_iff.2 fun e he hbegins => ?_).symm
      refine hp (Text.beginsWith_iff.2 (Text.prefix_of_between ?_ ?_ (Text.beginsWith_iff.1 hbegins)))
      · exact fun hlt => hl hd List.mem_cons_self (String.lt_iff.2 hlt)
      · exact String.lt_iff.1 (hhd e he)

/-- A scan visits exactly the entries whose key begins with the piece. -/
theorem scan_eq_filter (m : OrderedMap α) (piece : String) :
    m.scan piece = m.entries.filter fun e => Text.beginsWith piece e.1 := by
  have hsplit : ∀ l : List (String × α), l.Pairwise (fun a b => a.1 < b.1) →
      (l.dropWhile (fun e => decide (e.1 < piece))).takeWhile
          (fun e => Text.beginsWith piece e.1)
        = l.filter (fun e => Text.beginsWith piece e.1) := by
    intro l h
    -- As long as entries are below the piece they are dropped; after that none is.
    induction l with
    | nil => rfl
    | cons hd tl ih =>
      obtain ⟨hhd, htl⟩ := List.pairwise_cons.1 h
      by_cases hlt : hd.1 < piece
      · have hp : ¬ Text.beginsWith piece hd.1 = true := fun hbegins =>
          Text.not_lt_of_prefix (Text.beginsWith_iff.1 hbegins) (String.lt_iff.1 hlt)
        simp only [List.dropWhile_cons, hlt, List.filter_cons, hp, decide_true, if_true, ih htl]
        rfl
      · rw [List.dropWhile_cons_of_neg (by simpa using hlt)]
        refine takeWhile_eq_filter h fun e he hbelow => ?_
        rcases List.mem_cons.1 he with rfl | he
        · exact hlt hbelow
        · exact hlt (String.lt_trans (hhd e he) hbelow)
  exact hsplit m.entries m.ascending

/-- The keys of a scan are the keys that begin with the piece, in their order. -/
theorem map_scan (m : OrderedMap α) (piece : String) :
    (m.scan piece).map (·.1) = m.keys.filter (Text.beginsWith piece) := by
  rw [scan_eq_filter, keys, List.filter_map]
  rfl

/-- A scan has an entry just if it is stored at a key that begins with the piece. -/
theorem mem_scan_iff {m : OrderedMap α} {piece key : String} {value : α} :
    (key, value) ∈ m.scan piece ↔ m.get? key = some value ∧ Text.beginsWith piece key = true := by
  rw [scan_eq_filter, List.mem_filter, get?_eq_some_iff]

/-- A scan depends on what is stored at the keys that begin with the piece. -/
theorem scan_congr {m m' : OrderedMap α} {piece : String}
    (h : ∀ key, Text.beginsWith piece key = true → m.get? key = m'.get? key) :
    m.scan piece = m'.scan piece := by
  have hascending : ∀ m : OrderedMap α, (m.scan piece).Pairwise fun a b => a.1 < b.1 := by
    intro m
    rw [scan_eq_filter]
    exact m.ascending.filter _
  refine eq_of_ascending (hascending m) (hascending m') fun ⟨key, value⟩ => ?_
  rw [mem_scan_iff, mem_scan_iff]
  exact and_congr_left fun hkey => by rw [h key hkey]

/-- After several removals just the other keys are left. -/
theorem get?_foldl_erase (l : List (String × α)) (m : OrderedMap α) (key : String) :
    (l.foldl (fun rest e => rest.erase e.1) m).get? key
      = if key ∈ l.map (·.1) then none else m.get? key := by
  induction l generalizing m with
  | nil => simp
  | cons e l ih =>
    rw [List.foldl_cons, ih, get?_erase]
    by_cases hl : key ∈ l.map (·.1)
    · simp [hl]
    · by_cases he : key = e.1 <;> simp [hl, he]

/-- Erasing a scan takes away what begins with the piece and nothing else. -/
@[simp] theorem get?_eraseScan (m : OrderedMap α) (piece key : String) :
    (m.eraseScan piece).get? key
      = if Text.beginsWith piece key = true then none else m.get? key := by
  rw [eraseScan, get?_foldl_erase]
  by_cases hp : Text.beginsWith piece key = true
  · rw [if_pos hp]
    split
    · rfl
    · rename_i hnot
      refine Option.eq_none_iff_forall_ne_some.2 fun v hv => hnot ?_
      exact List.mem_map.2 ⟨(key, v), mem_scan_iff.2 ⟨hv, hp⟩, rfl⟩
  · rw [if_neg hp, if_neg]
    rintro hmem
    obtain ⟨⟨k, v⟩, hkv, rfl⟩ := List.mem_map.1 hmem
    exact hp (mem_scan_iff.1 hkv).2

/-! ### What is read off all entries -/

/-- A reading to which one key alone contributes is what that key contributes. -/
theorem filterMap_eq_toList {m : OrderedMap α} {g : String × α → Option β} {key : String}
    (hg : ∀ k v, k ≠ key → m.get? k = some v → g (k, v) = none) :
    m.entries.filterMap g = ((m.get? key).bind fun v => g (key, v)).toList := by
  have hlist : ∀ l : List (String × α), l.Pairwise (fun a b => a.1 < b.1) →
      (∀ e ∈ l, e.1 ≠ key → g e = none) →
      l.filterMap g = ((lookup key l).bind fun v => g (key, v)).toList := by
    intro l h hl
    induction l with
    | nil => rfl
    | cons hd tl ih =>
      obtain ⟨k, v⟩ := hd
      obtain ⟨hhd, htl⟩ := List.pairwise_cons.1 h
      have hrest := ih htl fun e he => hl e (List.mem_cons_of_mem _ he)
      by_cases hk : k = key
      · -- all other entries have greater keys, and contribute nothing
        subst hk
        have hnil : tl.filterMap g = [] := List.filterMap_eq_nil_iff.2 fun e he =>
          hl e (List.mem_cons_of_mem _ he) fun heq => String.lt_irrefl _ (heq ▸ hhd e he)
        cases hgv : g (k, v) <;> simp [lookup, hgv, hnil]
      · have hnone : g (k, v) = none := hl (k, v) List.mem_cons_self hk
        simp [lookup, hk, hnone, hrest]
  exact hlist m.entries m.ascending fun ⟨k, v⟩ he hk => hg k v hk (get?_eq_some_iff.2 he)

/-! ### Several insertions -/

/-- The map with entries inserted one after the other. -/
def insertAll (m : OrderedMap α) (l : List (String × α)) : OrderedMap α :=
  l.foldl (fun m e => m.insert e.1 e.2) m

/-- Insertions may be made in two goes. -/
theorem insertAll_append (m : OrderedMap α) (l l' : List (String × α)) :
    m.insertAll (l ++ l') = (m.insertAll l).insertAll l' := List.foldl_append

/-- A key that is not inserted keeps its value. -/
theorem get?_insertAll_of_notMem {l : List (String × α)} {key : String}
    (h : key ∉ l.map (·.1)) (m : OrderedMap α) : (m.insertAll l).get? key = m.get? key := by
  induction l generalizing m with
  | nil => rfl
  | cons e l ih =>
    rw [List.map_cons, List.mem_cons, not_or] at h
    rw [insertAll, List.foldl_cons, ← insertAll, ih h.2, get?_insert, if_neg h.1]

/-- What is found after insertions depends on what was found before, and on them. -/
theorem get?_insertAll_congr {m m' : OrderedMap α} {key : String} (h : m.get? key = m'.get? key)
    (l : List (String × α)) : (m.insertAll l).get? key = (m'.insertAll l).get? key := by
  induction l generalizing m m' with
  | nil => exact h
  | cons e l ih =>
    have hfirst : (m.insert e.1 e.2).get? key = (m'.insert e.1 e.2).get? key := by
      rw [get?_insert, get?_insert, h]
    exact ih hfirst

/-- What is found after insertions depends on those whose keys pass, if the key does. -/
theorem get?_insertAll_filter {passes : String → Bool} {key : String} (hkey : passes key = true)
    (l : List (String × α)) (m : OrderedMap α) :
    (m.insertAll (l.filter fun e => passes e.1)).get? key = (m.insertAll l).get? key := by
  induction l generalizing m with
  | nil => rfl
  | cons e l ih =>
    by_cases he : passes e.1 = true
    · simp only [List.filter_cons, he, if_true]
      exact ih _
    · -- an entry that does not pass has another key
      have hne : key ≠ e.1 := fun heq => he (heq ▸ hkey)
      simp only [List.filter_cons, he, Bool.false_eq_true, if_false, ih m]
      refine get?_insertAll_congr ?_ l
      rw [get?_insert, if_neg hne]

/-- After insertions under different keys, each key has its value, or the one that it had before. -/
theorem get?_insertAll_of_nodup {l : List (String × α)} (h : (l.map (·.1)).Nodup)
    (m : OrderedMap α) (key : String) :
    (m.insertAll l).get? key = (lookup key l).or (m.get? key) := by
  induction l generalizing m with
  | nil => rfl
  | cons e l ih =>
    obtain ⟨hhd, hl⟩ := List.nodup_cons.1 h
    refine (ih hl _).trans ?_
    rw [get?_insert]
    by_cases hkey : key = e.1
    · rw [hkey, lookup_eq_none_of_notMem hhd]
      simp [lookup]
    · simp [lookup, hkey, Ne.symm hkey]

/-- Among insertions under different keys, each is found. -/
theorem get?_insertAll_of_mem {l : List (String × α)} (h : (l.map (·.1)).Nodup) {e : String × α}
    (he : e ∈ l) (m : OrderedMap α) : (m.insertAll l).get? e.1 = some e.2 := by
  induction l generalizing m with
  | nil => exact absurd he (List.not_mem_nil)
  | cons hd l ih =>
    obtain ⟨hhd, hl⟩ := List.nodup_cons.1 h
    rw [insertAll, List.foldl_cons, ← insertAll]
    rcases List.mem_cons.1 he with rfl | he
    · rw [get?_insertAll_of_notMem hhd, get?_insert, if_pos rfl]
    · exact ih hl he _

/-- The keys after insertions are the old ones and the inserted ones. -/
theorem mem_keys_insertAll {l : List (String × α)} {key : String} (m : OrderedMap α) :
    key ∈ (m.insertAll l).keys ↔ key ∈ m.keys ∨ key ∈ l.map (·.1) := by
  induction l generalizing m with
  | nil => simp [insertAll]
  | cons e l ih =>
    have hhead : key ∈ (m.insert e.1 e.2).keys ↔ key = e.1 ∨ key ∈ m.keys := by
      simp only [mem_keys_iff, get?_insert]
      by_cases hk : key = e.1 <;> simp [hk]
    rw [insertAll, List.foldl_cons, ← insertAll, ih, hhead, List.map_cons, List.mem_cons]
    tauto

/-- A map of a list is the empty map with the entries inserted. -/
theorem ofList_eq (l : List (String × α)) : ofList l = insertAll .empty l := rfl

/-- The keys of a map of a list are those of the list. -/
theorem mem_keys_ofList {l : List (String × α)} {key : String} :
    key ∈ (ofList l).keys ↔ key ∈ l.map (·.1) := by
  rw [ofList_eq, mem_keys_insertAll]
  simp [keys, empty]

/-- Entries with different keys are only put in order. -/
theorem perm_entries_ofList {l : List (String × α)} (h : (l.map (·.1)).Nodup) :
    (ofList l).entries.Perm l := by
  have hentries : (ofList l).entries.Nodup := List.Nodup.of_map _ (nodup_keys (ofList l))
  have hget : ∀ e ∈ l, (ofList l).get? e.1 = some e.2 := fun e he =>
    get?_insertAll_of_mem h he .empty
  refine (List.perm_ext_iff_of_nodup hentries (List.Nodup.of_map _ h)).2 fun ⟨k, v⟩ => ?_
  rw [← get?_eq_some_iff]
  constructor
  · intro hv
    have hk : k ∈ l.map (·.1) := mem_keys_ofList.1 (mem_keys_iff.2 ⟨v, hv⟩)
    obtain ⟨e, he, rfl⟩ := List.mem_map.1 hk
    rw [Option.some.inj (hv.symm.trans (hget e he))]
    exact he
  · exact hget (k, v)

/-- The order in which entries with different keys are given is no matter. -/
theorem ofList_eq_of_perm {l l' : List (String × α)} (h : l.Perm l') (hnodup : (l.map (·.1)).Nodup) :
    ofList l = ofList l' := by
  have hnodup' : (l'.map (·.1)).Nodup := (h.map _).nodup hnodup
  have hentries : (ofList l).entries.Perm (ofList l').entries :=
    (perm_entries_ofList hnodup).trans (h.trans (perm_entries_ofList hnodup').symm)
  exact OrderedMap.ext
    (eq_of_ascending (ofList l).ascending (ofList l').ascending fun _ => hentries.mem_iff)

/-- The map of its own entries. -/
theorem ofList_entries (m : OrderedMap α) : ofList m.entries = m := by
  refine ext_get? fun key => ?_
  rw [ofList_eq, get?_insertAll_of_nodup m.nodup_keys, get?_empty, Option.or_none]
  rfl

end OrderedMap

end NetIntent
