import NetIntent.Data.Text

namespace NetIntent

/-!
# Maps in key order

A finite map with text keys that is kept in ascending order of its keys. The order is that of the
code points, which is also that of the UTF-8 bytes.

* `OrderedMap.get?`, `insert`, `erase` — the map as a partial function;
* `OrderedMap.scan` — the entries whose key begins with a piece of text, found by walking from the
  first key that is not below the piece to the first key that does not begin with it;
* `OrderedMap.eraseScan` — the map without these entries.
-/

/-- A finite map whose entries stand in strictly ascending order of their keys. -/
@[ext] structure OrderedMap (α : Type) where
  /-- The entries, in order. -/
  entries : List (String × α)
  /-- Each key is below all later ones. -/
  ascending : entries.Pairwise (fun a b => a.1 < b.1)

namespace OrderedMap

variable {α : Type}

/-- The map without entries. -/
def empty : OrderedMap α := ⟨[], .nil⟩

/-- The map that stands for any other is the empty one. -/
instance : Inhabited (OrderedMap α) := ⟨empty⟩

/-- The first value stored under a key in a list of entries. -/
def lookup (key : String) : List (String × α) → Option α
  | [] => none
  | (k, v) :: rest => if k = key then some v else lookup key rest

/-- Put an entry at its place, in the place of an entry with the same key. -/
def insertEntry (key : String) (value : α) : List (String × α) → List (String × α)
  | [] => [(key, value)]
  | (k, v) :: rest =>
    if key < k then (key, value) :: (k, v) :: rest
    else if key = k then (key, value) :: rest
    else (k, v) :: insertEntry key value rest

/-- What an insertion leaves is the new entry, or was there before. -/
theorem mem_insertEntry {key : String} {value : α} {e : String × α} {l : List (String × α)}
    (h : e ∈ insertEntry key value l) : e = (key, value) ∨ e ∈ l := by
  induction l with
  | nil => simpa [insertEntry] using h
  | cons hd tl ih =>
    obtain ⟨k, v⟩ := hd
    unfold insertEntry at h
    split at h
    · simpa using h
    · split at h
      · rcases List.mem_cons.1 h with h | h
        · exact .inl h
        · exact .inr (List.mem_cons_of_mem _ h)
      · rcases List.mem_cons.1 h with h | h
        · exact .inr (h ▸ List.mem_cons_self)
        · exact (ih h).imp_right (List.mem_cons_of_mem _)

/-- An insertion keeps the entries in the order of their keys. -/
theorem pairwise_insertEntry (key : String) (value : α) {l : List (String × α)}
    (h : l.Pairwise (fun a b => a.1 < b.1)) :
    (insertEntry key value l).Pairwise (fun a b => a.1 < b.1) := by
  induction l with
  | nil => simp [insertEntry]
  | cons hd tl ih =>
    obtain ⟨k, v⟩ := hd
    obtain ⟨hhd, htl⟩ := List.pairwise_cons.1 h
    unfold insertEntry
    split
    next hlt =>
      refine List.pairwise_cons.2 ⟨fun e he => ?_, h⟩
      rcases List.mem_cons.1 he with rfl | he
      · exact hlt
      · exact String.lt_trans hlt (hhd e he)
    next hnlt =>
      split
      next heq =>
        subst heq
        exact List.pairwise_cons.2 ⟨hhd, htl⟩
      next hne =>
        refine List.pairwise_cons.2 ⟨fun e he => ?_, ih htl⟩
        rcases mem_insertEntry he with rfl | he
        · refine Decidable.byContradiction fun hcon => hne ?_
          exact String.le_antisymm (String.not_lt.1 hcon) (String.not_lt.1 hnlt)
        · exact hhd e he

/-- The value stored under a key. -/
def get? (m : OrderedMap α) (key : String) : Option α := lookup key m.entries

/-- Whether a value is stored under a key. -/
def contains (m : OrderedMap α) (key : String) : Bool := (m.get? key).isSome

/-- The map with the value stored under the key, whatever was stored there before. -/
def insert (m : OrderedMap α) (key : String) (value : α) : OrderedMap α :=
  ⟨insertEntry key value m.entries, pairwise_insertEntry key value m.ascending⟩

/-- The map with those entries only that pass the test. -/
def filter (m : OrderedMap α) (keep : String × α → Bool) : OrderedMap α :=
  ⟨m.entries.filter keep, m.ascending.filter keep⟩

/-- The map without an entry for the key. -/
def erase (m : OrderedMap α) (key : String) : OrderedMap α :=
  m.filter (fun e => !decide (e.1 = key))

/-- The keys, in order. -/
def keys (m : OrderedMap α) : List String := m.entries.map (·.1)

/-- The values, in the order of their keys. -/
def values (m : OrderedMap α) : List α := m.entries.map (·.2)

/-- The number of entries. -/
def size (m : OrderedMap α) : Nat := m.entries.length

/-- Whether there are no entries. -/
def isEmpty (m : OrderedMap α) : Bool := m.entries.isEmpty

/-- The map of a list of entries; of two entries with one key the later counts. -/
def ofList (l : List (String × α)) : OrderedMap α :=
  l.foldl (fun m e => m.insert e.1 e.2) empty

/-- The entries whose key begins with the piece: the walk starts at the first key that is not below
    the piece and stops at the first key that does not begin with it. -/
def scan (m : OrderedMap α) (piece : String) : List (String × α) :=
  (m.entries.dropWhile (fun e => decide (e.1 < piece))).takeWhile
    (fun e => Text.beginsWith piece e.1)

/-- The map without the entries that a scan of the piece visits. -/
def eraseScan (m : OrderedMap α) (piece : String) : OrderedMap α :=
  (m.scan piece).foldl (fun rest e => rest.erase e.1) m

end OrderedMap

end NetIntent
