import NetIntent.Json.Literal

namespace NetIntent

/-!
# The context store

The nodes of all contexts, by key and in the order of their keys.

* `Cell` — what is stored at a key: a value, or a text that spells none;
* `ContextStore` — the map from keys to cells, with `value?` as its view.
-/

/-- What is stored at a key. -/
inductive Cell where
  /-- A value. -/
  | value (v : Json)
  /-- A text that spells no value; it is there, but it cannot be read. -/
  | unreadable
deriving DecidableEq, Inhabited

/-- The cell that holds a text as it was written. -/
def Cell.ofText (text : String) : Cell :=
  match Json.ofText? text with
  | some v => .value v
  | none => .unreadable

/-- The nodes of all contexts by their keys. -/
abbrev ContextStore := OrderedMap Cell

/-- The value stored at a key, if there is one that can be read. -/
def ContextStore.value? (s : ContextStore) (key : String) : Option Json :=
  match s.get? key with
  | some (.value v) => some v
  | _ => none

end NetIntent
