import NetIntent.Error
import NetIntent.Json.Fields
import NetIntent.Json.Printer

namespace NetIntent

/-!
# The document store

Declared objects are documents. A document has a store, a key of named fields, and a value for each
of its tags; it is gone when its last tag is.

* `DocumentKey` — the fields of a key, in the order of their names, and their canonical text;
* `DocumentKey.covers` — a pattern, whose empty fields stand for any text, covers a key;
* `DocumentStore.insert`, `find`, `remove`, `removeTag` — the four operations;
* `DocumentStore.value?` — the store as a table of rows.
-/

/-- The fields of a document's key. -/
abbrev DocumentKey := OrderedMap String

namespace DocumentKey

/-- The key with these fields. -/
def ofFields (fields : List (String × String)) : DocumentKey := OrderedMap.ofList fields

/-- The key as a value. -/
def toJson (key : DocumentKey) : Json := .object (key.entries.map fun e => (e.1, .string e.2))

/-- The text by which a key is found: the compact text of its fields in the order of their names. -/
def canonical (key : DocumentKey) : String := key.toJson.text

/-- The fields of the members of an object, if all of them are texts. The first that is not is
    reported. -/
def fieldsOf : List (String × Json) → Except Failure (List (String × String))
  | [] => .ok []
  | (field, .string s) :: rest => (fieldsOf rest).map ((field, s) :: ·)
  | (field, _) :: _ => .error (.validation field "document key fields must be strings")

/-- The key that a value is: an object of texts. -/
def ofJson : Json → Except Failure DocumentKey
  | .object members => (fieldsOf (Json.sortMembers members)).map ofFields
  | _ => .error (.validation "key" "document key must be an object")

/-- The pattern covers the key: the same fields, and the same text in every field that the pattern
    does not leave empty. -/
def covers (pattern key : DocumentKey) : Bool :=
  decide (pattern.size = key.size) &&
    pattern.entries.all fun (field, want) =>
      match key.get? field with
      | none => false
      | some text => decide (want = "" ∨ text = want)

end DocumentKey

/-- A document: its key and the values of its tags. -/
structure Document where
  key : DocumentKey
  tags : OrderedMap Json
deriving Inhabited

/-- All documents: by store, and there by the canonical text of their keys. -/
structure DocumentStore where
  stores : OrderedMap (OrderedMap Document)
deriving Inhabited

namespace DocumentStore

/-- The store without documents. -/
def empty : DocumentStore := ⟨.empty⟩

/-- The documents of one store, in the order of their keys' texts. -/
def documents (d : DocumentStore) (store : String) : OrderedMap Document :=
  (d.stores.get? store).getD .empty

/-- Put the documents of one store in the place of what it held. -/
def withDocuments (d : DocumentStore) (store : String) (docs : OrderedMap Document) :
    DocumentStore :=
  ⟨d.stores.insert store docs⟩

/-- The document with a key. -/
def document? (d : DocumentStore) (store : String) (key : DocumentKey) : Option Document :=
  (d.documents store).get? key.canonical

/-- The value of a tag of the document with a key: the store as a table of rows. -/
def value? (d : DocumentStore) (store : String) (key : DocumentKey) (tag : String) : Option Json :=
  (d.document? store key).bind (·.tags.get? tag)

/-- Store the value of a tag, whatever it was before; the document need not be there. -/
def insert (d : DocumentStore) (store : String) (key : DocumentKey) (tag : String) (value : Json) :
    DocumentStore :=
  let doc := (d.document? store key).getD ⟨key, .empty⟩
  d.withDocuments store
    ((d.documents store).insert key.canonical ⟨doc.key, doc.tags.insert tag value⟩)

/-- The values of a tag on all documents whose key the pattern covers, in the order of their
    keys' texts. -/
def find (d : DocumentStore) (store : String) (pattern : DocumentKey) (tag : String) : List Json :=
  ((d.documents store).values.filter fun doc => pattern.covers doc.key).filterMap
    fun doc => doc.tags.get? tag

/-- Remove a document with all its tags. -/
def remove (d : DocumentStore) (store : String) (key : DocumentKey) : DocumentStore :=
  d.withDocuments store ((d.documents store).erase key.canonical)

/-- Remove a tag of a document, and the document with its last tag. -/
def removeTag (d : DocumentStore) (store : String) (key : DocumentKey) (tag : String) :
    DocumentStore :=
  match d.document? store key with
  | none => d
  | some doc =>
    let tags := doc.tags.erase tag
    if tags.isEmpty then d.remove store key
    else d.withDocuments store ((d.documents store).insert key.canonical ⟨doc.key, tags⟩)

end DocumentStore

end NetIntent
