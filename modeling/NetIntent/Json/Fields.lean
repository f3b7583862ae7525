import NetIntent.Json.Value

namespace NetIntent.Json

/-!
# Reading records out of JSON

A record is written as an object with its fields by name, or as an array with its fields in order.
Unknown members are passed over; a known one may stand only once.

* `Json.fields?` — the known fields that a value has;
* `Json.required?`, `Json.optional?` — the content of a field that must, or may, be there;
* `Json.string?`, `Json.list?`, … — the content of a value of a given kind.
-/

/-- The known fields among the members; `none` if one of them stands twice. -/
def knownMembers? (names : List String) : List (String × Json) → Option (List (String × Json))
  | [] => some []
  | (k, v) :: rest =>
    if names.contains k then
      match knownMembers? names rest with
      | none => none
      | some known => if (OrderedMap.lookup k known).isSome then none else some ((k, v) :: known)
    else knownMembers? names rest

/-- The fields of a record that is written as an object or as an array. An array has at most as many
    items as the record has fields. -/
def fields? (names : List String) : Json → Option (List (String × Json))
  | .object members => knownMembers? names members
  | .array items => if items.length ≤ names.length then some (names.zip items) else none
  | _ => none

/-- The content of a field that must be there. -/
def required? {α : Type} (fields : List (String × Json)) (name : String) (read : Json → Option α) :
    Option α :=
  (OrderedMap.lookup name fields).bind read

/-- The content of a field, or a default where it is missing. -/
def optional? {α : Type} (fields : List (String × Json)) (name : String) (default : α)
    (read : Json → Option α) : Option α :=
  match OrderedMap.lookup name fields with
  | none => some default
  | some v => read v

/-- The text that a value is. -/
def string? : Json → Option String
  | .string s => some s
  | _ => none

/-- The truth value that a value is. -/
def bool? : Json → Option Bool
  | .bool b => some b
  | _ => none

/-- The integer within bounds that a value is. A double is none, even if it is whole. -/
def int? (low high : Int) : Json → Option Int
  | .number (.int n) => if low ≤ n ∧ n ≤ high then some n else none
  | _ => none

/-- The natural of 64 bits that a value is. -/
def nat? (v : Json) : Option Nat := (int? 0 (Int.pow 2 64 - 1) v).map Int.toNat

/-- The items of an array, each read. -/
def list? {α : Type} (read : Json → Option α) : Json → Option (List α)
  | .array items => items.mapM read
  | _ => none

/-- A value that may be null. -/
def nullable? {α : Type} (read : Json → Option α) : Json → Option (Option α)
  | .null => some none
  | v => (read v).map some

/-- The case of an enumeration that a value names: by its name, or as an object with the name as its
    only member and null as its value. -/
def caseName? : Json → Option String
  | .string s => some s
  | .object [(s, .null)] => some s
  | _ => none

/-- The case of an enumeration with this name. -/
def case? {α : Type} (all : List α) (name : α → String) (v : Json) : Option α :=
  (caseName? v).bind fun s => all.find? fun a => name a = s

end NetIntent.Json
