import NetIntent.Data.Text
import NetIntent.Json.Value

namespace NetIntent

/-!
# Faults of the stores

Which calls of the stores fail. A fault applies to calls of one method whose subject holds a piece
of text; it lets some of them pass and then answers a number of them in the store's place.

* `StoreCall` — a call as a fault sees it;
* `Fault`, `Faults` — one fault, and all of them in the order in which they are tried;
* `Faults.consult` — the first fault that answers a call, and the faults after the call.
-/

/-- The methods of the two stores. -/
inductive StoreMethod where
  | put | get | delete | deleteAll | allKeys | contextHealth
  | insert | find | remove | removeTag | documentHealth
deriving DecidableEq, Inhabited

/-- The name of a method. -/
def StoreMethod.name : StoreMethod → String
  | put => "put"
  | get => "get"
  | delete => "delete"
  | deleteAll => "delete_all"
  | allKeys => "get_all_keys"
  | insert => "insert"
  | find => "find"
  | remove => "remove"
  | removeTag => "remove_tag"
  | contextHealth | documentHealth => "health_check"

/-- The methods of the context store. -/
def StoreMethod.ofContexts : List StoreMethod :=
  [put, get, delete, deleteAll, allKeys, contextHealth]

/-- The methods of the document store. -/
def StoreMethod.ofDocuments : List StoreMethod :=
  [insert, find, remove, removeTag, documentHealth]

/-- A call of a store: its method, and the key, the piece of a key or the tag that it is about. -/
structure StoreCall where
  method : StoreMethod
  subject : String := ""
deriving DecidableEq, Inhabited

/-- What a fault does to a call. -/
inductive FaultEffect where
  /-- The call fails, without effect. -/
  | fail
  /-- A read finds this value, or nothing. -/
  | value (v : Option Json)
  /-- A search finds these values. -/
  | values (vs : List Json)
deriving DecidableEq, Inhabited

/-- A fault of a store. -/
structure Fault where
  method : StoreMethod
  /-- What the subject of a call has to hold. -/
  holds : String := ""
  /-- How many calls pass before the first that is answered. -/
  skip : Nat := 0
  /-- How many calls are answered. -/
  times : Nat := 1
  effect : FaultEffect := .fail
deriving DecidableEq, Inhabited

/-- Whether the fault is about the call and not used up. -/
def Fault.applies (f : Fault) (call : StoreCall) : Bool :=
  decide (f.method = call.method ∧ 0 < f.times) && Text.holds f.holds call.subject

/-- All faults, in the order in which they are tried. -/
abbrev Faults := List Fault

/-- The effect of the first fault that answers the call, and the faults after it. A fault that lets
    the call pass hands it on to the next. -/
def Faults.consult (call : StoreCall) : Faults → Option FaultEffect × Faults
  | [] => (none, [])
  | f :: rest =>
    if f.applies call then
      match f.skip with
      | 0 => (some f.effect, ⟨f.method, f.holds, 0, f.times - 1, f.effect⟩ :: rest)
      | skip + 1 =>
        let (effect, rest) := Faults.consult call rest
        (effect, ⟨f.method, f.holds, skip, f.times, f.effect⟩ :: rest)
    else
      let (effect, rest) := Faults.consult call rest
      (effect, f :: rest)

end NetIntent
