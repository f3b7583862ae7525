import NetIntent.Json.Value
import NetIntent.Yaml.Content

namespace NetIntent.Yaml

/-!
# The JSON value of a content

Scalars stand for what their tag says or, without a tag and without quotes, for what they look
like. A tag of the document's own has no value, and the keys of a map have to be texts.

* `Content.scalar?` — the value of a scalar;
* `Content.toJson?` — the value of a content.
-/

namespace Content

/-- The tag of a document's own, which stands for no value. -/
def isOwnTag (tag : Option String) : Bool :=
  match tag with
  | some tag => Text.beginsWith "!" tag
  | none => false

/-- The least integer of 64 bits. -/
def minInteger : Int := -Int.pow 2 63

/-- The largest integer of 64 bits without sign. -/
def maxInteger : Int := Int.pow 2 64 - 1

/-- An integer as a value, if it fits into 64 bits. -/
def integer? (n : Int) : Option Json :=
  if minInteger ≤ n ∧ n ≤ maxInteger then some (.number (.int n)) else none

/-- A double as a value; null if it is infinite or no number. -/
def double (x : Binary64) : Json := if x.isFinite then .number (.float x) else .null

/-- The value of what a plain scalar stands for. -/
def resolved? (text : String) : Resolved → Option Json
  | .null => some .null
  | .bool b => some (.bool b)
  | .int n => integer? n
  | .double x => some (double x)
  | .text => some (.string text)

/-- The value of a scalar. -/
def scalar? (tag : Option String) (style : Style) (text : String) : Option Json :=
  let cs := text.toList
  match tag with
  | none => if style = .plain then resolved? text (Plain.resolve cs) else some (.string text)
  | some tag =>
    if isOwnTag tag then none
    else if tag = "tag:yaml.org,2002:bool" then (Plain.bool? cs).map .bool
    else if tag = "tag:yaml.org,2002:int" then (Plain.integer? cs).bind integer?
    else if tag = "tag:yaml.org,2002:float" then (Plain.double? cs).map double
    else if tag = "tag:yaml.org,2002:null" then (if Plain.isNull cs then some .null else none)
    else some (.string text)

mutual

/-- The value of a content. -/
def toJson? : Content → Option Json
  | .scalar tag style text => scalar? tag style text
  | .list tag items => if isOwnTag tag then none else (itemsToJson? items).map .array
  | .map tag members =>
    if isOwnTag tag then none else (membersToJson? members).map Json.ofMembers

/-- The values of a list of items. -/
def itemsToJson? : List Content → Option (List Json)
  | [] => some []
  | c :: rest =>
    match toJson? c, itemsToJson? rest with
    | some v, some vs => some (v :: vs)
    | _, _ => none

/-- The members of a map with their values. -/
def membersToJson? : List (Content × Content) → Option (List (String × Json))
  | [] => some []
  | (k, c) :: rest =>
    match toJson? k, toJson? c, membersToJson? rest with
    | some (.string k), some v, some ms => some ((k, v) :: ms)
    | _, _, _ => none

end

/-- The text of a scalar, whatever it looks like and whatever its tag. -/
def text? : Content → Option String
  | .scalar _ _ text => some text
  | _ => none

/-- Whether nothing is written in the place of a map. -/
def isBlank : Content → Bool
  | .scalar _ style text => style = .plain && text.isEmpty
  | _ => false

/-- The members of a record: a map whose keys are scalars, or nothing at all. -/
def members? : Content → Option (List (String × Content))
  | .map _ members => members.mapM fun (k, c) => k.text?.map fun k => (k, c)
  | c => if c.isBlank then some [] else none

end Content

end NetIntent.Yaml
