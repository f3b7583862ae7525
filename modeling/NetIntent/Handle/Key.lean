import NetIntent.Error
import NetIntent.Handle.Basic

namespace NetIntent

/-!
# Keys of handles

The key under which a node is stored: `/context/`, the id, and the steps, each word ended by a
slash. A named level is its word and its name, an instruction the level, the reserved word and the
kind.

* `Handle.key` — the key of a handle;
* `Handle.parse` — the handle of a key, deciding by the next two words whether a level's word
  starts a named level, starts an instruction, or stands alone;
* `validateName` — the names for which the two are inverse to each other.
-/

/-- What every key of a context begins with. -/
def contextPrefix : String := "/context/"

namespace Segment

/-- The words of a step. -/
def words : Segment → List String
  | level l n => [l, n]
  | leaf w => [w]
  | instruction l k => [l, instructionWord, k]

end Segment

namespace Handle

/-- The words of a key, each ended by a slash. -/
def joinWords (words : List String) : List Char :=
  words.flatMap fun w => w.toList ++ ['/']

/-- The words of a handle: its context id and those of its steps. -/
def words (h : Handle) : List String := h.contextId :: h.segments.flatMap Segment.words

/-- The key of a handle. -/
def key (h : Handle) : String := String.ofList (contextPrefix.toList ++ joinWords h.words)

/-- Why a text is no key of a handle. -/
inductive KeyFault where
  | foreign
  | openEnd
  | emptyId
  | emptyWord
  | emptyKind
  | emptyName
deriving DecidableEq

/-- The reason as it is reported. -/
def KeyFault.reason : KeyFault → String
  | foreign => "missing /context/ prefix"
  | openEnd => "missing trailing '/'"
  | emptyId => "empty context id"
  | emptyWord => "empty path segment"
  | emptyKind => "instruction without a type"
  | emptyName => "empty level name"

/-- The steps that the words of a key spell. -/
def parseWords : List String → Except KeyFault (List Segment)
  | [] => .ok []
  | word :: rest =>
    if word = "" then .error .emptyWord
    else if word ∈ namedLevels then
      match rest with
      | [] => .ok [.leaf word]
      | name :: rest =>
        if name = instructionWord then
          match rest with
          | [] => .error .emptyKind
          | kind :: rest =>
            if kind = "" then .error .emptyKind
            else (parseWords rest).map (.instruction word kind :: ·)
        else if name = "" then .error .emptyName
        else (parseWords rest).map (.level word name :: ·)
    else (parseWords rest).map (.leaf word :: ·)

/-- The characters of a key after what all keys begin with and before its last slash. -/
def keyBody? (key : String) : Except KeyFault (List Char) :=
  if Text.beginsWith contextPrefix key then
    let rest := key.toList.drop contextPrefix.toList.length
    if rest.getLast? = some '/' then .ok rest.dropLast else .error .openEnd
  else .error .foreign

/-- The handle of a key, or why there is none. -/
def parseKey (key : String) : Except KeyFault Handle :=
  match keyBody? key with
  | .error fault => .error fault
  | .ok body =>
    match (Text.pieces '/' body).map String.ofList with
    | [] => .error .emptyId
    | id :: words =>
      if id = "" then .error .emptyId else (parseWords words).map fun segments => ⟨id, segments⟩

/-- The handle of a key. -/
def parse (key : String) : Except Failure Handle :=
  (parseKey key).mapError fun fault => .invalidHandle key fault.reason

end Handle

/-- A name of a level or a node that keeps the keys unambiguous: not empty, without a slash, and not
    the reserved word. -/
def validateName (field name : String) : Except Failure Unit :=
  if name = "" then .error (.validation field "must not be empty")
  else if Text.hasChar '/' name then .error (.validation field "must not contain '/'")
  else if name = instructionWord then
    .error (.validation field "'instruction' is a reserved name")
  else .ok ()

end NetIntent
