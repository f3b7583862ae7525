import NetIntent.Data.Alphanumeric
import NetIntent.Data.Blank
import NetIntent.Data.OrderedMap

namespace NetIntent

/-!
# Environment files

A text of assignments of variables, one a line. A value may stand between quotes of either kind and
go on in the next line inside them; a backslash takes away the meaning of the next character; a
dollar sign stands for the value of a variable, except between single quotes; and a comment follows
a blank.

* `EnvFile.logicalLines` — the lines, each with those that it goes on in;
* `EnvFile.assignment?` — the variable and the value of a line;
* `EnvFile.load` — the environment after a file. Variables that are set already keep their value,
  and nothing is read after the first malformed line.
-/

namespace EnvFile

/-- The values of variables by their names. -/
abbrev Environment := OrderedMap String

/-! ### Lines -/

/-- What a place in a line is inside of. -/
inductive LineState where
  | plain
  /-- Right after a blank. -/
  | blank
  /-- Right after a backslash. -/
  | escaped
  | single
  | singleEscaped
  | double
  | doubleEscaped
deriving DecidableEq

/-- The state after a character. -/
def LineState.next : LineState → Char → LineState
  | plain, c =>
    if Text.isBlank c && c ≠ '\n' && c ≠ '\r' then blank
    else if c = '\\' then escaped
    else if c = '"' then double
    else if c = '\'' then single
    else plain
  | blank, c =>
    if c = '\\' then escaped else if c = '"' then double else if c = '\'' then single else plain
  | escaped, _ => plain
  | single, c => if c = '\\' then singleEscaped else if c = '\'' then plain else single
  | singleEscaped, _ => single
  | double, c => if c = '\\' then doubleEscaped else if c = '"' then plain else double
  | doubleEscaped, _ => double

/-- The characters of a line up to a comment, and the state at the end of the line if there is no
    comment. -/
def scanLine (s : LineState) : List Char → List Char × Option LineState
  | [] => ([], some s)
  | c :: rest =>
    if s = .blank ∧ c = '#' then ([], none)
    else
      let (kept, last) := scanLine (s.next c) rest
      (c :: kept, last)

/-- The lines of a text, each with the line feed that ends it. -/
def physicalLines : List Char → List (List Char)
  | [] => []
  | c :: rest =>
    if c = '\n' then [c] :: physicalLines rest
    else
      match physicalLines rest with
      | [] => [[c]]
      | line :: more => (c :: line) :: more

/-- A line without its end. -/
def dropLineEnd (line : List Char) : List Char :=
  match line.reverse with
  | '\n' :: '\r' :: before => before.reverse
  | '\n' :: before => before.reverse
  | _ => line

/-- A line of which nothing but a comment is left. -/
def isComment (line : List Char) : Bool := (Text.trimStart line).head? = some '#'

/-- The lines, each with those that it goes on in; `none` for a line that goes on at the end of the
    text. -/
def joinLines (begun : List Char) (s : LineState) : List (List Char) → List (Option (List Char))
  | [] => if s = .plain then [] else [none]
  | line :: rest =>
    if isComment (begun ++ line) then some [] :: joinLines [] .plain rest
    else
      match scanLine s line with
      | (kept, none) => some (begun ++ kept) :: joinLines [] .plain rest
      | (_, some .plain) => some (dropLineEnd (begun ++ line)) :: joinLines [] .plain rest
      | (_, some s) => joinLines (begun ++ line) s rest

/-- The lines of a text, each with those that it goes on in. A byte order mark is passed over. -/
def logicalLines (text : String) : List (Option (List Char)) :=
  let cs := text.toList
  let cs := if cs.head? = some '\ufeff' then cs.drop 1 else cs
  joinLines [] .plain (physicalLines cs)

/-! ### Values -/

/-- What a place in a value is inside of. -/
inductive ValueState where
  | text
  /-- Right after a backslash. -/
  | escaped
  /-- Between single quotes. -/
  | single
  /-- After the value, where only blanks and a comment may follow. -/
  | done
  /-- In the name of a variable after a dollar sign. -/
  | reference (name : List Char)
  /-- In the name of a variable between braces. -/
  | bracedReference (name : List Char)

/-- The character that one stands for after a backslash. -/
def unescape? (c : Char) : Option Char :=
  if c = 'n' then some '\n'
  else if ['\\', '\'', '"', '$', ' '].contains c then some c
  else none

/-- The value that is left of a line. Between double quotes blanks and single quotes stand for
    themselves. -/
def valueFrom? (lookup : String → String) (quoted : Bool) :
    ValueState → List Char → Option (List Char)
  | .reference name, [] =>
    if quoted then none else some (lookup (String.ofList name)).toList
  | .bracedReference _, [] | .single, [] => none
  | .text, [] | .escaped, [] | .done, [] => if quoted then none else some []
  | .done, c :: rest =>
    if c = ' ' ∨ c = '\t' then valueFrom? lookup quoted .done rest
    else if c = '#' then some []
    else none
  | .escaped, c :: rest =>
    match unescape? c with
    | some c => (valueFrom? lookup quoted .text rest).map (c :: ·)
    | none => none
  | .single, c :: rest =>
    if c = '\'' then valueFrom? lookup quoted .text rest
    else (valueFrom? lookup quoted .single rest).map (c :: ·)
  | .reference name, c :: rest =>
    if Text.isAlphanumeric c then valueFrom? lookup quoted (.reference (name ++ [c])) rest
    else if c = '\x7b' ∧ name = [] then valueFrom? lookup quoted (.bracedReference []) rest
    else
      let value := (lookup (String.ofList name)).toList
      if c = '$' then (valueFrom? lookup quoted (.reference []) rest).map (value ++ ·)
      else (valueFrom? lookup quoted .text rest).map fun more => value ++ c :: more
  | .bracedReference name, c :: rest =>
    if c = '\x7d' then
      let value := (lookup (String.ofList name)).toList
      (valueFrom? lookup quoted .text rest).map (value ++ ·)
    else valueFrom? lookup quoted (.bracedReference (name ++ [c])) rest
  | .text, c :: rest =>
    if c = '$' then valueFrom? lookup quoted (.reference []) rest
    else if c = '\\' then valueFrom? lookup quoted .escaped rest
    else if c = '"' then valueFrom? lookup (!quoted) .text rest
    else if quoted then (valueFrom? lookup quoted .text rest).map (c :: ·)
    else if c = '\'' then valueFrom? lookup quoted .single rest
    else if c = ' ' ∨ c = '\t' then valueFrom? lookup quoted .done rest
    else (valueFrom? lookup quoted .text rest).map (c :: ·)

/-! ### Assignments -/

/-- A character that begins a name. -/
def beginsName (c : Char) : Bool := c.isAlpha || c = '_'

/-- A character inside a name. -/
def isNameChar (c : Char) : Bool := c.isAlphanum || c = '_' || c = '.'

/-- The name at the start of a line, and what follows after blanks. -/
def name? (cs : List Char) : Option (String × List Char) :=
  if cs.head?.any beginsName then
    some (String.ofList (cs.takeWhile isNameChar), Text.trimStart (cs.dropWhile isNameChar))
  else none

/-- What follows an equals sign. -/
def afterEquals? : List Char → Option (List Char)
  | '=' :: rest => some rest
  | _ => none

/-- The name that a line assigns to, and what follows the equals sign. A word in front of the name
    marks the variable for export. -/
def target? (cs : List Char) : Option (String × List Char) := do
  let (name, rest) ← name? cs
  match afterEquals? rest with
  | some rest => some (name, rest)
  | none =>
    if name = "export" then
      let (name, rest) ← name? rest
      let rest ← afterEquals? rest
      some (name, rest)
    else none

/-- The variable and the value of a line; `some none` for an empty line or a comment, `none` for a
    malformed one. -/
def assignment? (lookup : String → String) (line : List Char) :
    Option (Option (String × String)) :=
  let cs := Text.trim line
  if cs.isEmpty ∨ cs.head? = some '#' then some none
  else
    match target? cs with
    | none => none
    | some (name, rest) =>
      let rest := Text.trimStart rest
      if rest.isEmpty ∨ rest.head? = some '#' then some (some (name, ""))
      else (valueFrom? lookup false .text rest).map fun value => some (name, String.ofList value)

/-- The value of a variable: that of the environment, or else the last one in the file. -/
def lookup (env file : Environment) (name : String) : String :=
  (env.get? name).getD ((file.get? name).getD "")

/-- Set the variables of lines, up to the first malformed one. -/
def loadLines (env file : Environment) : List (Option (List Char)) → Environment
  | [] | none :: _ => env
  | some line :: rest =>
    match assignment? (lookup env file) line with
    | none => env
    | some none => loadLines env file rest
    | some (some (name, value)) =>
      loadLines (if env.contains name then env else env.insert name value)
        (file.insert name value) rest

/-- The environment after a file. -/
def load (env : Environment) (text : String) : Environment :=
  loadLines env .empty (logicalLines text)

end EnvFile

end NetIntent
