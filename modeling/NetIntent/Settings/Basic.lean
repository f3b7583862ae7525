import NetIntent.Report.Query
import NetIntent.Settings.EnvFile

namespace NetIntent

/-!
# Settings

What a service is configured with through variables of the environment.

* `Settings.ofEnvironment` — the settings of an environment, or the variable that is wrong.
-/

/-- The settings of a service. -/
structure Settings where
  /-- The address of the database of contexts; without one they are kept in memory. -/
  contextUrl : Option String := none
  /-- The address of the database of documents; without one they are kept in memory. -/
  documentUrl : Option String := none
  /-- The time limit of a request, in milliseconds. -/
  limitMs : Nat := 10000
  /-- The output of a status query that names none. -/
  output : StatusOutput := .all
deriving DecidableEq, Inhabited

/-- A variable with a value that is not valid. -/
inductive SettingsFault where
  | limit
  | output
deriving DecidableEq

namespace Settings

/-- The variable with the address of the database of contexts. -/
def contextUrlVariable : String := "NCM_CONTEXT_DB_URL"

/-- The variable with the address of the database of documents. -/
def documentUrlVariable : String := "NCM_DOCUMENT_DB_URL"

/-- The variable with the time limit. -/
def limitVariable : String := "NCM_RSYNC_TIMEOUT_SECS"

/-- The variable with the output. -/
def outputVariable : String := "NCM_STATUS_DEFAULT_OUTPUT"

end Settings

/-- What is reported of a wrong variable. -/
def SettingsFault.message : SettingsFault → String
  | limit => "invalid value for " ++ Settings.limitVariable ++ ": must be a positive integer"
  | output =>
    "invalid value for " ++ Settings.outputVariable ++ ": must be one of summary, all, detail"

namespace Settings

/-- The natural of 64 bits that a text spells: digits, with a plus sign or without. -/
def natural? (text : String) : Option Nat :=
  let digits :=
    match text.toList with
    | '+' :: rest => rest
    | cs => cs
  if digits.isEmpty || !digits.all Char.isDigit then none
  else
    let n := digits.foldl (fun n c => n * 10 + (c.toNat - '0'.toNat)) 0
    if n < Nat.pow 2 64 then some n else none

/-- The address in a variable; an empty one is none. -/
def url? (env : EnvFile.Environment) (name : String) : Option String :=
  (env.get? name).filter fun url => !decide (url = "")

/-- The time limit of an environment. It is given in seconds and has to be positive. -/
def limit (env : EnvFile.Environment) : Except SettingsFault Nat :=
  match env.get? limitVariable with
  | none => .ok ({} : Settings).limitMs
  | some text =>
    match natural? text with
    | some (n + 1) => .ok (1000 * (n + 1))
    | _ => .error .limit

/-- The output of an environment. -/
def outputOf (env : EnvFile.Environment) : Except SettingsFault StatusOutput :=
  match env.get? outputVariable with
  | none => .ok ({} : Settings).output
  | some text => (StatusOutput.parse text).mapError fun _ => .output

/-- The settings of an environment. -/
def ofEnvironment (env : EnvFile.Environment) : Except SettingsFault Settings := do
  let limitMs ← limit env
  let output ← outputOf env
  return ⟨url? env contextUrlVariable, url? env documentUrlVariable, limitMs, output⟩

/-- The settings of an environment and a file of variables. -/
def load (env : EnvFile.Environment) (file : String) : Except SettingsFault Settings :=
  ofEnvironment (EnvFile.load env file)

end Settings

end NetIntent
