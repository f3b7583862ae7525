import NetIntent.Error

namespace NetIntent

/-!
# Status queries

* `StatusSource` — where the status of resources is read from;
* `StatusOutput` — how much of each resource is reported;
* `StatusQuery` — a query, with a filter for each level. An empty filter lets everything pass.
-/

/-- Where the status of resources is read from. -/
inductive StatusSource where
  /-- The context: what was sent, and the status that the synchronizer wrote for each resource. -/
  | rsync
  /-- The snapshot of the cluster that its monitor took. -/
  | cluster
deriving DecidableEq, Inhabited

namespace StatusSource

/-- The word of a source. -/
def name : StatusSource → String
  | rsync => "rsync"
  | cluster => "cluster"

/-- The source with this word. -/
def parse (s : String) : Except Failure StatusSource :=
  match [rsync, cluster].find? fun t => t.name = s with
  | some t => .ok t
  | none =>
    .error (.validation "type"
      ("invalid status type '" ++ s ++ "', expected 'rsync' or 'cluster'"))

end StatusSource

/-- How much of each resource is reported. -/
inductive StatusOutput where
  /-- The counts only. -/
  | summary
  /-- The name, the kind and the status of each resource. -/
  | all
  /-- The whole object too. -/
  | detail
deriving DecidableEq

namespace StatusOutput

/-- A report that is not told otherwise shows everything. -/
instance : Inhabited StatusOutput := ⟨all⟩

/-- The word of an output. -/
def name : StatusOutput → String
  | summary => "summary"
  | all => "all"
  | detail => "detail"

/-- The output with this word. -/
def parse (s : String) : Except Failure StatusOutput :=
  match [summary, all, detail].find? fun o => o.name = s with
  | some o => .ok o
  | none =>
    .error (.validation "output"
      ("invalid output format '" ++ s ++ "', expected 'summary', 'all' or 'detail'"))

end StatusOutput

/-- Whether a filter lets a name pass. -/
def keeps (filter : List String) (name : String) : Bool := filter.isEmpty || filter.contains name

/-- A status query. -/
structure StatusQuery where
  /-- The context to report on; empty for the last one in the ledger. -/
  contextId : String := ""
  source : StatusSource := .rsync
  output : StatusOutput := .all
  /-- The apps that are reported. -/
  apps : List String := []
  /-- The clusters that are reported, by their names inside a context. -/
  clusters : List String := []
  /-- The names of the resources that are reported. -/
  resources : List String := []
deriving DecidableEq, Inhabited

end NetIntent
