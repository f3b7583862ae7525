import NetIntent.Error

namespace NetIntent

/-!
# The resource synchronizer

The remote service that installs a context's resources on the clusters, or removes them. A request
is bounded by a time limit and may be cancelled; after either its outcome is unknown.

* `Reply`, `Answer` — what the synchronizer says to a request, and how long that takes it;
* `Synchronizer` — how requests are answered at present, and which were accepted;
* `Cancellation` — when the caller gives a request up;
* `Synchronizer.ask` — one request: its result, the time it took, and the synchronizer after it.
-/

/-- What the synchronizer is asked to do with a context. -/
inductive Request where
  | install
  | uninstall
deriving DecidableEq, Inhabited

/-- The name of a request. -/
def Request.name : Request → String
  | install => "InstallApp"
  | uninstall => "UninstallApp"

/-- What the synchronizer says to a request. -/
inductive Reply where
  | accepted
  /-- The request is declined, with a message. -/
  | declined (message : String)
  /-- There is no connection. -/
  | unavailable
  /-- The request fails on its way. -/
  | failed (details : String)
deriving DecidableEq, Inhabited

/-- How the synchronizer answers. -/
inductive Answer where
  /-- Every request has the reply, which takes a while. -/
  | after (delayMs : Nat) (reply : Reply)
  /-- No request is ever answered. -/
  | never
deriving DecidableEq, Inhabited

namespace Answer

/-! A synchronizer for tests replies at once, or never. -/

/-- Every request is accepted. -/
def accept : Answer := .after 0 .accepted

/-- Every request is declined. -/
def reject : Answer := .after 0 (.declined "Mock rejection")

/-- Every request fails on its way. -/
def error : Answer := .after 0 (.failed "Mock transport failure")

/-- There is no connection. -/
def unavailable : Answer := .after 0 .unavailable

/-- No request is ever answered. -/
def hang : Answer := .never

/-- How long a request waits for its answer, and the reply if there is one within the limit. -/
def within (limitMs : Nat) : Answer → Nat × Option Reply
  | .after delayMs reply => if delayMs ≤ limitMs then (delayMs, some reply) else (limitMs, none)
  | .never => (limitMs, none)

end Answer

/-- When the caller gives a request up. Times are in milliseconds. -/
inductive Cancellation where
  | never
  /-- Before the request begins. -/
  | atOnce
  /-- At a point in time. -/
  | atTime (time : Nat)
deriving DecidableEq, Inhabited

/-- The request is given up before it begins at the given time. -/
def Cancellation.precedes (c : Cancellation) (start : Nat) : Bool :=
  match c with
  | never => false
  | atOnce => true
  | atTime time => decide (time < start)

/-- When a request that waits up to a deadline ends, and whether by cancellation. -/
def Cancellation.outcome (c : Cancellation) (deadline : Nat) : Nat × Bool :=
  match c with
  | atTime time => if time < deadline then (time, true) else (deadline, false)
  | _ => (deadline, false)

/-- The synchronizer: how it answers, and the ids of the contexts in the order of its requests. -/
structure Synchronizer where
  answer : Answer := .accept
  /-- The requests to install that were answered as accepted. -/
  installed : List String := []
  /-- The requests to uninstall that were answered as accepted. -/
  uninstalled : List String := []
  /-- All requests that began to run. -/
  begun : List (Request × String) := []
deriving DecidableEq, Inhabited

namespace Synchronizer

/-- The name of the service. -/
def serviceName : String := "rsync"

/-- What a request comes to if it has the reply. -/
def result (request : Request) (id : String) : Reply → Except Failure Unit
  | .accepted => .ok ()
  | .declined message => .error (.rsyncFailed request.name id message)
  | .unavailable => .error (.rsyncUnavailable serviceName)
  | .failed details => .error (.rsyncFailed request.name id ("RPC failed: " ++ details))

/-- Record a request that begins to run. -/
def begin (s : Synchronizer) (request : Request) (id : String) : Synchronizer :=
  ⟨s.answer, s.installed, s.uninstalled, s.begun ++ [(request, id)]⟩

/-- Record an accepted request. -/
def accept (s : Synchronizer) (request : Request) (id : String) : Synchronizer :=
  match request with
  | .install => ⟨s.answer, s.installed ++ [id], s.uninstalled, s.begun⟩
  | .uninstall => ⟨s.answer, s.installed, s.uninstalled ++ [id], s.begun⟩

/-- Make a request about a context at a point in time: the result, the time afterwards, and the
    synchronizer afterwards. A request that was given up before does not begin. One that begins ends
    with its reply, by cancellation, or at its time limit, whichever is first. -/
def ask (s : Synchronizer) (request : Request) (id : String) (limitMs start : Nat)
    (cancellation : Cancellation) : Except Failure Unit × Nat × Synchronizer :=
  if cancellation.precedes start then (.error (.cancelled request.name), start, s)
  else
    let s := s.begin request id
    let (waitMs, reply) := s.answer.within limitMs
    match cancellation.outcome (start + waitMs), reply with
    | (time, true), _ => (.error (.cancelled request.name), time, s)
    | (time, false), none => (.error (.rsyncTimeout request.name id limitMs), time, s)
    | (time, false), some reply =>
      (result request id reply, time, if reply = .accepted then s.accept request id else s)

end Synchronizer

end NetIntent
