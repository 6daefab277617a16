import ClusterControl.Flow.Error
import ClusterControl.Flow.Signal

/-!
# Requests for flows

A requester publishes a start message and waits for its acceptance signal, both within one
timeout. It looks at its work before it looks at the clock, so work that is done at the very
deadline still counts and work that is not done there loses.

What happens to a request is a schedule of moments. Within one instant the publication goes first,
then the requester looks, then come the answers from elsewhere, and the requester looks again.
-/

namespace ClusterControl

/-- The message that starts a flow, its signal apart. -/
structure Start where
  selector : Selector
  resource : Resource
  user : String
  payload : Payload := .none
deriving DecidableEq, Repr

inductive Message where
  | start (request : Start)
  | cancel (resourceId user : String)
deriving DecidableEq, Repr

namespace Message

def event : Message → String
  | start s => s.selector.event
  | cancel _ _ => cancelEvent

def resourceId : Message → String
  | start s => s.resource.id
  | cancel id _ => id

def user : Message → String
  | start s => s.user
  | cancel _ user => user

end Message

/-- When a cancellation returns to its caller, given the end of its publication: then, whatever the
publication gave. -/
def cancelReturn? (publication : Option (Instant × Except FlowError Unit)) : Option Instant :=
  publication.map (·.1)

structure DispatcherConfig where
  timeout : Duration := .ofSecs 10
  unwired : UnwiredPolicy := .reject
deriving DecidableEq, Repr

/-- A request as its requester sees it: what publication gave, how the signal was resolved, and
the result with its time once the requester has one. -/
structure Request where
  start : Start
  config : DispatcherConfig
  called : Instant
  published : Option (Except FlowError Unit)
  resolved : Option Resolution
  result : Option (Instant × Except FlowError Unit)

namespace Request

def new (config : DispatcherConfig) (start : Start) (now : Instant) : Request :=
  ⟨start, config, now, none, none, none⟩

/-- The first instant at which the timeout is over, and the last one at which work still counts. The
clock goes by whole milliseconds and holds every deadline. -/
def deadline (r : Request) : Instant := r.called + r.config.timeout.ceilMillis

def waiting (r : Request) : Bool := r.result.isNone

def verdict (r : Request) : Resolution → Except FlowError Unit
  | .accept => .ok ()
  | .reject => .error (.admissionRejected r.start.resource.id)
  | .unwired =>
    match r.config.unwired with
    | .accept => .ok ()
    | .reject => .error (.admissionRejected r.start.resource.id)
  | .drop =>
    .error (.dispatchFailed ("acceptance wait for resource " ++ r.start.resource.id ++
      " was interrupted"))

/-- The result that the requester's work has come to. -/
def work? (r : Request) : Option (Except FlowError Unit) :=
  match r.published with
  | none => none
  | some (.error e) => some (.error e)
  | some (.ok _) => r.resolved.map r.verdict

/-- The requester looks at its work, then at the clock. -/
def look (r : Request) (now : Instant) : Request :=
  match r.result, r.work? with
  | some _, _ => r
  | none, some result => { r with result := some (now, result) }
  | none, none =>
    if r.deadline ≤ now then
      { r with
        result := some (now, .error (.acceptanceTimeout r.start.resource.id r.config.timeout)) }
    else r

/-- Publication ends. A requester that has left does not see it. -/
def publicationEnds (r : Request) (result : Except FlowError Unit) : Request :=
  if r.waiting then { r with published := some result } else r

/-- The signal is resolved. A requester that has left does not see it. -/
def resolve (r : Request) (resolution : Resolution) : Request :=
  if r.waiting then { r with resolved := some (r.resolved.getD resolution) } else r

/-- What the resolving side learns at this point. -/
def report? (r : Request) (resolution : Resolution) : Option Bool :=
  resolution.report? r.config.unwired r.waiting

/-- What can happen to a request. -/
inductive Event where
  | publicationEnds (result : Except FlowError Unit)
  | resolved (resolution : Resolution)
  | look

def step (r : Request) (now : Instant) : Event → Request
  | .publicationEnds result => r.publicationEnds result
  | .resolved resolution => r.resolve resolution
  | .look => r.look now

/-- A result stays. -/
theorem result_step {r : Request} {x : Instant × Except FlowError Unit} (h : r.result = some x)
    (now : Instant) (e : Event) : (r.step now e).result = some x := by
  cases e with
  | publicationEnds | resolved =>
    simp [step, publicationEnds, resolve, waiting, h]
  | look => simp [step, look, h]

/-- The order of what happens within one instant. -/
inductive Turn where
  | inside
  | publication
  | requester
  | outside
  | afterwards
deriving DecidableEq, Repr

def Turn.rank : Turn → Nat
  | inside => 0
  | publication => 1
  | requester => 2
  | outside => 3
  | afterwards => 4

structure Moment where
  time : Instant
  turn : Turn
  event : Event

namespace Moment

def notAfter (a b : Moment) : Bool :=
  a.time < b.time || a.time == b.time && a.turn.rank ≤ b.turn.rank

end Moment

/-- The answer to a request: when it comes, and whether it comes from inside the publication. -/
structure Answer where
  time : Instant
  inside : Bool
  resolution : Resolution

/-- The moments of a request whose publication ends as given, or never, and whose signal is
resolved as given, or never. The requester looks whenever something happened, and at its
deadline. -/
def schedule (r : Request) (publication : Option (Instant × Except FlowError Unit))
    (answer : Option Answer) : List Moment :=
  let published := match publication with
    | none => []
    | some (t, result) => [⟨t, .publication, .publicationEnds result⟩, ⟨t, .requester, .look⟩]
  let answered := match answer with
    | none => []
    | some a =>
      if a.inside then [⟨a.time, .inside, .resolved a.resolution⟩, ⟨a.time, .requester, .look⟩]
      else [⟨a.time, .outside, .resolved a.resolution⟩, ⟨a.time, .afterwards, .look⟩]
  (published ++ answered ++ [⟨r.deadline, .requester, .look⟩]).mergeSort Moment.notAfter

def play (r : Request) (moments : List Moment) : Request :=
  moments.foldl (fun r m => r.step m.time m.event) r

end Request

end ClusterControl
