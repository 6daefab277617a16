import ClusterControl.Flow.Job

/-!
# The scheduler of flows

The scheduler keeps a registry with at most one flow per resource and one job per started flow. A
start first claims its resource in the registry, then accepts, and gives the resource back when
the requester has left. Flows of an unchecked handler never enter the registry, so nothing cancels
them.
-/

namespace ClusterControl

open ClusterControl.Flow in
structure Scheduler (σ κ : Type) where
  handlers : Selector → Option (Handler σ κ)
  registry : Registry := []
  /-- The flows that somebody asked to cancel. -/
  marked : List Id := []
  jobs : List (Job κ) := []
  nextId : Id := 0
  world : σ

namespace Scheduler

open ClusterControl.Flow

variable {σ κ : Type}

def isRunning (m : Scheduler σ κ) (resourceId : String) : Bool := m.registry.isRunning resourceId

/-- What a start comes to before its signal is resolved. -/
inductive Claim where
  | noHandler
  | busy
  | claimed (context : Context)
  | unchecked (context : Context)
deriving DecidableEq, Repr

def Claim.resolution : Claim → Resolution
  | noHandler | busy => .reject
  | claimed _ => .accept
  | unchecked _ => .unwired

def Claim.published (s : Start) : Claim → Except FlowError Unit
  | noHandler => .error (.handlerNotFound s.selector.event)
  | _ => .ok ()

/-- The first section of a start: the resource is claimed unless it has a flow. -/
def claim (m : Scheduler σ κ) (s : Start) : Claim × Scheduler σ κ :=
  match m.handlers s.selector with
  | none => (.noHandler, m)
  | some h =>
    let c : Context := ⟨m.nextId, s⟩
    match h.admission with
    | .unchecked => (.unchecked c, { m with nextId := m.nextId + 1 })
    | .exclusive =>
      match m.registry.claim? c with
      | none => (.busy, { m with nextId := m.nextId + 1 })
      | some g => (.claimed c, { m with registry := g, nextId := m.nextId + 1 })

def release (m : Scheduler σ κ) (c : Context) : Scheduler σ κ :=
  { m with registry := m.registry.release c.start.resource.id c.id }

def spawn (m : Scheduler σ κ) (c : Context) : Scheduler σ κ :=
  { m with jobs := m.jobs ++ [⟨c, .ready⟩] }

/-- The last section of a start, told whether the resolution of its signal lets the flow start. -/
def conclude (m : Scheduler σ κ) (granted : Bool) : Claim → Scheduler σ κ
  | .noHandler | .busy => m
  | .claimed c => if granted then m.spawn c else m.release c
  | .unchecked c => if granted then m.spawn c else m

/-- A whole start, given the policy of its requester and whether it still waits. -/
def start (m : Scheduler σ κ) (s : Start) (policy : UnwiredPolicy) (waiting : Bool) :
    Claim × Scheduler σ κ :=
  let (claim, m) := m.claim s
  (claim, m.conclude (claim.resolution.grants policy waiting) claim)

def cancel (m : Scheduler σ κ) (resourceId : String) : Scheduler σ κ :=
  match m.registry.flow? resourceId with
  | some e => { m with marked := m.marked ++ [e.id] }
  | none => m

def isCancelled (m : Scheduler σ κ) (c : Context) : Bool := m.marked.contains c.id

/-- Where a job is after its handler was looked at, and the world then. -/
def advanceHandler (m : Scheduler σ κ) (t : Job κ) (now : Instant) : Job κ × σ :=
  let settle (begun : Instant) (course : Course κ) : Job κ :=
    let p := course now
    match p.ending with
    | none => { t with phase := .live begun course }
    | some (finish, .returned result) =>
      { t with phase := .ended begun finish p.calls (.finished result) }
    | some (finish, .crashed) => { t with phase := .ended begun finish p.calls .crashed }
  match t.phase with
  | .ready =>
    match m.handlers t.context.start.selector with
    | none => (t, m.world)
    | some h =>
      let (course, world) := h.begin t.context now m.world
      (settle now course, world)
  | .live begun course => (settle begun course, m.world)
  | .ended .. => (t, m.world)

/-- A cancelled job at the instant when it notices. -/
def dropJob (t : Job κ) (now : Instant) : Job κ :=
  match t.phase with
  | .ready => { t with phase := .ended now now [] .dropped }
  | .live begun course => { t with phase := .ended begun now (course now).calls .dropped }
  | .ended .. => t

/-- A job that runs at an instant: it ends if it was asked to stop, and otherwise its handler goes
on. When both could end it, the branch that is looked at first decides. -/
def runJob (m : Scheduler σ κ) (first : Branch) (t : Job κ) (now : Instant) : Job κ × σ :=
  if m.isCancelled t.context then
    match first with
    | .cancel => (dropJob t now, m.world)
    | .handler =>
      let (t, world) := m.advanceHandler t now
      (dropJob t now, world)
  else m.advanceHandler t now

/-- The clean-up after a job: whatever has ended, except by a crash, gives its resource back. -/
def cleanUp (m : Scheduler σ κ) (t : Job κ) : Scheduler σ κ :=
  match t.phase with
  | .ended _ _ _ (.finished _) | .ended _ _ _ .dropped => m.release t.context
  | _ => m

/-- Runs the jobs in the order of their starts. The first argument holds the jobs that were run
already. -/
def settleJobs (first : Branch) (now : Instant) :
    Scheduler σ κ → List (Job κ) → List (Job κ) → Scheduler σ κ
  | m, before, [] => { m with jobs := before }
  | m, before, t :: rest =>
    if t.isLive then
      let (t, world) := m.runJob first t now
      settleJobs first now ({ m with world }.cleanUp t) (before ++ [t]) rest
    else settleJobs first now m (before ++ [t]) rest

/-- Everything that can run at an instant runs. -/
def settle (m : Scheduler σ κ) (now : Instant) (first : Branch := .cancel) : Scheduler σ κ :=
  settleJobs first now m [] m.jobs

/-- The jobs whose handlers have begun, in the order of runs. -/
def runs (m : Scheduler σ κ) : List (Job κ) :=
  (m.jobs.filter fun j => j.begun?.isSome).mergeSort Job.notAfter

/-- The request of a requester that publishes to this scheduler and looks at once, and the scheduler
after it. -/
def trigger (m : Scheduler σ κ) (config : DispatcherConfig) (s : Start) (now : Instant) :
    Request × Scheduler σ κ :=
  let r := Request.new config s now
  let (claim, m) := m.start s config.unwired r.waiting
  (((r.resolve claim.resolution).publicationEnds (claim.published s)).look now, m)

end Scheduler

end ClusterControl
