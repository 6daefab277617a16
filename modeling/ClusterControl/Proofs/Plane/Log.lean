import ClusterControl.Plane.Run
import ClusterControl.Proofs.Flow.Scheduler

/-!
# The log of a control plane

A run of a control plane is cut into events: an operation is called, a repair is cancelled or waited
for, time passes, the job of a flow runs or cleans up. The log records what each event shows from
the outside. Jobs run whenever they like, so an operation may be called before the flow of the last
one has run at all.
-/

namespace ClusterControl

open ClusterControl.Flow

inductive Operation where
  | create (resource : Resource) (user : String)
  | repair (resource : Resource) (user : String) (request : RepairRequest)
  | delete (resource : Resource) (user : String)
deriving DecidableEq, Repr

namespace Operation

def start : Operation → Start
  | create r user => ⟨.create, r, user, .none⟩
  | repair r user request => ⟨.repair, r, user, .repair request⟩
  | delete r user => ⟨.delete, r, user, .none⟩

def resource : Operation → Resource
  | create r _ | repair r _ _ | delete r _ => r

def request : Operation → StackRequest
  | create .. => .create
  | repair _ _ request => .repair request.hostGroups
  | delete .. => .delete

variable {σ : Type}

def perform (d : Deployment σ) (c : Clocked σ StackCall) :
    Operation → Except PlaneError Resource × Clocked σ StackCall
  | create r user => Clusters.create d.dispatch c r user
  | repair r user request => Clusters.repair d.dispatch c r user request
  | delete r user => Clusters.delete d.dispatch c r user

theorem perform_eq (d : Deployment σ) (c : Clocked σ StackCall) (op : Operation) :
    op.perform d c = Clusters.trigger d.dispatch c op.start := by
  cases op <;> rfl

theorem resource_start (op : Operation) : op.start.resource = op.resource := by
  cases op <;> rfl

theorem request_start (op : Operation) :
    Stack.request op.start.selector op.start.payload = op.request := by
  cases op <;> rfl

end Operation

inductive PlaneEvent where
  | operate (operation : Operation)
  | cancel (resource : Resource)
  | watch (resource : Resource)
  | pass (ms : Nat)
  | work (i : Nat) (first : Branch)
  | cleanUp (i : Nat)

inductive PlaneRecord where
  | answered (operation : Operation) (result : Except PlaneError Resource)
  | admitted (flow : Context)
  | cancelled (resourceId : String)
  | ran (flow : Context)
  | called (flow : Context) (call : Instant × StackCall)
  /-- A call of someone who waits for a repair. -/
  | watched (call : Instant × StackCall)
  | released (flow : Context)

/-- Whether a record shows what the job of a flow does. -/
def PlaneRecord.IsOf (flow : Context) : PlaneRecord → Prop
  | ran f | called f _ | released f => f = flow
  | _ => False

abbrev PlaneLog := List PlaneRecord

namespace Deployment

variable {σ : Type}

def step (d : Deployment σ) (c : Clocked σ StackCall) : PlaneEvent → Clocked σ StackCall
  | .operate op => (op.perform d c).2
  | .cancel r => { c with flows := c.flows.cancel r.id }
  | .watch _ => c
  | .pass ms => { c with now := c.now + ms }
  | .work i first => { c with flows := c.flows.work i first c.now }
  | .cleanUp i =>
    match c.flows.jobs[i]? with
    | some t => { c with flows := c.flows.cleanUp t }
    | none => c

def after (d : Deployment σ) (c : Clocked σ StackCall) (es : List PlaneEvent) :
    Clocked σ StackCall :=
  es.foldl d.step c

/-- The calls of a job since an instant, when it has become another by a later one. -/
def made (t u : Job StackCall) (now later : Instant) : PlaneLog :=
  ((u.calls later).drop (t.calls now).length).map (.called t.context)

/-- The records of an event. A flow is admitted with its job, and released when its entry in the
registry is gone. -/
def records (d : Deployment σ) (c : Clocked σ StackCall) : PlaneEvent → PlaneLog
  | .operate op =>
    .answered op (op.perform d c).1 ::
      ((op.perform d c).2.flows.jobs.drop c.flows.jobs.length).map (.admitted ·.context)
  | .cancel r => [.cancelled r.id]
  | .watch r =>
    (Clusters.watchRepair d.clock d.plane.terms d.provisioner c.flows.world r c.now).starts.map
      fun t => .watched (t, .status r)
  | .pass ms => c.flows.jobs.flatMap fun t => made t t c.now (c.now + ms)
  | .work i first =>
    match c.flows.jobs[i]? with
    | some t =>
      if t.isLive then
        .ran t.context :: made t (c.flows.runJob first t c.now).1 c.now c.now
      else []
    | none => []
  | .cleanUp i =>
    match c.flows.jobs[i]? with
    | some t =>
      if c.flows.registry.contains (.ofContext t.context) &&
          !(c.flows.cleanUp t).registry.contains (.ofContext t.context) then
        [.released t.context]
      else []
    | none => []

def log (d : Deployment σ) (c : Clocked σ StackCall) : List PlaneEvent → PlaneLog
  | [] => []
  | e :: es => d.records c e ++ log d (d.step c e) es

end Deployment

namespace PlaneLog

def successes (log : PlaneLog) : List Operation :=
  log.filterMap fun
    | .answered op (.ok _) => some op
    | _ => none

def flows (log : PlaneLog) : List Context :=
  log.filterMap fun
    | .admitted flow => some flow
    | _ => none

def callsOf (log : PlaneLog) (flow : Context) : List (Instant × StackCall) :=
  log.filterMap fun
    | .called f call => if f = flow then some call else none
    | _ => none

/-- A flow is admitted and not released. -/
def Open (log : PlaneLog) (flow : Context) : Prop :=
  .admitted flow ∈ log ∧ .released flow ∉ log

def OpenAlone (log : PlaneLog) (flow : Context) : Prop :=
  log.Open flow ∧ ∀ other, log.Open other →
    other.start.resource.id = flow.start.resource.id → other = flow

/-- A flow was asked to stop after its admission and before its job ran. -/
def StoppedEarly (log : PlaneLog) (flow : Context) : Prop :=
  ∃ before after, log = before ++ .cancelled flow.start.resource.id :: after ∧
    .admitted flow ∈ before ∧ .ran flow ∉ before

/-- What a flow does for its operation: one request, and otherwise only looks at the stack. There is
no request before its job has run, and there may be none if it was asked to stop before that. -/
def Serves (log : PlaneLog) (op : Operation) (flow : Context) : Prop :=
  (.ran flow ∉ log → log.callsOf flow = []) ∧
  (.ran flow ∈ log →
    (∃ begun, ∃ looks : List Instant, log.callsOf flow =
      (begun, .request op.resource op.request) :: looks.map fun t => (t, .status op.resource)) ∨
    log.callsOf flow = [] ∧ log.StoppedEarly flow)

/-- Every call of a flow belongs to one operation that has succeeded. -/
structure Attributed (log : PlaneLog) : Prop where
  distinct : (log.flows.map Context.id).Nodup
  starts : log.flows.map Context.start = log.successes.map Operation.start
  serves : ∀ p ∈ log.successes.zip log.flows, log.Serves p.1 p.2
  called : ∀ flow call, .called flow call ∈ log → flow ∈ log.flows
  watched : ∀ call, .watched call ∈ log → ∃ r, call.2 = .status r

def EachCall (log : PlaneLog) (p : PlaneLog → Context → Instant × StackCall → Prop) : Prop :=
  ∀ before flow call after, log = before ++ .called flow call :: after → p before flow call

def Exclusive (log : PlaneLog) : Prop := log.EachCall fun before flow _ => before.OpenAlone flow

/-- The calls of different flows of a resource are logged in the order of their instants. -/
def Timely (log : PlaneLog) : Prop :=
  log.EachCall fun before flow call => ∀ other earlier, .called other earlier ∈ before →
    other ≠ flow → other.start.resource.id = flow.start.resource.id → earlier.1 ≤ call.1

end PlaneLog

end ClusterControl
