import ClusterControl.Flow.Scheduler

/-!
# Runs of a scheduler in virtual time

A run is a list of steps. After each step everything runs that can run then; only a cancellation may
be followed by the next step before the cancelled job has noticed.
-/

namespace ClusterControl

/-- A scheduler at an instant. -/
structure Clocked (σ κ : Type) where
  now : Instant
  flows : Scheduler σ κ

inductive FlowStep where
  | trigger (start : Start)
  /-- Several starts before any of their jobs runs. -/
  | triggerAll (starts : List Start)
  /-- A start whose requester has left already. -/
  | publishDeparted (start : Start)
  | cancel (resource : Resource) (settles : Bool)
  | advance (ms : Nat)
  | isRunning (ids : List String)

inductive FlowReport where
  | nothing
  | result (result : Except FlowError Unit)
  | results (results : List (Except FlowError Unit))
  | running (answers : List Bool)

namespace Clocked

variable {σ κ : Type}

def settle (c : Clocked σ κ) : Clocked σ κ := { c with flows := c.flows.settle c.now }

/-- Time passes until an instant. What can run before it runs first. -/
def passTo (c : Clocked σ κ) (t : Instant) : Clocked σ κ :=
  ({ c.settle with now := t } : Clocked σ κ).settle

/-- A start and its result. The scheduler answers at once. -/
def trigger (config : DispatcherConfig) (c : Clocked σ κ) (s : Start) :
    Except FlowError Unit × Clocked σ κ :=
  let (r, flows) := c.flows.trigger config s c.now
  match r.result with
  | some (_, result) => (result, { c with flows })
  | none => (.ok (), { c with flows })

def triggerAll (config : DispatcherConfig) (c : Clocked σ κ) :
    List Start → List (Except FlowError Unit) × Clocked σ κ
  | [] => ([], c)
  | s :: rest =>
    let (result, c) := c.trigger config s
    let (results, c) := c.triggerAll config rest
    (result :: results, c)

def act (config : DispatcherConfig) (c : Clocked σ κ) : FlowStep → FlowReport × Clocked σ κ
  | .trigger s =>
    let (result, c) := c.trigger config s
    (.result result, c.settle)
  | .triggerAll starts =>
    let (results, c) := c.triggerAll config starts
    (.results results, c.settle)
  | .publishDeparted s =>
    let (claim, flows) := c.flows.start s config.unwired false
    (.result (claim.published s), ({ c with flows } : Clocked σ κ).settle)
  | .cancel resource settles =>
    let c := { c with flows := c.flows.cancel resource.id }
    (.nothing, if settles then c.settle else c)
  | .advance ms => (.nothing, c.passTo (.wake c.now ms))
  | .isRunning ids => (.running (ids.map c.flows.isRunning), c.settle)

/-- The reports of steps, each with the time and the registered flows after it. -/
def run (config : DispatcherConfig) (c : Clocked σ κ) :
    List FlowStep → List (Instant × FlowReport × Flow.Registry) × Clocked σ κ
  | [] => ([], c)
  | step :: rest =>
    let (report, c) := c.act config step
    let (reports, last) := c.run config rest
    ((c.now, report, c.flows.registry) :: reports, last)

end Clocked

end ClusterControl
