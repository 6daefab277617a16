import ClusterControl.Flow.Run
import ClusterControl.Plane.Basic
import ClusterControl.Stack.Calls

/-!
# Runs of a control plane

A deployment is a plane with its provisioner, its identity service and its clock. A run of it is a
list of steps: the operations on clusters, flows that are triggered directly, the passing of time,
and steps on credentials. A step that waits for a repair lets time pass until the wait is over.
-/

namespace ClusterControl

inductive CredentialStep where
  | create (credential : Credential)
  | verify (credential : Credential)
  | delete (credential : Credential)
  | prerequisites (platform : Platform) (externalId : String)

inductive CredentialReport where
  | status (result : Except PlaneError CredentialStatus)
  | prerequisites (result : Except PlaneError Prerequisites)

namespace CredentialStep

def act (k : Connectors) (service : Aws.IdentityService) (log : List Aws.Exchange) :
    CredentialStep → CredentialReport × List Aws.Exchange
  | create c => (.status (k.create c), log)
  | verify c =>
    let (result, log) := k.verify service c log
    (.status result, log)
  | delete c => (.status (k.delete c), log)
  | prerequisites p externalId => (.prerequisites (k.prerequisites p externalId), log)

/-- The reports of steps, and the exchanges up to their end. -/
def run (k : Connectors) (service : Aws.IdentityService) (log : List Aws.Exchange) :
    List CredentialStep → List CredentialReport × List Aws.Exchange
  | [] => ([], log)
  | step :: rest =>
    let (report, log) := step.act k service log
    let (reports, log) := run k service log rest
    (report :: reports, log)

end CredentialStep

inductive PlaneStep where
  | create (resource : Resource) (user : String)
  | delete (resource : Resource) (user : String)
  | repair (resource : Resource) (user : String) (request : RepairRequest)
  | waitForRepair (resource : Resource)
  | flow (step : FlowStep)
  | credential (step : CredentialStep)

inductive PlaneReport where
  | resource (result : Except PlaneError Resource)
  | flow (report : FlowReport)
  | credential (report : CredentialReport)

/-- The calls of a wait, and the number of flows that were started before it. -/
structure Wait where
  flows : Nat
  calls : List (Instant × StackCall)

structure PlaneState (σ : Type) where
  clocked : Clocked σ StackCall
  exchanges : List Aws.Exchange := []
  waits : List Wait := []
  /-- Whether the poll of a wait broke down. -/
  broken : Bool := false

structure Deployment (σ : Type) where
  plane : Plane
  clock : Nat
  provisioner : Provisioner σ
  identity : Aws.IdentityService

namespace Deployment

variable {σ : Type}

def start (d : Deployment σ) (world : σ) : PlaneState σ where
  clocked := ⟨0, d.plane.scheduler d.clock d.provisioner world⟩

def dispatch (d : Deployment σ) (c : Clocked σ StackCall) (s : Start) :
    Except FlowError Unit × Clocked σ StackCall :=
  c.trigger d.plane.settings.dispatcherConfig s

/-- A wait for a repair, until it is over. -/
def wait (d : Deployment σ) (s : PlaneState σ) (r : Resource) : PlaneReport × PlaneState σ :=
  let c := s.clocked.settle
  let report := Clusters.watchRepair d.clock d.plane.terms d.provisioner c.flows.world r c.now
  let waits := s.waits ++ [⟨c.flows.jobs.length, report.starts.map fun t => (t, .status r)⟩]
  match report.ending with
  | some (t, ending) =>
    let s := { s with clocked := c.passTo t, waits }
    match Clusters.repaired? r ending with
    | some result => (.resource result, s)
    | none => (.flow .nothing, { s with broken := true })
  | none => (.flow .nothing, { s with clocked := c, waits })

def act (d : Deployment σ) (s : PlaneState σ) : PlaneStep → PlaneReport × PlaneState σ
  | .create r user =>
    let (result, c) := Clusters.create d.dispatch s.clocked r user
    (.resource result, { s with clocked := c.settle })
  | .delete r user =>
    let (result, c) := Clusters.delete d.dispatch s.clocked r user
    (.resource result, { s with clocked := c.settle })
  | .repair r user request =>
    let (result, c) := Clusters.repair d.dispatch s.clocked r user request
    (.resource result, { s with clocked := c.settle })
  | .waitForRepair r => d.wait s r
  | .flow step =>
    let (report, c) := s.clocked.act d.plane.settings.dispatcherConfig step
    (.flow report, { s with clocked := c })
  | .credential step =>
    let (report, exchanges) := step.act d.plane.connectors d.identity s.exchanges
    (.credential report, { s with exchanges, clocked := s.clocked.settle })

/-- The reports of steps, each with the time and the registered flows after it. -/
def run (d : Deployment σ) (s : PlaneState σ) :
    List PlaneStep → List (Instant × PlaneReport × Flow.Registry) × PlaneState σ
  | [] => ([], s)
  | step :: rest =>
    let (report, s) := d.act s step
    let (reports, last) := d.run s rest
    ((s.clocked.now, report, s.clocked.flows.registry) :: reports, last)

end Deployment

namespace PlaneState

variable {σ : Type}

/-- The calls of the waits that began when a number of flows were started. -/
def waitCalls (s : PlaneState σ) (flows : Nat) : List (Instant × StackCall) :=
  (s.waits.filter (·.flows == flows)).flatMap (·.calls)

/-- All calls to the provisioner in order. A wait arrives after the flows that were started before
it. -/
def calls (s : PlaneState σ) : List (Instant × StackCall) :=
  let jobs := s.clocked.flows.jobs
  Stack.sortCalls
    ((jobs.zipIdx.flatMap fun (j, i) => s.waitCalls i ++ j.calls s.clocked.now) ++
      s.waitCalls jobs.length)

end PlaneState

end ClusterControl
