import ClusterControl.Flow.Job
import ClusterControl.Poll.Run
import ClusterControl.Stack.Provisioner

/-!
# The flows on a stack

Creating, repairing and deleting work alike: one request to the provisioner, then a poll of the
stack until it shows the end. They differ in what they make of a refused request and of the views
of the stack.
-/

namespace ClusterControl.Stack

def creationOutcome (r : Resource) : Option StackView → Outcome Unit
  | none => .stop ("Stack not found downstream for " ++ r.name)
  | some v =>
    if v.isAvailable then .finished ()
    else
      match v.failure? .createFailed with
      | some reason => .stop ("Creation failed '" ++ r.name ++ "', " ++ reason)
      | none => .goOn

def repairOutcome (r : Resource) : Option StackView → Outcome Unit
  | none => .stop ("Stack not found downstream for " ++ r.name)
  | some v =>
    if v.isAvailable then .finished ()
    else
      match v.failure? .updateFailed with
      | some reason => .stop ("Repair failed '" ++ r.name ++ "', " ++ reason)
      | none => .goOn

/-- What a view of the stack means for a deletion: it is over when there is no stack. -/
def deletionOutcome (r : Resource) : Option StackView → Outcome Unit
  | none => .finished ()
  | some v =>
    match v.failure? .deleteFailed with
    | some reason => .stop ("Deletion failed '" ++ r.name ++ "', " ++ reason)
    | none => .goOn

def outcome : Selector → Resource → Option StackView → Outcome Unit
  | .create => creationOutcome
  | .repair => repairOutcome
  | .delete => deletionOutcome

def request : Selector → Payload → StackRequest
  | .create, _ => .create
  | .repair, payload => .repair payload.hostGroups
  | .delete, _ => .delete

/-- How a flow ends right after its request; nothing when it goes on to poll. A repair leaves it to
the poll to find that there is no stack, and a deletion has nothing left to do then. -/
def afterRequest? (r : Resource) : Selector → Except ProvisionerError Unit →
    Option (Except FlowError Unit)
  | _, .ok _ => none
  | .create, .error e =>
    some (.error (.stepFailed ("Can not create stack for " ++ r.name ++ ": " ++ e.message)))
  | .repair, .error (.stackNotFound _) => none
  | .repair, .error (.client text) =>
    some (.error (.stepFailed
      ("Can not repair cluster, client error happened on the provisioner side: " ++ text)))
  | .delete, .error (.stackNotFound _) => some (.ok ())
  | .delete, .error (.client text) =>
    some (.error (.stepFailed
      ("Can not delete stack, client error happened on the provisioner side: " ++ text)))

variable {σ : Type}

def check (p : Provisioner σ) (world : σ) (kind : Selector) (r : Resource) : Poll.Check Unit :=
  fun attempt now =>
    let reply := p.status world r attempt now
    ⟨reply.delay, reply.answer.map (outcome kind r)⟩

def pollEnding : Poll.Ending Unit → Flow.Ending
  | .done _ => .returned (.ok ())
  | .failed e => .returned (.error (.poll e))
  | .broken _ => .crashed

/-- The calls and the end of a poll that starts at `origin`, looked at at `now`. -/
def pollProgress (clock : Nat) (terms : Poll.Terms) (p : Provisioner σ) (world : σ)
    (kind : Selector) (r : Resource) (origin now : Instant) : Flow.Progress StackCall :=
  let report := Poll.watch clock terms (check p world kind r) origin now
  ⟨report.starts.map fun t => (t, .status r),
    report.ending.map fun (t, ending) => (t, pollEnding ending)⟩

/-- The course of a flow that begins at `start` and whose request is answered by `reply`. -/
def course (clock : Nat) (terms : Poll.Terms) (p : Provisioner σ) (world : σ) (kind : Selector)
    (s : Start) (start : Instant) (reply : Reply ProvisionerError Unit) :
    Flow.Course StackCall := fun now =>
  let asked := (start, StackCall.request s.resource (request kind s.payload))
  match reply.delay with
  | none => ⟨[asked], none⟩
  | some delay =>
    if now < start + delay then ⟨[asked], none⟩
    else
      match afterRequest? s.resource kind reply.answer with
      | some result => ⟨[asked], some (start + delay, .returned result)⟩
      | none =>
        let p := pollProgress clock terms p world kind s.resource (start + delay) now
        ⟨asked :: p.calls, p.ending⟩

/-- The handler of one kind of flow, whatever selector it is registered for. -/
def handler (clock : Nat) (terms : Poll.Terms) (p : Provisioner σ) (kind : Selector) :
    Flow.Handler σ StackCall where
  begin context now world :=
    let s := context.start
    let (reply, world) := p.request world now s.resource (request kind s.payload)
    (course clock terms p world kind s now reply, world)

end ClusterControl.Stack
