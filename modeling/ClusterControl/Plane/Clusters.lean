import ClusterControl.Plane.Error
import ClusterControl.Stack.Flow

/-!
# Operations on clusters

An operation is allowed in some statuses of its resource. It starts a flow, and when the flow is
admitted it hands back the resource in the status of the work that has begun. Waiting for a repair
polls the stack from the outside.
-/

namespace ClusterControl

namespace Selector

def allows : Selector → ResourceStatus → Bool
  | create, s => s == .created
  | repair, s => s == .running || s == .failed
  | delete, s => !(s == .deleted || s == .deleteInProgress)

def inProgress : Selector → ResourceStatus
  | create => .createInProgress
  | repair => .repairInProgress
  | delete => .deleteInProgress

end Selector

namespace Clusters

/-- Starts a flow on a resource through a dispatcher with a state of its own. -/
def trigger {β : Type} (dispatch : β → Start → Except FlowError Unit × β) (state : β) (s : Start) :
    Except PlaneError Resource × β :=
  if s.selector.allows s.resource.status then
    match dispatch state s with
    | (.ok _, state) => (.ok (s.resource.withStatus s.selector.inProgress), state)
    | (.error e, state) => (.error (.flow e), state)
  else (.error (.invalidResourceState s.resource.id s.resource.status.name), state)

variable {β : Type} (dispatch : β → Start → Except FlowError Unit × β) (state : β)

def create (r : Resource) (user : String) : Except PlaneError Resource × β :=
  trigger dispatch state ⟨.create, r, user, .none⟩

def delete (r : Resource) (user : String) : Except PlaneError Resource × β :=
  trigger dispatch state ⟨.delete, r, user, .none⟩

def repair (r : Resource) (user : String) (request : RepairRequest) :
    Except PlaneError Resource × β :=
  trigger dispatch state ⟨.repair, r, user, .repair request⟩

/-- What the end of a wait for a repair gives; nothing when the poll broke down. -/
def repaired? (r : Resource) : Poll.Ending Unit → Option (Except PlaneError Resource)
  | .done _ => some (.ok (r.withStatus .running))
  | .failed e => some (.error (.flow (.poll e)))
  | .broken _ => none

/-- The poll of a wait for a repair that begins at `now`. -/
def watchRepair {σ : Type} (clock : Nat) (terms : Poll.Terms) (p : Provisioner σ) (world : σ)
    (r : Resource) (now : Instant) : Poll.Report Unit :=
  Poll.run clock terms (Stack.check p world .repair r) now

end Clusters

end ClusterControl
