import ClusterControl.Json.Decode

/-!
# Managed resources

A resource is seen only as a snapshot: its identity and the status at the time it was taken.
-/

namespace ClusterControl

inductive ResourceStatus where
  | created
  | createInProgress
  | running
  | repairInProgress
  | deleteInProgress
  | failed
  | deleted
deriving DecidableEq, Repr

namespace ResourceStatus

def all : List ResourceStatus :=
  [created, createInProgress, running, repairInProgress, deleteInProgress, failed, deleted]

def name : ResourceStatus → String
  | created => "CREATED"
  | createInProgress => "CREATE_IN_PROGRESS"
  | running => "RUNNING"
  | repairInProgress => "REPAIR_IN_PROGRESS"
  | deleteInProgress => "DELETE_IN_PROGRESS"
  | failed => "FAILED"
  | deleted => "DELETED"

def ofName? (s : String) : Option ResourceStatus := all.find? (·.name == s)

theorem ofName?_name (s : ResourceStatus) : ofName? s.name = some s := by cases s <;> decide

/-- Whether a long operation is expected to be at work. -/
def inProgress : ResourceStatus → Bool
  | createInProgress | repairInProgress | deleteInProgress => true
  | _ => false

def decode : Json.Decoder ResourceStatus := .oneOf ofName?

end ResourceStatus

structure Resource where
  id : String
  name : String
  status : ResourceStatus
deriving DecidableEq, Repr

namespace Resource

def withStatus (r : Resource) (s : ResourceStatus) : Resource := { r with status := s }

@[simp] theorem withStatus_withStatus (r : Resource) (s t : ResourceStatus) :
    (r.withStatus s).withStatus t = r.withStatus t := rfl

def encode (r : Resource) : Json :=
  .object [("id", .text r.id), ("name", .text r.name), ("status", .text r.status.name)]

def decode : Json.Decoder Resource := fun levels s => do
  let slots ← Json.Slots.open? false ["id", "name", "status"] levels s
  let id ← slots.required "id" .text
  let name ← slots.required "name" .text
  let status ← slots.required "status" ResourceStatus.decode
  some ⟨id, name, status⟩

end Resource

end ClusterControl
