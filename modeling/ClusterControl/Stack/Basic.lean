import ClusterControl.Json.Decode

/-!
# Stacks

A stack is what the provisioner sets up for a resource. A view of it has the status of the stack
itself and of the cluster on it, each with a reason when the provisioner gives one.
-/

namespace ClusterControl

inductive StackStatus where
  | createInProgress
  | createFailed
  | available
  | updateInProgress
  | updateFailed
  | deleteInProgress
  | deleteFailed
deriving DecidableEq, Repr

namespace StackStatus

def all : List StackStatus :=
  [createInProgress, createFailed, available, updateInProgress, updateFailed, deleteInProgress,
    deleteFailed]

def name : StackStatus → String
  | createInProgress => "CREATE_IN_PROGRESS"
  | createFailed => "CREATE_FAILED"
  | available => "AVAILABLE"
  | updateInProgress => "UPDATE_IN_PROGRESS"
  | updateFailed => "UPDATE_FAILED"
  | deleteInProgress => "DELETE_IN_PROGRESS"
  | deleteFailed => "DELETE_FAILED"

def ofName? (s : String) : Option StackStatus := all.find? (·.name == s)

theorem ofName?_name (s : StackStatus) : ofName? s.name = some s := by cases s <;> decide

def decode : Json.Decoder StackStatus := .oneOf ofName?

end StackStatus

structure StackView where
  stackStatus : StackStatus
  stackReason : Option String
  clusterStatus : StackStatus
  clusterReason : Option String
deriving DecidableEq, Repr

namespace StackView

/-- The reason of the stack, or else of the cluster, when that has the given status. -/
def failure? (v : StackView) (status : StackStatus) : Option String :=
  if v.stackStatus = status then some (v.stackReason.getD "")
  else if v.clusterStatus = status then some (v.clusterReason.getD "")
  else none

def isAvailable (v : StackView) : Bool :=
  v.stackStatus == .available && v.clusterStatus == .available

def encode (v : StackView) : Json :=
  .object [("cluster_reason", Json.ofOption v.clusterReason),
    ("cluster_status", .text v.clusterStatus.name),
    ("stack_reason", Json.ofOption v.stackReason), ("stack_status", .text v.stackStatus.name)]

def decode : Json.Decoder StackView := fun levels s => do
  let slots ← Json.Slots.open? false
    ["stack_status", "stack_reason", "cluster_status", "cluster_reason"] levels s
  let stackStatus ← slots.required "stack_status" StackStatus.decode
  let stackReason ← slots.optional "stack_reason" .text
  let clusterStatus ← slots.required "cluster_status" StackStatus.decode
  let clusterReason ← slots.optional "cluster_reason" .text
  some ⟨stackStatus, stackReason, clusterStatus, clusterReason⟩

end StackView

end ClusterControl
