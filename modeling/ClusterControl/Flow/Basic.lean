import ClusterControl.Resource

/-!
# Flows

A flow is a long operation on one resource. A selector names its kind, a payload carries what the
kind needs, and the policy says what a requester makes of a scheduler that starts flows without
admission control.
-/

namespace ClusterControl

inductive Selector where
  | create
  | repair
  | delete
deriving DecidableEq, Repr

namespace Selector

def all : List Selector := [create, repair, delete]

def name : Selector → String
  | create => "create"
  | repair => "repair"
  | delete => "delete"

def ofName? (s : String) : Option Selector := all.find? (·.name == s)

theorem ofName?_name (s : Selector) : ofName? s.name = some s := by cases s <;> decide

def event : Selector → String
  | create => "ENV_WAIT_EVENT"
  | repair => "CLUSTER_REPAIR_EVENT"
  | delete => "CLUSTER_DELETE_EVENT"

def decode : Json.Decoder Selector := .oneOf ofName?

end Selector

def cancelEvent : String := "FLOW_CANCEL"

structure RepairRequest where
  hostGroups : List String
deriving DecidableEq, Repr

namespace RepairRequest

def forHostGroup (name : String) : RepairRequest := ⟨[name]⟩

def encode (r : RepairRequest) : Json := .object [("host_groups", .texts r.hostGroups)]

def decode : Json.Decoder RepairRequest := fun levels s => do
  let slots ← Json.Slots.open? false ["host_groups"] levels s
  let hostGroups ← slots.required "host_groups" (.listOf .text)
  some ⟨hostGroups⟩

end RepairRequest

inductive Payload where
  | none
  | repair (request : RepairRequest)
deriving DecidableEq, Repr

namespace Payload

/-- The host groups of a repair; no other payload names any. -/
def hostGroups : Payload → List String
  | none => []
  | repair r => r.hostGroups

def encode : Payload → Json
  | none => .text "None"
  | repair r => .object [("Repair", r.encode)]

/-- The word `None`, also as a member that is `null`, or a member `Repair` with its request. -/
def decode : Json.Decoder Payload
  | levels + 1, .object [(name, s)] => do
    let n ← Json.Piece.text? name
    match n, s with
    | "None", .null => some none
    | "Repair", s => (RepairRequest.decode levels s).map repair
    | _, _ => Option.none
  | _, .text ps =>
    match Json.Piece.text? ps with
    | some "None" => some none
    | _ => Option.none
  | _, _ => Option.none

end Payload

/-- What a requester does when its flow would bypass admission control. -/
inductive UnwiredPolicy where
  | accept
  | reject
deriving DecidableEq, Repr

namespace UnwiredPolicy

def all : List UnwiredPolicy := [accept, reject]

def name : UnwiredPolicy → String
  | accept => "accept"
  | reject => "reject"

def ofName? (s : String) : Option UnwiredPolicy := all.find? (·.name == s)

theorem ofName?_name (p : UnwiredPolicy) : ofName? p.name = some p := by cases p <;> decide

def decode : Json.Decoder UnwiredPolicy := .oneOf ofName?

end UnwiredPolicy

/-- The answer of a scheduler to a request. -/
inductive Acceptance where
  | accepted
  | rejected
  | unwired
deriving DecidableEq, Repr

namespace Acceptance

def name : Acceptance → String
  | accepted => "accepted"
  | rejected => "rejected"
  | unwired => "unwired"

end Acceptance

end ClusterControl
