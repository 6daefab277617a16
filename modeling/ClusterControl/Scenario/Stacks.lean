import ClusterControl.Stack.Flow

/-!
# Scripted stacks

A script gives the views of a stack over time, and the answers to the first, second, … request of
each kind for its resource.
-/

namespace ClusterControl.Scenario

/-- From its time on, what a call for the status of a stack gives. -/
structure StackEntry where
  time : Instant
  reply : Reply Failure (Option StackView)

structure StackScript where
  timeline : List StackEntry := []
  creations : List (Reply ProvisionerError Unit) := []
  repairs : List (Reply ProvisionerError Unit) := []
  deletions : List (Reply ProvisionerError Unit) := []

abbrev Stacks := List (String × StackScript)

namespace Stacks

def script (scripts : Stacks) (id : String) : StackScript :=
  match scripts.find? (·.1 == id) with
  | some (_, s) => s
  | none => {}

def statusAt (scripts : Stacks) (id : String) (now : Instant) :
    Reply Failure (Option StackView) :=
  match ((scripts.script id).timeline.filter fun e => e.time ≤ now).getLast? with
  | some e => e.reply
  | none => ⟨some 0, .ok none⟩

def replies (script : StackScript) : Selector → List (Reply ProvisionerError Unit)
  | .create => script.creations
  | .repair => script.repairs
  | .delete => script.deletions

def kindOf : StackRequest → Selector
  | .create => .create
  | .repair _ => .repair
  | .delete => .delete

abbrev History := List (Selector × String)

def provisioner (scripts : Stacks) : Provisioner History where
  request history _ resource request :=
    let asked := (kindOf request, resource.id)
    let reply := ((replies (scripts.script resource.id) asked.1)[history.count asked]?).getD
      ⟨some 0, .ok ()⟩
    (reply, asked :: history)
  status _ resource _ now := scripts.statusAt resource.id now

/-- A single request for a repair: how a flow would end on its answer, or go on. -/
def requestRepair (scripts : Stacks) (r : Resource) (hostGroups : List String) :
    Except FlowError Unit :=
  let (reply, _) := scripts.provisioner.request [] 0 r (.repair hostGroups)
  (Stack.afterRequest? r .repair reply.answer).getD (.ok ())

end Stacks

end ClusterControl.Scenario
