import ClusterControl.Flow.Run
import ClusterControl.Scenario.Stacks

/-!
# Handlers of a scenario

The handlers of a scenario are the flows on scripted stacks, or play a script of their own: they
wait and then end as told, or never.
-/

namespace ClusterControl.Scenario

inductive ScriptedHandler where
  | stack (kind : Selector)
  | script (admission : Flow.Admission) (work : Option Nat) (result : Except FlowError Unit)

abbrev FlowState := Scheduler Stacks.History StackCall

namespace ScriptedHandler

def course (work : Option Nat) (result : Except FlowError Unit) (start : Instant) :
    Flow.Course StackCall := fun now =>
  match work with
  | none => ⟨[], none⟩
  | some ms =>
    let finish : Instant := .wake start ms
    ⟨[], if now < finish then none else some (finish, .returned result)⟩

def handler (clock : Nat) (terms : Poll.Terms) (scripts : Stacks) :
    ScriptedHandler → Flow.Handler Stacks.History StackCall
  | stack kind => Stack.handler clock terms scripts.provisioner kind
  | script admission work result =>
    { admission, begin := fun _ start world => (course work result start, world) }

end ScriptedHandler

namespace FlowState

/-- A scheduler with the handlers of a list of settings; the last setting of a selector counts. -/
def ofHandlers (clock : Nat) (terms : Poll.Terms) (scripts : Stacks)
    (handlers : List (Selector × ScriptedHandler)) : FlowState where
  handlers s :=
    (handlers.reverse.find? (·.1 == s)).map fun h => h.2.handler clock terms scripts
  world := []

end FlowState

end ClusterControl.Scenario
