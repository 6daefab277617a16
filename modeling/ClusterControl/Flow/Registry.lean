import ClusterControl.Flow.Request

/-!
# The registry of running flows

At most one flow is registered for a resource. An entry carries the number of its flow, so that a
flow can only give back what is its own.
-/

namespace ClusterControl.Flow

/-- The number of a flow, in the order of starts. -/
abbrev Id := Nat

structure Context where
  id : Id
  start : Start
deriving DecidableEq, Repr

structure Entry where
  id : Id
  resourceId : String
  selector : Selector
  user : String
deriving DecidableEq, Repr

def Entry.ofContext (c : Context) : Entry :=
  ⟨c.id, c.start.resource.id, c.start.selector, c.start.user⟩

/-- The registered flows, in the order of their admission. -/
abbrev Registry := List Entry

namespace Registry

def flow? (g : Registry) (resourceId : String) : Option Entry :=
  g.find? (·.resourceId == resourceId)

def isRunning (g : Registry) (resourceId : String) : Bool := (g.flow? resourceId).isSome

/-- Registers a flow unless its resource has one. -/
def claim? (g : Registry) (c : Context) : Option Registry :=
  if g.isRunning c.start.resource.id then none else some (g ++ [.ofContext c])

/-- Removes the entry of a resource if it belongs to the given flow. -/
def release (g : Registry) (resourceId : String) (id : Id) : Registry :=
  match g.flow? resourceId with
  | some e => if e.id = id then g.filter (·.resourceId != resourceId) else g
  | none => g

end Registry

end ClusterControl.Flow
