import ClusterControl.Flow.Scheduler
import ClusterControl.Stack.Provisioner

/-!
# The calls of a run

All calls to the provisioner in one list: by time, then by resource, then in the order in which they
arrive.
-/

namespace ClusterControl.Stack

def notAfter (a b : Instant × StackCall) : Bool :=
  a.1 < b.1 || a.1 == b.1 && decide (a.2.resource.id ≤ b.2.resource.id)

def sortCalls (calls : List (Instant × StackCall)) : List (Instant × StackCall) :=
  calls.mergeSort notAfter

/-- The calls of all flows by an instant. -/
def callsOf {σ : Type} (m : Scheduler σ StackCall) (now : Instant) : List (Instant × StackCall) :=
  sortCalls (m.jobs.flatMap fun j => j.calls now)

end ClusterControl.Stack
