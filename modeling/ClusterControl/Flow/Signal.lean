import ClusterControl.Flow.Basic

/-!
# Acceptance signals

A requester hands a signal to the scheduler together with its request. The scheduler resolves it
once, by one of three answers or by dropping it, and learns from an answer whether the flow may
start.
-/

namespace ClusterControl

/-- How a signal is resolved. -/
inductive Resolution where
  | accept
  | reject
  | unwired
  | drop
deriving DecidableEq, Repr

namespace Resolution

def all : List Resolution := [accept, reject, unwired, drop]

def name : Resolution → String
  | accept => "accept"
  | reject => "reject"
  | unwired => "unwired"
  | drop => "drop"

def ofName? (s : String) : Option Resolution := all.find? (·.name == s)

/-- The answer that a waiting requester receives; a dropped signal gives none. -/
def answer? : Resolution → Option Acceptance
  | accept => some .accepted
  | reject => some .rejected
  | unwired => some .unwired
  | drop => none

/-- Whether a flow may start after this resolution. An acceptance needs a requester that still
waits, and a flow outside admission control also one whose policy allows it. -/
def grants (policy : UnwiredPolicy) (waiting : Bool) : Resolution → Bool
  | accept => waiting
  | unwired => waiting && policy == .accept
  | reject | drop => false

/-- What the resolving side learns: whether the flow may start, after the two answers that could
start one. -/
def report? (policy : UnwiredPolicy) (waiting : Bool) (r : Resolution) : Option Bool :=
  match r with
  | accept | unwired => some (r.grants policy waiting)
  | reject | drop => none

theorem not_grants_of_departed (policy : UnwiredPolicy) (r : Resolution) :
    r.grants policy false = false := by
  cases r <;> rfl

end Resolution

end ClusterControl
