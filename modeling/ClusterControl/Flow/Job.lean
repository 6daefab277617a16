import ClusterControl.Flow.Registry

/-!
# Handlers and jobs

A handler carries out one kind of flow. It acts once on a shared world when it begins. What it does
after that is a course: what it has called, and how it has ended, by each instant. A job is one run
of a handler.
-/

namespace ClusterControl.Flow

/-- Whether a kind of flow takes part in admission control. -/
inductive Admission where
  | exclusive
  | unchecked
deriving DecidableEq, Repr

/-- How a handler ends on its own. -/
inductive Ending where
  | returned (result : Except FlowError Unit)
  | crashed

/-- What a handler has done by some instant: its calls, and its end. -/
structure Progress (κ : Type) where
  calls : List (Instant × κ)
  ending : Option (Instant × Ending)

abbrev Course (κ : Type) := Instant → Progress κ

/-- A kind of flow. `begin` is its first step, at an instant and on the world. -/
structure Handler (σ κ : Type) where
  admission : Admission := .exclusive
  begin : Context → Instant → σ → Course κ × σ

/-- How a job has ended. -/
inductive Exit where
  | finished (result : Except FlowError Unit)
  | dropped
  | crashed

inductive Phase (κ : Type) where
  | ready
  | live (begun : Instant) (course : Course κ)
  | ended (begun finish : Instant) (calls : List (Instant × κ)) (exit : Exit)

structure Job (κ : Type) where
  context : Context
  phase : Phase κ

namespace Job

variable {κ : Type}

def isLive (t : Job κ) : Bool :=
  match t.phase with
  | .ended .. => false
  | _ => true

def calls (t : Job κ) (now : Instant) : List (Instant × κ) :=
  match t.phase with
  | .ready => []
  | .live _ course => (course now).calls
  | .ended _ _ calls _ => calls

def begun? (t : Job κ) : Option Instant :=
  match t.phase with
  | .ready => none
  | .live begun _ => some begun
  | .ended begun _ _ _ => some begun

/-- The order of runs: by their beginning, then by resource, then by user. -/
def notAfter (a b : Job κ) : Bool :=
  let s := a.context.start
  let t := b.context.start
  let begun (j : Job κ) : Nat := j.begun?.getD 0
  begun a < begun b ||
    begun a == begun b && (s.resource.id < t.resource.id ||
      s.resource.id == t.resource.id && decide (s.user ≤ t.user))

end Job

/-- Which side of a job is looked at first: its handler, or the request to cancel it. -/
inductive Branch where
  | handler
  | cancel
deriving DecidableEq, Repr

end ClusterControl.Flow
