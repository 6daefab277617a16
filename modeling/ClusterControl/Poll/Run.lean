import ClusterControl.Poll.Basic

/-!
# A run of a poll

The first check starts at once and each further one an interval after the end of the one before, the
interval cut at the longest sleep. A check that ends on the deadline still counts; one that has to
wait longer is dropped there, and no check starts after it. The run is computed up to an instant, so
that a poll of any length can be looked at.

Three counters are finite: the clock, a sum of two durations, and the number of attempts. A run
that leaves one of them breaks down.
-/

namespace ClusterControl.Poll

/-- The times of a poll in milliseconds. -/
structure Terms where
  interval : Nat
  deadline : Nat
  stopOnFailure : Bool
deriving DecidableEq, Repr

def Terms.ofConfig (c : PollConfig) : Terms :=
  ⟨c.interval.toMillis, c.deadline.toMillis, c.stopOnFailure⟩

/-- What a check sees, given the number of the attempt and the instant of its start. -/
abbrev Check (α : Type) := Nat → Instant → Reply Failure (Outcome α)

inductive Overflow where
  | clock
  | span
  | attempts
deriving DecidableEq, Repr

inductive Ending (α : Type) where
  | done (value : α)
  | failed (error : PollError)
  | broken (counter : Overflow)
deriving DecidableEq, Repr

/-- How an attempt leaves the poll: it ends, or a further attempt starts later. -/
inductive Next (α : Type) where
  | again (start : Instant)
  | ended (ending : Ending α)

/-- The first reading that the clock cannot hold, in milliseconds: its seconds have 63 bits. -/
def clockLimit : Nat := Nat.pow 2 63 * 1000

/-- The first span that a duration cannot hold, in milliseconds. -/
def spanLimit : Nat := wordLimit * 1000

/-- The first number of attempts that the counter cannot hold. -/
def attemptLimit : Nat := Nat.pow 2 32

section

variable {α : Type}

/-- What follows an inconclusive check that ends at `now`. -/
def pause (terms : Terms) (origin : Instant) (attempt : Nat) (now : Instant) : Next α :=
  let elapsed := now - origin
  if spanLimit ≤ elapsed + terms.interval then .ended (.broken .span)
  else if terms.deadline < elapsed + terms.interval then
    .ended (.failed (.timeout attempt (.ofMillis elapsed)))
  else .again (.wake now terms.interval)

/-- What follows a check that answers at `now`. -/
def conclude (terms : Terms) (origin : Instant) (attempt : Nat) (now : Instant) :
    Except Failure (Outcome α) → Next α
  | .ok (.finished a) => .ended (.done a)
  | .ok (.stop reason) => .ended (.failed (.stopped reason))
  | .ok .goOn => pause terms origin attempt now
  | .error f =>
    if terms.stopOnFailure then .ended (.failed (.aborted attempt f))
    else pause terms origin attempt now

/-- The end of the attempt that starts at `start`, and what follows. -/
def settle (terms : Terms) (check : Check α) (origin : Instant) (attempt : Nat) (start : Instant) :
    Instant × Next α :=
  let reply := check attempt start
  let late : Instant × Next α :=
    (origin + terms.deadline,
      .ended (.failed (.timeout attempt (.ofMillis terms.deadline))))
  match reply.delay with
  | none => late
  | some d =>
    if start + d ≤ origin + terms.deadline then
      (start + d, conclude terms origin attempt (start + d) reply.answer)
    else late

/-- What a poll has done by an instant: the starts of its checks, and its end. -/
structure Report (α : Type) where
  starts : List Instant
  ending : Option (Instant × Ending α)

/-- The attempts from number `attempt` on, as far as they start by `now`. The first number counts
the attempts that the counter still holds; `begun` has the earlier starts, the latest first. -/
def resume (terms : Terms) (check : Check α) (origin now : Instant) :
    Nat → Nat → Instant → List Instant → Report α
  | 0, _, start, begun =>
    ⟨begun.reverse, if now < start then none else some (start, .broken .attempts)⟩
  | left + 1, attempt, start, begun =>
    if now < start then ⟨begun.reverse, none⟩
    else
      let (finish, next) := settle terms check origin attempt start
      if now < finish then ⟨(start :: begun).reverse, none⟩
      else
        match next with
        | .ended e => ⟨(start :: begun).reverse, some (finish, e)⟩
        | .again next => resume terms check origin now left (attempt + 1) next (start :: begun)

/-- The poll that starts at `origin`, looked at at `now`. `clock` is the reading of the clock at
virtual time zero. -/
def watch (clock : Nat) (terms : Terms) (check : Check α) (origin now : Instant) : Report α :=
  if now < origin then ⟨[], none⟩
  else if clockLimit ≤ clock + origin + terms.deadline then ⟨[], some (origin, .broken .clock)⟩
  else resume terms check origin now (attemptLimit - 1) 1 origin []

/-- The whole poll: it is over at its deadline. -/
def run (clock : Nat) (terms : Terms) (check : Check α) (origin : Instant) : Report α :=
  watch clock terms check origin (origin + terms.deadline)

end

end ClusterControl.Poll
