import ClusterControl.Json.Decode

/-!
# Polling: settings, outcomes and failures

A poll asks a check again and again until the check reports the end, the deadline passes, or the
check fails and the settings say to stop. Times are virtual: whole milliseconds since a start.
-/

namespace ClusterControl

/-- Virtual time: milliseconds since the start. -/
abbrev Instant := Nat

/-- The longest sleep: thirty years of 365 days. A deadline may lie further off. -/
def longestSleep : Nat := 30 * 365 * 24 * 60 * 60 * 1000

/-- The end of a sleep that starts at `now` and is cut at the longest. -/
def Instant.wake (now : Instant) (span : Nat) : Instant := now + min span longestSleep

/-- A failed check. Only the outermost text is shown. -/
structure Failure where
  text : String
  context : Option String := none
deriving DecidableEq, Repr

def Failure.message (f : Failure) : String := f.context.getD f.text

/-- An answer and the time that it takes; without a delay it never comes. -/
structure Reply (ε α : Type) where
  delay : Option Nat
  answer : Except ε α

def Reply.slept {ε α : Type} (span : Nat) (answer : Except ε α) : Reply ε α :=
  ⟨some (min span longestSleep), answer⟩

/-- What one check has seen. -/
inductive Outcome (α : Type) where
  | goOn
  | finished (value : α)
  | stop (reason : String)
deriving DecidableEq, Repr

structure PollConfig where
  interval : Duration
  deadline : Duration
  stopOnFailure : Bool := true
deriving DecidableEq, Repr

namespace PollConfig

/-- Ten seconds between checks, an hour in all. -/
def default : PollConfig := { interval := .ofSecs 10, deadline := .ofSecs 3600 }

def encode (c : PollConfig) : Json :=
  .object [("deadline", Json.ofDuration c.deadline), ("interval", Json.ofDuration c.interval),
    ("stop_on_exception", .bool c.stopOnFailure)]

def decode : Json.Decoder PollConfig := fun levels s => do
  let slots ← Json.Slots.open? false ["interval", "deadline", "stop_on_exception"] levels s
  let interval ← slots.required "interval" .duration
  let deadline ← slots.required "deadline" .duration
  let stopOnFailure ← slots.required "stop_on_exception" .bool
  some ⟨interval, deadline, stopOnFailure⟩

end PollConfig

inductive PollError where
  | timeout (attempts : Nat) (elapsed : Duration)
  | stopped (reason : String)
  | aborted (attempts : Nat) (source : Failure)
deriving DecidableEq, Repr

def PollError.message : PollError → String
  | timeout attempts elapsed =>
    "Polling timed out after " ++ toString attempts ++ " attempts (" ++ elapsed.text ++ ")"
  | stopped reason => "Polling stopped: " ++ reason
  | aborted attempts source =>
    "Polling aborted after " ++ toString attempts ++ " attempts: " ++ source.message

end ClusterControl
