import ClusterControl.Flow.Bus

/-!
# Scenarios on a scripted bus

A scripted bus takes a message, waits, answers or holds the signal of a start, and may then fail.
A scenario is a list of steps of one requester at a time, in virtual time.
-/

namespace ClusterControl.Scenario

/-- What a scripted bus does with the signal of a start: it keeps it, or resolves it at once, or
later and from elsewhere. -/
inductive BusAnswer where
  | hold
  | atOnce (resolution : Resolution)
  | later (delay : Nat) (resolution : Resolution)
deriving DecidableEq, Repr

/-- A scripted bus. Without a delay its publication never ends. -/
structure Bus where
  delay : Option Nat
  answer : BusAnswer
  failure : Option FlowError

namespace Bus

def publication (b : Bus) (now : Instant) : Option (Instant × Except FlowError Unit) :=
  b.delay.map fun d =>
    (.wake now d,
      match b.failure with
      | none => .ok ()
      | some e => .error e)

def answerTo (b : Bus) (now : Instant) : Option Request.Answer :=
  b.delay.bind fun d =>
    match b.answer with
    | .hold => none
    | .atOnce r => some ⟨.wake now d, true, r⟩
    | .later delay r => some ⟨.wake (.wake now d) delay, false, r⟩

/-- The bus that keeps to the script. It remembers its messages, the latest first. -/
def toBus (b : Bus) : ClusterControl.Bus (List (Instant × Message)) where
  publish log now message := (⟨b.publication now, b.answerTo now⟩, (now, message) :: log)

/-- Whether the signal of a request comes to be held: its requester must not leave before the end
of the publication. -/
def holds (b : Bus) (r : Request) : Bool :=
  match b.answer, b.delay with
  | .hold, some d => .wake r.called d ≤ r.deadline
  | _, _ => false

end Bus

inductive BusAction where
  | trigger (start : Start)
  | cancel (resource : Resource) (user : String)
  | advance (ms : Nat)
  | resolve (resolution : Resolution)

structure BusStep where
  bus : Option Bus
  action : BusAction

inductive BusReport where
  | nothing
  | result (result : Except FlowError Unit)
  | resolved (grant : Option Bool)
  | noneHeld

structure BusState where
  bus : Bus
  now : Instant := 0
  /-- The requests whose signals are held, the oldest first. -/
  held : List Request := []
  /-- The messages that were published, the latest first. -/
  published : List (Instant × Message) := []

namespace BusState

/-- Publishes a cancellation; nothing when that never returns. -/
def cancel? (s : BusState) (resource : Resource) (user : String) : Option BusState :=
  let (back, published) := s.bus.toBus.cancel s.published resource.id user s.now
  back.map fun now => { s with now, published }

def trigger (config : DispatcherConfig) (s : BusState) (start : Start) :
    BusReport × BusState :=
  let (r, published) := s.bus.toBus.trigger config s.published start s.now
  let held := if s.bus.holds r then s.held ++ [r] else s.held
  match r.result with
  | some (t, result) => (.result result, { s with now := t, held, published })
  | none => (.nothing, { s with held, published })

/-- Resolves the signal that is held longest. -/
def resolve (s : BusState) (resolution : Resolution) : BusReport × BusState :=
  match s.held with
  | [] => (.noneHeld, s)
  | r :: rest => (.resolved (r.report? resolution), { s with held := rest })

def act? (config : DispatcherConfig) (s : BusState) : BusAction → Option (BusReport × BusState)
  | .trigger start => some (s.trigger config start)
  | .cancel resource user => (s.cancel? resource user).map fun s => (.nothing, s)
  | .advance ms => some (.nothing, { s with now := .wake s.now ms })
  | .resolve resolution => some (s.resolve resolution)

/-- The reports of steps with their times, and the state at the end. A step that never returns is
the last. -/
def run (config : DispatcherConfig) (s : BusState) :
    List BusStep → List (Instant × BusReport) × BusState
  | [] => ([], s)
  | step :: rest =>
    let s := { s with bus := step.bus.getD s.bus }
    match s.act? config step.action with
    | none => ([], s)
    | some (report, s) =>
      let (reports, last) := run config s rest
      ((s.now, report) :: reports, last)

end BusState

end ClusterControl.Scenario
