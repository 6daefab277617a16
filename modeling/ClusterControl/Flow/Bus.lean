import ClusterControl.Flow.Request

/-!
# Buses

A bus takes messages, each at an instant, and may remember what it took. All that a requester ever
learns of a bus is when and how a publication ends, and when and how its signal is resolved.
-/

namespace ClusterControl

/-- What becomes of a message: the end of its publication and, for a start, the resolution of its
signal. Either may never come. -/
structure Handling where
  publication : Option (Instant × Except FlowError Unit)
  answer : Option Request.Answer

structure Bus (β : Type) where
  publish : β → Instant → Message → Handling × β

namespace Bus

variable {β : Type} (bus : Bus β)

/-- A request at its end, and the bus after it. -/
def trigger (config : DispatcherConfig) (state : β) (s : Start) (now : Instant) : Request × β :=
  let (handling, state) := bus.publish state now (.start s)
  let r := Request.new config s now
  (r.play (r.schedule handling.publication handling.answer), state)

/-- When a cancellation returns, if ever, and the bus after it. -/
def cancel (state : β) (resourceId user : String) (now : Instant) : Option Instant × β :=
  let (handling, state) := bus.publish state now (.cancel resourceId user)
  (cancelReturn? handling.publication, state)

end Bus

end ClusterControl
