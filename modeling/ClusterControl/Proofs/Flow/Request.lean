import ClusterControl.Flow.Scheduler

/-!
# The results of requests

What a requester makes of the answer to its message, when it looks after the answer and the end of
publication. The result of a request depends on what its claim came to and on its own policy.
-/

namespace ClusterControl

namespace Request

variable {r : Request} {now : Instant} {result : Except FlowError Unit}

theorem look_of_work (hw : r.result = none) (hv : r.work? = some result) :
    (r.look now).result = some (now, result) := by
  simp [look, hw, hv]

theorem look_of_result {x : Instant × Except FlowError Unit} (hr : r.result = some x) :
    r.look now = r := by
  simp [look, hr]

/-- A look changes nothing but the result. -/
theorem look_eq : r.look now = { r with result := (r.look now).result } := by
  unfold look
  split
  · rfl
  · rfl
  · split <;> rfl

@[simp] theorem start_look : (r.look now).start = r.start := by rw [look_eq]

@[simp] theorem config_look : (r.look now).config = r.config := by rw [look_eq]

@[simp] theorem published_look : (r.look now).published = r.published := by rw [look_eq]

@[simp] theorem resolved_look : (r.look now).resolved = r.resolved := by rw [look_eq]

/-- A resolution changes nothing but the signal. -/
theorem resolve_eq (a : Resolution) :
    r.resolve a = { r with resolved := (r.resolve a).resolved } := by
  unfold resolve
  split <;> rfl

@[simp] theorem start_resolve (a : Resolution) : (r.resolve a).start = r.start := by
  rw [resolve_eq]

@[simp] theorem config_resolve (a : Resolution) : (r.resolve a).config = r.config := by
  rw [resolve_eq]

@[simp] theorem result_resolve (a : Resolution) : (r.resolve a).result = r.result := by
  rw [resolve_eq]

@[simp] theorem published_resolve (a : Resolution) : (r.resolve a).published = r.published := by
  rw [resolve_eq]

@[simp] theorem start_publicationEnds : (r.publicationEnds result).start = r.start := by
  unfold publicationEnds
  split <;> rfl

@[simp] theorem config_publicationEnds : (r.publicationEnds result).config = r.config := by
  unfold publicationEnds
  split <;> rfl

theorem resolved_resolve (hw : r.result = none) (hr : r.resolved = none) (a : Resolution) :
    (r.resolve a).resolved = some a := by
  simp [resolve, waiting, hw, hr]

@[simp] theorem verdict_resolve (a b : Resolution) : (r.resolve a).verdict b = r.verdict b := by
  simp [verdict]

/-- A requester whose message was published well hears the answer at its next look. -/
theorem look_resolve (hw : r.result = none) (hr : r.resolved = none)
    (hp : r.published = some (.ok ())) (a : Resolution) :
    ((r.resolve a).look now).result = some (now, r.verdict a) := by
  apply look_of_work (by simpa using hw)
  simp [work?, hp, resolved_resolve hw hr]

/-- What a request has come to, whether or not its requester has looked. -/
def outcome? (r : Request) : Option (Except FlowError Unit) :=
  match r.result with
  | some x => some x.2
  | none => r.work?

theorem outcome?_of_result {x : Instant × Except FlowError Unit} (h : r.result = some x) :
    r.outcome? = some x.2 := by
  simp [outcome?, h]

/-- A requester learns at its next look what its request has come to. -/
theorem look_of_outcome (h : r.outcome? = some result) :
    ∃ t, (r.look now).result = some (t, result) := by
  unfold outcome? at h
  split at h
  next x hx =>
    cases h
    exact ⟨x.1, by rw [look_of_result hx, hx]⟩
  next hw => exact ⟨now, look_of_work hw h⟩

/-- A look brings no good end that was not there. -/
theorem outcome?_look :
    (r.look now).outcome? = some (.ok ()) ↔ r.outcome? = some (.ok ()) := by
  unfold look
  split
  next => rfl
  next hw hv => simp [outcome?, hw, hv]
  next hw hv => split <;> simp [outcome?, hw, hv]

theorem verdict_eq_ok_iff (a : Resolution) :
    r.verdict a = .ok () ↔ a.grants r.config.unwired true = true := by
  cases a <;> cases h : r.config.unwired <;> simp [verdict, Resolution.grants, h]

/-- A request comes to a good end just when the resolving side learns that its flow may start. -/
theorem outcome?_resolve (hp : r.published = some (.ok ())) (hr : r.resolved = none)
    (hn : r.outcome? ≠ some (.ok ())) (a : Resolution) :
    (r.resolve a).outcome? = some (.ok ()) ↔ a.grants r.config.unwired r.waiting = true := by
  cases hw : r.result with
  | some x => simp [resolve, waiting, hw, hn, Resolution.not_grants_of_departed]
  | none =>
    have hv : (r.resolve a).outcome? = some (r.verdict a) := by
      simp [outcome?, hw, work?, hp, resolved_resolve hw hr]
    simp [hv, verdict_eq_ok_iff, waiting, hw]

end Request

namespace Scheduler

variable {σ κ : Type} {m : Scheduler σ κ} {s : Start}

def Claim.verdict (s : Start) (policy : UnwiredPolicy) : Claim → Except FlowError Unit
  | noHandler => .error (.handlerNotFound s.selector.event)
  | busy => .error (.admissionRejected s.resource.id)
  | claimed _ => .ok ()
  | unchecked _ =>
    match policy with
    | .accept => .ok ()
    | .reject => .error (.admissionRejected s.resource.id)

/-- The requester is told that all is well just when its flow may start. -/
theorem Claim.verdict_eq_ok_iff (policy : UnwiredPolicy) (c : Claim) :
    c.verdict s policy = .ok () ↔ c.resolution.grants policy true = true := by
  cases c <;> cases policy <;> simp [verdict, resolution, Resolution.grants]

@[simp] theorem start_trigger (config : DispatcherConfig) (now : Instant) :
    (m.trigger config s now).1.start = s := by
  simp [trigger, Request.new]

@[simp] theorem config_trigger (config : DispatcherConfig) (now : Instant) :
    (m.trigger config s now).1.config = config := by
  simp [trigger, Request.new]

theorem trigger_snd (config : DispatcherConfig) (now : Instant) :
    (m.trigger config s now).2 = (m.start s config.unwired true).2 := rfl

/-- A requester that publishes directly has its result at once. -/
theorem trigger_result (config : DispatcherConfig) (now : Instant) :
    (m.trigger config s now).1.result =
      some (now, (m.claim s).1.verdict s config.unwired) := by
  have hr : (m.trigger config s now).1 =
      (((Request.new config s now).resolve (m.claim s).1.resolution).publicationEnds
        ((m.claim s).1.published s)).look now := rfl
  rw [hr]
  apply Request.look_of_work
  · simp [Request.publicationEnds, Request.waiting, Request.resolve, Request.new]
  · cases (m.claim s).1 <;> cases hc : config.unwired <;>
      simp [Request.publicationEnds, Request.waiting, Request.resolve, Request.new,
        Request.work?, Request.verdict, Claim.published, Claim.resolution, Claim.verdict, hc]

end Scheduler

end ClusterControl
