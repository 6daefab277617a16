import ClusterControl.Plane.Clusters
import ClusterControl.Proofs.Flow.Bus

/-!
# The gate before a flow

An operation on a cluster looks at the status of its resource before it publishes anything. To see
what it publishes, its bus is made to write down every message. A refused operation leaves the bus
as it found it. Any other operation hands the bus its start, once, and ends as the dispatcher does.
-/

namespace ClusterControl

namespace Bus

variable {β : Type} {bus : Bus β} {config : DispatcherConfig} {now : Instant} {state : β}
  {s : Start}

/-- A requester looks at its deadline, so it comes to a result. -/
theorem isSome_result (bus : Bus β) (config : DispatcherConfig) (now : Instant) (state : β)
    (s : Start) : (bus.trigger config state s now).1.result.isSome := by
  obtain ⟨_, _, _, _, -, -, hresult⟩ := Request.exists_cut config s now
    (bus.publish state now (.start s)).1.publication (bus.publish state now (.start s)).1.answer
  exact Option.isSome_iff_exists.mpr ⟨_, hresult⟩

/-- A dispatcher on a bus: what a requester at an instant comes to, and the bus after it. -/
def dispatch (bus : Bus β) (config : DispatcherConfig) (now : Instant) (state : β) (s : Start) :
    Except FlowError Unit × β :=
  (((bus.trigger config state s now).1.result.get (bus.isSome_result config now state s)).2,
    (bus.trigger config state s now).2)

/-- The same bus with a log of every message that it was handed. -/
def recorded (bus : Bus β) : Bus (β × List Message) where
  publish state now m :=
    let (handling, later) := bus.publish state.1 now m
    (handling, later, state.2 ++ [m])

/-- A dispatcher hands its bus one message, and the log changes nothing else. -/
theorem dispatch_recorded (log : List Message) :
    bus.recorded.dispatch config now (state, log) s =
      ((bus.dispatch config now state s).1, (bus.publish state now (.start s)).2,
        log ++ [.start s]) := rfl

/-- What it takes to be admitted: the publication went well and the signal was resolved in favour
of the requester, both by the deadline. -/
def Admits (bus : Bus β) (config : DispatcherConfig) (now : Instant) (state : β) (s : Start) :
    Prop :=
  ∃ p a, (bus.publish state now (.start s)).1.publication = some (p, .ok ()) ∧
    (bus.publish state now (.start s)).1.answer = some a ∧
    max p a.time ≤ now + config.timeout.ceilMillis ∧
    (a.resolution = .accept ∨ a.resolution = .unwired ∧ config.unwired = .accept)

theorem verdict_eq_ok {a : Resolution} (h : (Request.new config s now).verdict a = .ok ()) :
    a = .accept ∨ a = .unwired ∧ config.unwired = .accept := by
  cases a with
  | accept => exact .inl rfl
  | reject | drop => cases h
  | unwired =>
    refine .inr ⟨rfl, ?_⟩
    cases hu : config.unwired with
    | accept => rfl
    | reject => simp [Request.verdict, Request.new, hu] at h

/-- A dispatcher reports nothing as admitted that the bus did not admit in time. -/
theorem admits_of_dispatch (h : (bus.dispatch config now state s).1 = .ok ()) :
    bus.Admits config now state s := by
  obtain ⟨before, m, _, v, hcut, hdecided, hresult⟩ := Request.exists_cut config s now
    (bus.publish state now (.start s)).1.publication (bus.publish state now (.start s)).1.answer
  have hv : (bus.dispatch config now state s).1 = v := by
    have hx : (bus.trigger config state s now).1.result = some (m.time, v) := hresult
    simp [dispatch, hx]
  obtain rfl : v = .ok () := hv.symm.trans h
  cases hwork : ((Request.new config s now).play before).work? with
  | none => cases ((Request.decision?_of_idle hwork).mp hdecided).2
  | some u =>
    obtain rfl : u = .ok () := by simpa [Request.decision?, hwork] using hdecided
    generalize hok : (Except.ok () : Except FlowError Unit) = u at hwork
    cases (Request.work_play hcut.subset hcut.waits).mp hwork with
    | failed ends seen => cases hok
    | answered ends resolves seen heard =>
      have ht := hcut.time_of_answered ends resolves seen heard
      exact ⟨_, _, ends, resolves, ht ▸ hcut.le_deadline, verdict_eq_ok hok.symm⟩

end Bus

/-- On the bus of a scheduler a dispatcher gives what the scheduler gives its own requesters. -/
theorem Scheduler.dispatch_toBus {σ κ : Type} {m : Scheduler σ κ} {config : DispatcherConfig}
    {s : Start} {now t : Instant} {v : Except FlowError Unit}
    (h : (m.trigger config s now).1.result = some (t, v)) :
    (toBus config.unwired).dispatch config now m s = (v, (m.trigger config s now).2) := by
  obtain ⟨hresult, hlater⟩ := trigger_toBus m config s now
  simp only [Bus.dispatch, hresult.trans h, hlater, Option.get_some]

namespace Selector

theorem allows_create {status : ResourceStatus} :
    create.allows status = true ↔ status = .created := by
  simp [allows]

theorem allows_repair {status : ResourceStatus} :
    repair.allows status = true ↔ status = .running ∨ status = .failed := by
  simp [allows]

theorem allows_delete {status : ResourceStatus} :
    delete.allows status = true ↔ status ≠ .deleteInProgress ∧ status ≠ .deleted := by
  simp [allows, and_comm]

end Selector

namespace Clusters

variable {β : Type}

/-- What an operation does that starts a flow in allowed statuses only, told by its result and by
the bus and its log after it. -/
structure Gated (bus : Bus β) (config : DispatcherConfig) (now : Instant) (state : β)
    (log : List Message) (s : Start) (allowed : Prop) (working : ResourceStatus)
    (outcome : Except PlaneError Resource × β × List Message) : Prop where
  refused : ¬ allowed → outcome =
    (.error (.invalidResourceState s.resource.id s.resource.status.name), state, log)
  published : allowed →
    outcome.2 = ((bus.publish state now (.start s)).2, log ++ [.start s])
  failed : allowed → ∀ e, (bus.dispatch config now state s).1 = .error e →
    outcome.1 = .error (.flow e)
  succeeded : allowed → (bus.dispatch config now state s).1 = .ok () →
    outcome.1 = .ok ⟨s.resource.id, s.resource.name, working⟩
  admitted : ∀ r, outcome.1 = .ok r → allowed ∧ (bus.dispatch config now state s).1 = .ok () ∧
    bus.Admits config now state s

/-- Every start goes through the same gate; it reads the status that its selector allows. -/
theorem gated_trigger (bus : Bus β) (config : DispatcherConfig) (now : Instant) (state : β)
    (log : List Message) (s : Start) {allowed : Prop}
    (hallowed : s.selector.allows s.resource.status = true ↔ allowed) :
    Gated bus config now state log s allowed s.selector.inProgress
      (trigger (bus.recorded.dispatch config now) (state, log) s) := by
  by_cases hs : s.selector.allows s.resource.status = true
  · have hall := hallowed.mp hs
    cases hd : (bus.dispatch config now state s).1 with
    | ok =>
      have hout : trigger (bus.recorded.dispatch config now) (state, log) s =
          (.ok (s.resource.withStatus s.selector.inProgress),
            (bus.publish state now (.start s)).2, log ++ [.start s]) := by
        simp only [trigger, hs, if_true, Bus.dispatch_recorded, hd]
      rw [hout]
      exact ⟨fun h => absurd hall h, fun _ => rfl, fun _ e he => by simp [hd] at he,
        fun _ _ => rfl, fun _ _ => ⟨hall, hd, Bus.admits_of_dispatch hd⟩⟩
    | error e =>
      have hout : trigger (bus.recorded.dispatch config now) (state, log) s =
          (.error (.flow e), (bus.publish state now (.start s)).2, log ++ [.start s]) := by
        simp only [trigger, hs, if_true, Bus.dispatch_recorded, hd]
      rw [hout]
      exact ⟨fun h => absurd hall h, fun _ => rfl, fun _ f hf => by simp_all,
        fun _ h => by simp [hd] at h, fun r h => by cases h⟩
  · have hall : ¬ allowed := fun h => hs (hallowed.mpr h)
    have hout : trigger (bus.recorded.dispatch config now) (state, log) s =
        (.error (.invalidResourceState s.resource.id s.resource.status.name), state, log) := by
      simp only [trigger, hs, if_false, Bool.false_eq_true]
    rw [hout]
    exact ⟨fun _ => rfl, fun h => absurd h hall, fun h => absurd h hall, fun h => absurd h hall,
      fun r h => by cases h⟩

/-- The three operations are gated by the status of their resource. A refused operation names that
status and publishes nothing. Any other one publishes its start, with the snapshot as it was given,
and gives either the error of the dispatcher or the same resource at work. So whatever comes back
at work was reported as admitted. -/
theorem operations_gated (bus : Bus β) (config : DispatcherConfig) (now : Instant) (state : β)
    (log : List Message) (r : Resource) (user : String) (request : RepairRequest) :
    Gated bus config now state log ⟨.create, r, user, .none⟩ (r.status = .created)
      .createInProgress
      (create (bus.recorded.dispatch config now) (state, log) r user) ∧
    Gated bus config now state log ⟨.repair, r, user, .repair request⟩
      (r.status = .running ∨ r.status = .failed) .repairInProgress
      (repair (bus.recorded.dispatch config now) (state, log) r user request) ∧
    Gated bus config now state log ⟨.delete, r, user, .none⟩
      (r.status ≠ .deleteInProgress ∧ r.status ≠ .deleted) .deleteInProgress
      (delete (bus.recorded.dispatch config now) (state, log) r user) :=
  ⟨gated_trigger bus config now state log _ Selector.allows_create,
    gated_trigger bus config now state log _ Selector.allows_repair,
    gated_trigger bus config now state log _ Selector.allows_delete⟩

end Clusters

end ClusterControl
