import ClusterControl.Proofs.Flow.Release
import ClusterControl.Proofs.Flow.Turn

/-!
# Settled schedulers

A scheduler that has settled has no job that could still run: each has ended, or has a course that
has not ended yet. A flow stays on the course that it began with, whatever happens to the others, and
ends as that does unless somebody has asked to cancel it. So a flow whose course is over by some
instant is over itself in each settled state from then on.
-/

namespace ClusterControl

open ClusterControl.Flow

variable {σ κ : Type}

namespace Flow

def Ending.exit : Ending → Exit
  | .returned result => .finished result
  | .crashed => .crashed

/-- The job of a flow that follows its course up to an instant. -/
def pursue (flow : Context) (begun : Instant) (course : Course κ) (now : Instant) : Job κ :=
  match (course now).ending with
  | none => ⟨flow, .live begun course⟩
  | some (finish, ending) => ⟨flow, .ended begun finish (course now).calls ending.exit⟩

/-- What can become of a flow with a course. It ends as the course does, unless it is marked and
dropped. -/
inductive Runs (flow : Context) (course : Course κ) (marked : List Id) : Job κ → Prop
  | live (begun : Instant) : Runs flow course marked ⟨flow, .live begun course⟩
  | dropped (h : flow.id ∈ marked) (begun finish : Instant) (calls : List (Instant × κ)) :
      Runs flow course marked ⟨flow, .ended begun finish calls .dropped⟩
  | ended {now finish : Instant} {ending : Ending} (h : (course now).ending = some (finish, ending))
      (begun : Instant) (calls : List (Instant × κ)) :
      Runs flow course marked ⟨flow, .ended begun finish calls ending.exit⟩

def Job.Settled (t : Job κ) (now : Instant) : Prop :=
  match t.phase with
  | .ready => False
  | .live _ course => (course now).ending = none
  | .ended .. => True

variable {flow : Context} {course : Course κ} {marked : List Id} {begun now : Instant} {t : Job κ}

theorem runs_pursue : Runs flow course marked (pursue flow begun course now) := by
  unfold pursue
  split
  next => exact .live begun
  next finish ending h => exact .ended h begun _

theorem settled_pursue : (pursue flow begun course now).Settled now := by
  unfold pursue
  split
  next h => exact h
  next => trivial

theorem Runs.context_eq (h : Runs flow course marked t) : t.context = flow := by
  cases h <;> rfl

theorem Runs.mono (h : Runs flow course marked t) {more : List Id} (hm : marked ⊆ more) :
    Runs flow course more t := by
  cases h with
  | live begun => exact .live begun
  | dropped hid begun finish calls => exact .dropped (hm hid) begun finish calls
  | ended hend begun calls => exact .ended hend begun calls

/-- A settled flow whose course is over is over, by itself or because it was marked. -/
theorem Runs.over (h : Runs flow course marked t) (hs : t.Settled now)
    (hover : (course now).ending.isSome = true) :
    (t.hasExited = true ∧ (flow.id ∈ marked ∨
      ∃ later finish result, (course later).ending = some (finish, .returned result))) ∨
    (t.hasCrashed = true ∧
      ∃ later finish, (course later).ending = some (finish, .crashed)) := by
  cases h with
  | live begun =>
    have hnone : (course now).ending = none := hs
    rw [hnone] at hover
    cases hover
  | dropped hid => exact .inl ⟨rfl, .inl hid⟩
  | @ended later finish ending hend =>
    cases ending with
    | returned result => exact .inl ⟨rfl, .inr ⟨later, finish, result, hend⟩⟩
    | crashed => exact .inr ⟨rfl, later, finish, hend⟩

end Flow

namespace Scheduler

variable {m n : Scheduler σ κ} {t u : Job κ} {first : Branch} {now : Instant}
  {flow : Context} {course : Course κ}

def Complete (m : Scheduler σ κ) : Prop := ∀ kind, ∃ h, m.handlers kind = some h

section Jobs

theorem advanceHandler_live {begun : Instant} (hp : t.phase = .live begun course) :
    m.advanceHandler t now = (pursue t.context begun course now, m.world) := by
  obtain ⟨flow, phase⟩ := t
  subst hp
  simp only [advanceHandler, pursue]
  split
  next h => simp only [h]
  next h => simp only [h, Ending.exit]
  next h => simp only [h, Ending.exit]

theorem advanceHandler_ready {h : Handler σ κ} (hp : t.phase = .ready)
    (hh : m.handlers t.context.start.selector = some h) :
    m.advanceHandler t now =
      (pursue t.context now (h.begin t.context now m.world).1 now,
        (h.begin t.context now m.world).2) := by
  obtain ⟨flow, phase⟩ := t
  subst hp
  simp only [advanceHandler, hh, pursue]
  split
  next h => simp only [h]
  next h => simp only [h, Ending.exit]
  next h => simp only [h, Ending.exit]

theorem settled_advanceHandler (hm : m.Complete) (hl : t.isLive = true) :
    (m.advanceHandler t now).1.Settled now := by
  cases hp : t.phase with
  | ready =>
    obtain ⟨h, hh⟩ := hm t.context.start.selector
    rw [advanceHandler_ready hp hh]
    exact settled_pursue
  | live begun course =>
    rw [advanceHandler_live hp]
    exact settled_pursue
  | ended => simp [Job.isLive, hp] at hl

theorem settled_dropJob (t : Job κ) : (dropJob t now).Settled now := by
  unfold dropJob
  split
  next => trivial
  next => trivial
  next hp => simp [Job.Settled, hp]

theorem settled_runJob (hm : m.Complete) (hl : t.isLive = true) :
    (m.runJob first t now).1.Settled now := by
  unfold runJob
  split
  · cases first <;> exact settled_dropJob _
  · exact settled_advanceHandler hm hl

theorem runs_dropJob (h : Runs flow course m.marked t) (hc : m.isCancelled t.context = true) :
    Runs flow course m.marked (dropJob t now) := by
  have hid : flow.id ∈ m.marked := h.context_eq ▸ List.contains_iff_mem.mp hc
  cases h with
  | live begun => exact .dropped hid begun now _
  | dropped _ begun finish calls => exact .dropped hid begun finish calls
  | ended hend begun calls => exact .ended hend begun calls

theorem runs_advanceHandler (h : Runs flow course m.marked t) :
    Runs flow course m.marked (m.advanceHandler t now).1 := by
  cases h with
  | live begun =>
    rw [advanceHandler_live rfl]
    exact runs_pursue
  | dropped hid begun finish calls => exact .dropped hid begun finish calls
  | ended hend begun calls => exact .ended hend begun calls

theorem runs_runJob (h : Runs flow course m.marked t) :
    Runs flow course m.marked (m.runJob first t now).1 := by
  unfold runJob
  split
  next hc =>
    cases first with
    | cancel => exact runs_dropJob h hc
    | handler =>
      refine runs_dropJob (runs_advanceHandler h) ?_
      rw [context_advanceHandler]
      exact hc
  next => exact runs_advanceHandler h

end Jobs

/-- What has become of a job after its turn. By then other jobs may have changed the world. -/
inductive Turned (m : Scheduler σ κ) (first : Branch) (now : Instant) (t : Job κ) : Job κ → Prop
  | idle (h : t.isLive = false) : Turned m first now t t
  | ran (h : t.isLive = true) {n : Scheduler σ κ} (handlers : n.handlers = m.handlers)
      (marked : n.marked = m.marked) : Turned m first now t (n.runJob first t now).1

theorem Turned.context_eq (h : m.Turned first now t u) : u.context = t.context := by
  cases h with
  | idle => rfl
  | ran => exact context_runJob first t now

theorem Turned.settled (hm : m.Complete) (h : m.Turned first now t u) : u.Settled now := by
  cases h with
  | idle hl =>
    unfold Job.Settled
    unfold Job.isLive at hl
    split at hl
    next hp => simp [hp]
    next => cases hl
  | ran hl handlers =>
    exact settled_runJob (fun kind => handlers ▸ hm kind) hl

theorem settleJobs_turned (before rest : List (Job κ)) (hh : n.handlers = m.handlers)
    (hm : n.marked = m.marked) :
    ∃ after, (settleJobs first now n before rest).jobs = before ++ after ∧
      List.Forall₂ (m.Turned first now) rest after := by
  induction rest generalizing n before with
  | nil => exact ⟨[], by simp [settleJobs], .nil⟩
  | cons t rest ih =>
    cases hl : t.isLive with
    | false =>
      obtain ⟨after, hjobs, hturned⟩ := ih (before ++ [t]) hh hm
      exact ⟨t :: after, by simpa [settleJobs, hl] using hjobs, .cons (.idle hl) hturned⟩
    | true =>
      let u := n.runJob first t now
      have hh' : (({ n with world := u.2 } : Scheduler σ κ).cleanUp u.1).handlers = m.handlers := by
        rw [cleanUp_eq]
        split <;> exact hh
      have hm' : (({ n with world := u.2 } : Scheduler σ κ).cleanUp u.1).marked = m.marked := by
        rw [marked_cleanUp]
        exact hm
      obtain ⟨after, hjobs, hturned⟩ := ih (before ++ [u.1]) hh' hm'
      exact ⟨u.1 :: after, by simpa [settleJobs, hl] using hjobs, .cons (.ran hl hh hm) hturned⟩

/-- When a scheduler settles each of its jobs has its turn. -/
theorem settle_turned (m : Scheduler σ κ) (now : Instant) (first : Branch) :
    List.Forall₂ (m.Turned first now) m.jobs (m.settle now first).jobs := by
  obtain ⟨after, hjobs, hturned⟩ := settleJobs_turned (n := m) [] m.jobs rfl rfl
  rw [settle, hjobs]
  exact hturned

theorem marked_settleJobs (before rest : List (Job κ)) :
    (settleJobs first now m before rest).marked = m.marked := by
  induction rest generalizing m before with
  | nil => rfl
  | cons t rest ih =>
    rw [settleJobs]
    split
    · exact (ih _).trans marked_cleanUp
    · exact ih _

@[simp] theorem marked_settle (m : Scheduler σ κ) (now : Instant) (first : Branch) :
    (m.settle now first).marked = m.marked := marked_settleJobs [] m.jobs

theorem contexts_turned {before after : List (Job κ)}
    (h : List.Forall₂ (m.Turned first now) before after) :
    after.map Job.context = before.map Job.context := by
  induction h with
  | nil => rfl
  | cons hturned _ ih => rw [List.map_cons, List.map_cons, hturned.context_eq, ih]

@[simp] theorem contexts_settle (m : Scheduler σ κ) (now : Instant) (first : Branch) :
    (m.settle now first).jobs.map Job.context = m.jobs.map Job.context :=
  contexts_turned (settle_turned m now first)

theorem exists_of_turned {before after : List (Job κ)}
    (h : List.Forall₂ (m.Turned first now) before after) :
    (∀ t ∈ before, ∃ u ∈ after, m.Turned first now t u) ∧
      ∀ u ∈ after, ∃ t ∈ before, m.Turned first now t u := by
  induction h with
  | nil => simp
  | cons hturned _ ih =>
    constructor
    · refine List.forall_mem_cons.mpr ⟨⟨_, List.mem_cons_self, hturned⟩, fun t ht => ?_⟩
      obtain ⟨u, hu, htu⟩ := ih.1 t ht
      exact ⟨u, List.mem_cons_of_mem _ hu, htu⟩
    · refine List.forall_mem_cons.mpr ⟨⟨_, List.mem_cons_self, hturned⟩, fun u hu => ?_⟩
      obtain ⟨t, ht, htu⟩ := ih.2 u hu
      exact ⟨t, List.mem_cons_of_mem _ ht, htu⟩

/-- After a scheduler has settled no job can run. -/
theorem settled_settle (hm : m.Complete) (now : Instant) (first : Branch) :
    ∀ u ∈ (m.settle now first).jobs, u.Settled now := by
  intro u hu
  obtain ⟨t, _, hturned⟩ := (exists_of_turned (settle_turned m now first)).2 u hu
  exact hturned.settled hm

@[simp] theorem marked_start (s : Start) (policy : UnwiredPolicy) (waiting : Bool) :
    (m.start s policy waiting).2.marked = m.marked := by
  rw [start_eq, marked_conclude, marked_claim]

/-- Events keep a flow on its course. -/
theorem runs_step (h : ∃ t ∈ m.jobs, Runs flow course m.marked t) (e : Event) :
    ∃ t ∈ (m.step e).jobs, Runs flow course (m.step e).marked t := by
  obtain ⟨t, ht, hr⟩ := h
  cases e with
  | start s config now waiting =>
    refine ⟨t, ?_, by rwa [step, marked_start]⟩
    rw [← jobs_claim (s := s)] at ht
    exact mem_jobs_conclude ht
  | cancel resourceId =>
    exact ⟨t, by simpa [step] using ht, hr.mono (marked_subset_cancel resourceId)⟩
  | turn i first now =>
    rcases m.live_or_over i with ⟨u, hu, hl⟩ | hover
    · rw [step, turn_live hu hl, jobs_cleanUp, marked_cleanUp, work_live hu hl]
      obtain ⟨j, hj⟩ := List.mem_iff_getElem?.mp ht
      by_cases hij : i = j
      · subst hij
        obtain rfl := Option.some.inj (hu.symm.trans hj)
        exact ⟨_, List.mem_set (List.getElem?_eq_some_iff.mp hj).1 _, runs_runJob hr⟩
      · exact ⟨t, List.mem_iff_getElem?.mpr ⟨j, by rw [List.getElem?_set_ne hij, hj]⟩, hr⟩
    · rw [step, turn_over hover]
      exact ⟨t, ht, hr⟩

theorem runs_run (h : ∃ t ∈ m.jobs, Runs flow course m.marked t) (es : List Event) :
    ∃ t ∈ (m.run es).jobs, Runs flow course (m.run es).marked t := by
  induction es generalizing m with
  | nil => exact h
  | cons e es ih => exact ih (runs_step h e)

@[simp] theorem handlers_run (es : List Event) : (m.run es).handlers = m.handlers := by
  induction es generalizing m with
  | nil => rfl
  | cons e es ih => exact ih.trans (handlers_step e)

end Scheduler

end ClusterControl
