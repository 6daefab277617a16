import ClusterControl.Proofs.Flow.Projection

/-!
# The isolation of resources

What happens to a resource depends on nothing that happens to others, and on no flow outside
admission control: `resource_isolated` compares a run with the part of it that concerns the resource.
Nor does a cancellation hinder any flow outside admission control.
-/

namespace ClusterControl

open ClusterControl.Flow

variable {σ κ : Type}

namespace Flow.Job

def wasDropped (t : Job κ) : Bool :=
  match t.phase with
  | .ended _ _ _ .dropped => true
  | _ => false

theorem wasDropped_of_isLive {t : Job κ} (h : t.isLive = true) : t.wasDropped = false := by
  unfold isLive at h
  unfold wasDropped
  split <;> simp_all

/-- A handler that is looked at does not drop its job. -/
theorem wasDropped_advanceHandler {m : Scheduler σ κ} {t : Job κ} (h : t.isLive = true)
    (now : Instant) : (m.advanceHandler t now).1.wasDropped = false := by
  unfold Scheduler.advanceHandler
  cases hp : t.phase with
  | ready =>
    cases m.handlers t.context.start.selector with
    | none => exact wasDropped_of_isLive h
    | some a =>
      dsimp only
      split <;> rfl
  | live =>
    dsimp only
    split <;> rfl
  | ended => simp [isLive, hp] at h

end Flow.Job

namespace Flow.Interleaving

variable {x y z : Interleaving σ κ} {resourceId : String} {flags : List Bool} {c : Context}
  {handlers : Selector → Option (Handler σ κ)} {world : σ}

/-- No section marks a flow outside admission control. -/
theorem isCancelled_step_of_unchecked (h : x.Sound) (s : Step x y) (hc : c ∈ x.contexts)
    (hx : x.isExclusive c = false) : y.flows.isCancelled c = x.flows.isCancelled c := by
  cases s with
  | cancel other => exact h.isCancelled_cancel hc (.inr hx)
  | leave | answer => rfl
  | arrive | conclude | work => simp [Scheduler.isCancelled, arrive]
  | cleanUp => simp [Scheduler.isCancelled, Interleaving.cleanUp]

structure Unhindered (x : Interleaving σ κ) : Prop where
  numbered : x.Numbered
  unmarked : ∀ c ∈ x.contexts, x.isExclusive c = false → x.flows.isCancelled c = false
  undropped : ∀ t ∈ x.flows.jobs, x.isExclusive t.context = false → t.wasDropped = false

theorem Unhindered.step (h : x.Unhindered) (s : Step x y) : y.Unhindered where
  numbered := h.numbered.step s
  unmarked c hc hx := by
    rw [isExclusive_congr (handlers_step s)] at hx
    rcases mem_contexts_of_step s hc with hc | hc
    · rw [isCancelled_step_of_unchecked h.numbered.sound s hc hx]
      exact h.unmarked c hc hx
    · -- The flow is new, and no mark has its number yet.
      have hnew : c.id ∉ y.flows.marked := fun hid => Nat.lt_irrefl _
        (hc ▸ marked_lt_step h.numbered.sound h.numbered.marked s _ hid)
      simpa [Scheduler.isCancelled] using hnew
  undropped t ht hx := by
    rw [isExclusive_congr (handlers_step s)] at hx
    cases s with
    | work i first now =>
      rcases Scheduler.work_cases x.flows i first now with hw | ⟨u, hu, hl, hw⟩
      · exact h.undropped t (hw ▸ ht) hx
      · dsimp only at ht
        rw [hw] at ht
        rcases List.mem_or_eq_of_mem_set ht with ht | rfl
        · exact h.undropped t ht hx
        · rw [Scheduler.context_runJob] at hx
          have hfree := h.unmarked _ (mem_contexts_of_job (List.mem_of_getElem? hu)) hx
          have hrun : (x.flows.runJob first u now).1 = (x.flows.advanceHandler u now).1 := by
            simp [Scheduler.runJob, hfree]
          rw [hrun]
          exact Job.wasDropped_advanceHandler hl now
    | conclude =>
      rw [Scheduler.jobs_conclude] at ht
      rcases List.mem_append.mp ht with ht | ht
      · exact h.undropped t ht hx
      · obtain ⟨c, _, rfl⟩ := List.mem_map.mp ht
        rfl
    | leave | answer => exact h.undropped t ht hx
    | arrive => exact h.undropped t (by simpa [arrive] using ht) hx
    | cancel => exact h.undropped t (by simpa using ht) hx
    | cleanUp => exact h.undropped t (by simpa [Interleaving.cleanUp] using ht) hx

theorem Unhindered.steps (h : x.Unhindered) (hs : Steps x y) : y.Unhindered := by
  induction hs with
  | refl => exact h
  | tail _ s ih => exact ih.step s

/-- All that can be seen of a resource, at a point of a run and at that point of what is kept. -/
structure SameView (x : Interleaving σ κ) (resourceId : String) (flags : List Bool)
    (z : Interleaving σ κ) : Prop where
  running : z.flows.isRunning resourceId = x.flows.isRunning resourceId
  entry : z.flows.registry.flow? resourceId = x.flows.registry.flow? resourceId
  requests : ∀ s, x.flows.keeps resourceId s = true → ∀ config now,
    (z.flows.trigger config s now).1 = (x.flows.trigger config s now).1
  openings : z.openings = select flags x.openings
  jobs : z.flows.jobs = x.flows.jobs.filter fun t => x.flows.keeps resourceId t.context.start
  cancelled : ∀ c ∈ x.contexts, x.flows.keeps resourceId c.start = true →
    z.flows.isCancelled c = x.flows.isCancelled c

theorem Mirrors.sameView (h : x.Mirrors resourceId flags z) : x.SameView resourceId flags z where
  running := by
    rw [Scheduler.isRunning, h.registry, Registry.isRunning_only]
    rfl
  entry := by rw [h.registry, Registry.flow?_only]
  requests _ hk config now := Scheduler.trigger_of_keeps h.handlers h.registry hk config now
  openings := h.openings
  jobs := by
    rw [h.jobs, jobFlags, List.map_map]
    exact select_map _ _
  cancelled _ hc hk := h.isCancelled_eq hc hk

/-- The sections of a run that concern a resource are a run in which the resource looks the same at
every point. The points correspond, because what is kept of a part of the run comes first in what
is kept of all. Nothing that is cancelled ends a flow outside admission control. -/
theorem resource_isolated (independent : Independent handlers resourceId) {as : List Section}
    (h : performAll ⟨{ handlers, world }, [], []⟩ as = some x) (other : σ) :
    let start : Interleaving σ κ := ⟨{ handlers, world }, [], []⟩
    let flags := flagsAfter resourceId start [] as
    (∃ z, drawAll ⟨{ handlers, world := other }, [], []⟩ (project resourceId start [] as) = some z ∧
      x.SameView resourceId flags z) ∧
    (∀ bs, project resourceId start [] (as ++ bs) =
      project resourceId start [] as ++ project resourceId x flags bs) ∧
    ∀ t ∈ x.flows.jobs, x.isExclusive t.context = false →
      (∀ cancelled, (x.flows.cancel cancelled).isCancelled t.context = false) ∧
        t.wasDropped = false := by
  intro start flags
  refine ⟨?_, project_append start resourceId [] h, ?_⟩
  · obtain ⟨z, hz, hm⟩ := (mirrors_initial handlers world other resourceId).performAll
      (numbered_initial handlers world) independent h
    exact ⟨z, hz, hm.sameView⟩
  · intro t ht hx
    have hinitial : start.Unhindered :=
      ⟨numbered_initial handlers world, by simp [start, contexts], by simp [start]⟩
    have hfree := hinitial.steps (steps_of_performAll h)
    have hcontext := mem_contexts_of_job ht
    refine ⟨fun cancelled => ?_, hfree.undropped t ht hx⟩
    rw [hfree.numbered.sound.isCancelled_cancel hcontext (.inr hx)]
    exact hfree.unmarked _ hcontext hx

def lenient : Selector → Option (Handler Unit Unit)
  | .repair => some { admission := .unchecked, begin := fun _ _ w => (fun _ => ⟨[], none⟩, w) }
  | _ => some { begin := fun _ _ w => (fun _ => ⟨[], none⟩, w) }

theorem lenient_independent (resourceId : String) : Independent lenient resourceId := by
  intro k h hk _ c _ now world other
  rfl

/-- A repair and a deletion of one resource, and the creation of another one. -/
def mixed : List Section :=
  [.arrive (order .repair "a") .accept true, .arrive (order .delete "b") .reject true,
    .arrive ⟨.create, ⟨"18", "dl", .running⟩, "c", .none⟩ .reject true, .answer 0, .answer 1,
    .answer 2, .conclude 0, .conclude 0, .conclude 0, .cancel "18", .work 2 .cancel 5,
    .cancel "17", .work 0 .cancel 5, .cleanUp 2, .work 1 .handler 5, .cleanUp 1]

example : project "17" (⟨{ handlers := lenient, world := () }, [], []⟩ : Interleaving Unit Unit) []
    mixed =
  [(1, .arrive (order .delete "b") .reject true), (3, .answer 0), (3, .conclude 0),
    (3, .cancel "17"), (3, .work 0 .handler 5), (3, .cleanUp 0)] := rfl

theorem resource_isolated_mixed :
    Independent lenient "17" ∧
      ∃ x z : Interleaving Unit Unit,
        performAll ⟨{ handlers := lenient, world := () }, [], []⟩ mixed = some x ∧
        drawAll ⟨{ handlers := lenient, world := () }, [], []⟩
          (project "17" ⟨{ handlers := lenient, world := () }, [], []⟩ [] mixed) = some z ∧
        x.SameView "17" [] z := by
  obtain ⟨x, hx⟩ : ∃ x : Interleaving Unit Unit,
      performAll ⟨{ handlers := lenient, world := () }, [], []⟩ mixed = some x := ⟨_, rfl⟩
  obtain ⟨z, hz, hview⟩ := (resource_isolated (lenient_independent "17") hx ()).1
  exact ⟨lenient_independent "17", x, z, hx, hz, hview⟩

end Flow.Interleaving

end ClusterControl
