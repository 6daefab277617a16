import ClusterControl.Proofs.Flow.Interleaving
import ClusterControl.Proofs.Flow.Request
import Mathlib.Logic.Relation

/-!
# The release of resources

A job that finishes, fails or is dropped goes on to its clean-up, which gives the resource back. A
job whose handler crashes has no clean-up: its entry stays in the registry for good, and every later
start for its resource is turned away. `release_unless_crashed` has both sides.
-/

namespace ClusterControl

open ClusterControl.Flow

variable {σ κ : Type}

namespace Flow.Job

def hasCrashed (t : Job κ) : Bool :=
  match t.phase with
  | .ended _ _ _ .crashed => true
  | _ => false

theorem isLive_of_hasCrashed {t : Job κ} (h : t.hasCrashed = true) : t.isLive = false := by
  unfold hasCrashed at h
  unfold isLive
  split at h <;> simp_all

theorem hasExited_of_hasCrashed {t : Job κ} (h : t.hasCrashed = true) : t.hasExited = false := by
  unfold hasCrashed at h
  unfold hasExited
  split at h <;> simp_all

theorem hasExited_or_hasCrashed {t : Job κ} (h : t.isLive = false) :
    t.hasExited = true ∨ t.hasCrashed = true := by
  unfold isLive at h
  unfold hasExited hasCrashed
  split at h
  next exit hp => cases exit <;> simp [hp]
  next => cases h

end Flow.Job

namespace Scheduler

variable {m : Scheduler σ κ} {s : Start}

theorem trigger_idle (h : m.admission? s.selector = some .exclusive)
    (hr : m.isRunning s.resource.id = false) (config : DispatcherConfig) (now : Instant) :
    (m.trigger config s now).1.result = some (now, .ok ()) := by
  rw [trigger_result, claim_idle h hr]
  rfl

theorem trigger_busy (h : m.admission? s.selector = some .exclusive)
    (hr : m.isRunning s.resource.id = true) (config : DispatcherConfig) (now : Instant) :
    (m.trigger config s now).1.result =
      some (now, .error (.admissionRejected s.resource.id)) := by
  rw [trigger_result, claim_busy h hr]
  rfl

/-- What a requester of a kind under admission control hears about a resource. -/
def Replies (m : Scheduler σ κ) (resourceId : String) (result : Except FlowError Unit) : Prop :=
  ∀ s config now, s.resource.id = resourceId → m.admission? s.selector = some .exclusive →
    (m.trigger config s now).1.result = some (now, result)

theorem replies_idle {resourceId : String} (h : m.isRunning resourceId = false) :
    m.Replies resourceId (.ok ()) := by
  rintro s config now rfl ha
  exact trigger_idle ha h config now

theorem replies_busy {resourceId : String} (h : m.isRunning resourceId = true) :
    m.Replies resourceId (.error (.admissionRejected resourceId)) := by
  rintro s config now rfl ha
  exact trigger_busy ha h config now

end Scheduler

namespace Flow.Interleaving

variable {x y : Interleaving σ κ} {t : Job κ} {handlers : Selector → Option (Handler σ κ)}
  {world : σ}

abbrev Steps : Interleaving σ κ → Interleaving σ κ → Prop := Relation.ReflTransGen Step

theorem Reachable.steps (h : Reachable handlers world x) (hs : Steps x y) :
    Reachable handlers world y := by
  induction hs with
  | refl => exact h
  | tail _ s ih => exact ih.step s

theorem mem_jobs_step (s : Step x y) (ht : t ∈ x.flows.jobs) (hl : t.isLive = false) :
    t ∈ y.flows.jobs := by
  cases s with
  | arrive => simpa [arrive] using ht
  | leave | answer => exact ht
  | conclude => exact Scheduler.mem_jobs_conclude ht
  | cancel => simpa using ht
  | work => exact Scheduler.mem_jobs_work ht hl
  | cleanUp _ exited _ =>
    simpa [cleanUp, Scheduler.cleanUp_eq, exited, Scheduler.release] using ht

/-- A job that is over is never looked at again. -/
theorem mem_jobs_steps (hs : Steps x y) (ht : t ∈ x.flows.jobs) (hl : t.isLive = false) :
    t ∈ y.flows.jobs := by
  induction hs with
  | refl => exact ht
  | tail _ s ih => exact mem_jobs_step s ih hl

theorem isExclusive_steps (hs : Steps x y) : y.isExclusive = x.isExclusive := by
  induction hs with
  | refl => rfl
  | tail _ s ih => rw [isExclusive_congr (handlers_step s), ih]

/-- Only jobs that have exited have cleaned up. -/
theorem Reachable.exited_of_cleaned (h : Reachable handlers world x) :
    ∀ id ∈ x.cleaned, ∃ t ∈ x.flows.jobs, t.context.id = id ∧ t.hasExited = true := by
  induction h with
  | initial => simp
  | @step x y _ s ih =>
    have keep : ∀ id ∈ x.cleaned, ∃ t ∈ y.flows.jobs, t.context.id = id ∧ t.hasExited = true := by
      intro id hid
      obtain ⟨t, ht, hi, he⟩ := ih id hid
      exact ⟨t, mem_jobs_step s ht (Job.isLive_of_hasExited he), hi, he⟩
    cases s with
    | cleanUp spawned exited once =>
      intro id hid
      rcases List.mem_cons.mp hid with rfl | hid
      · exact ⟨_, mem_jobs_step (.cleanUp spawned exited once) spawned
          (Job.isLive_of_hasExited exited), rfl, exited⟩
      · exact keep id hid
    | _ => exact keep

/-- Jobs have different numbers. -/
theorem Sound.job_eq (h : x.Sound) {u : Job κ} (ht : t ∈ x.flows.jobs) (hu : u ∈ x.flows.jobs)
    (hi : t.context.id = u.context.id) : t = u := by
  have hd := h.accounts.distinct
  rw [contexts, List.map_append, List.map_map] at hd
  exact List.inj_on_of_nodup_map (List.Nodup.of_append_right hd) ht hu hi

theorem Sound.mem_active_of_uncleaned (hx : x.isExclusive t.context = true)
    (ht : t ∈ x.flows.jobs) (hn : t.context.id ∉ x.cleaned) : t ∈ x.active :=
  List.mem_filter.mpr ⟨ht, by simp [holds, hx, hn]⟩

theorem Reachable.crashed_uncleaned (h : Reachable handlers world x) (ht : t ∈ x.flows.jobs)
    (hc : t.hasCrashed = true) : t.context.id ∉ x.cleaned := by
  intro hid
  obtain ⟨u, hu, hi, he⟩ := h.exited_of_cleaned _ hid
  rw [h.sound.job_eq hu ht hi, Job.hasExited_of_hasCrashed hc] at he
  cases he

/-- The entry of a flow goes with its clean-up. -/
theorem Sound.ne_of_cleaned (h : x.Sound) {e : Entry} (he : e ∈ x.flows.registry) :
    e.id ∉ x.cleaned := by
  obtain ⟨c, _, hh, rfl⟩ := h.accounts.mem_iff.mp he
  have hkept : c.id ∉ x.cleaned := by simpa using (Bool.and_eq_true_iff.mp hh).2
  exact hkept

/-- The clean-up of a job leaves its resource idle. -/
theorem Sound.idle_cleanUp (h : x.Sound) (hx : x.isExclusive t.context = true)
    (ht : t ∈ x.flows.jobs) (he : t.hasExited = true) (hn : t.context.id ∉ x.cleaned) :
    (x.cleanUp t).flows.isRunning t.context.start.resource.id = false := by
  have hflow := h.registered (Sound.mem_active_of_uncleaned hx ht hn)
  have hreg : (x.cleanUp t).flows.registry =
      x.flows.registry.filter (·.resourceId != t.context.start.resource.id) := by
    simp only [Interleaving.cleanUp, Scheduler.cleanUp_eq, he, if_true, Scheduler.release,
      Registry.release, hflow]
    exact if_pos rfl
  rw [Scheduler.isRunning, hreg, ← Bool.not_eq_true, Registry.isRunning_iff]
  rintro ⟨e, hmem, hr⟩
  simpa [hr] using (List.mem_filter.mp hmem).2

theorem Reachable.keeps_of_crashed (h : Reachable handlers world x) (ht : t ∈ x.flows.jobs)
    (exclusive : x.isExclusive t.context = true) (hc : t.hasCrashed = true) :
    x.flows.registry.flow? t.context.start.resource.id = some (.ofContext t.context) ∧
      x.flows.Replies t.context.start.resource.id
        (.error (.admissionRejected t.context.start.resource.id)) := by
  have hflow := h.sound.registered
    (Sound.mem_active_of_uncleaned exclusive ht (h.crashed_uncleaned ht hc))
  refine ⟨hflow, Scheduler.replies_busy ?_⟩
  simp [Scheduler.isRunning, Registry.isRunning, hflow]

/-- A job that is over has exited or crashed. A job under admission control that has finished, failed
or was dropped can clean up, and the next requester of its resource is admitted. Once it has cleaned
up, no entry is left of it, and its resource is free for the next unless another flow has it by
then. A job that has crashed keeps its resource in every later state, and every requester is turned
away. -/
theorem release_unless_crashed (h : Reachable handlers world x) (ht : t ∈ x.flows.jobs)
    (exclusive : x.isExclusive t.context = true) :
    (t.isLive = false → t.hasExited = true ∨ t.hasCrashed = true) ∧
    (t.hasExited = true → t.context.id ∉ x.cleaned →
      Step x (x.cleanUp t) ∧ t.context.id ∈ (x.cleanUp t).cleaned ∧
        (x.cleanUp t).flows.Replies t.context.start.resource.id (.ok ())) ∧
    (t.context.id ∈ x.cleaned →
      t.hasExited = true ∧ (∀ e ∈ x.flows.registry, e.id ≠ t.context.id) ∧
        (x.flows.isRunning t.context.start.resource.id = false →
          x.flows.Replies t.context.start.resource.id (.ok ()))) ∧
    (t.hasCrashed = true → ∀ y, Steps x y →
      y.flows.registry.flow? t.context.start.resource.id = some (.ofContext t.context) ∧
        y.flows.Replies t.context.start.resource.id
          (.error (.admissionRejected t.context.start.resource.id))) := by
  refine ⟨Job.hasExited_or_hasCrashed, fun he hn => ⟨.cleanUp ht he hn, List.mem_cons_self, ?_⟩,
    fun hid => ⟨?_, ?_, Scheduler.replies_idle⟩, ?_⟩
  · exact Scheduler.replies_idle (h.sound.idle_cleanUp exclusive ht he hn)
  · obtain ⟨u, hu, hi, he⟩ := h.exited_of_cleaned _ hid
    rwa [h.sound.job_eq hu ht hi] at he
  · intro e he hi
    exact h.sound.ne_of_cleaned he (hi ▸ hid)
  · intro hc y hs
    have hxy : y.isExclusive t.context = true := by rw [isExclusive_steps hs, exclusive]
    exact (h.steps hs).keeps_of_crashed (mem_jobs_steps hs ht (Job.isLive_of_hasCrashed hc)) hxy hc

/-- Handlers that crash at their first step. -/
def crashing : Selector → Option (Handler Unit Unit) :=
  fun _ => some { begin := fun _ now world => (fun _ => ⟨[], some (now, .crashed)⟩, world) }

/-- A repair was accepted, and its handler will crash. -/
def doomed : Interleaving Unit Unit where
  flows :=
    { handlers := crashing, registry := [⟨0, "17", .repair, "a"⟩]
      jobs := [⟨⟨0, order .repair "a"⟩, .ready⟩], nextId := 1, world := () }

theorem doomed_reachable : Reachable crashing () doomed := by
  have h₀ : Reachable crashing () _ := .initial
  have h₁ := h₀.step (.arrive (order .repair "a") .reject true)
  have h₂ := h₁.step (.answer (show _ = [] ++ _ :: [] from rfl) rfl)
  have h₃ := h₂.step (.conclude (show _ = [] ++ _ :: [] from rfl) rfl)
  exact h₃

def crashedJob : Job Unit := ⟨⟨0, order .repair "a"⟩, .ended 0 0 [] .crashed⟩

def jammed : Interleaving Unit Unit where
  flows :=
    { handlers := crashing, registry := [⟨0, "17", .repair, "a"⟩], jobs := [crashedJob]
      nextId := 1, world := () }

theorem jammed_reachable : Reachable crashing () jammed :=
  doomed_reachable.step (.work 0 .cancel 0)

theorem release_unless_crashed_jammed :
    crashedJob.hasCrashed = true ∧ ∀ y, Steps jammed y →
      y.flows.registry.flow? "17" = some ⟨0, "17", .repair, "a"⟩ ∧
        y.flows.Replies "17" (.error (.admissionRejected "17")) :=
  ⟨rfl, (release_unless_crashed (t := crashedJob) jammed_reachable List.mem_cons_self rfl).2.2.2
    rfl⟩

/-- A crash is an end without a release. The entry of the flow outlives it, the next requester is
turned away, and a cancellation frees nothing. -/
theorem crash_keeps_resource :
    ∃ x : Interleaving Unit Unit, Reachable crashing () x ∧
      ∃ t ∈ x.flows.jobs, x.isExclusive t.context = true ∧ t.isLive = false ∧
        x.flows.registry.flow? "17" = some (.ofContext t.context) ∧
        (x.flows.trigger {} (order .delete "b") 1).1.result =
          some (1, .error (.admissionRejected "17")) ∧
        ((x.flows.cancel "17").settle 1).isRunning "17" = true :=
  ⟨jammed, jammed_reachable, crashedJob, List.mem_cons_self, rfl, rfl, rfl, rfl, rfl⟩

end Flow.Interleaving

end ClusterControl
