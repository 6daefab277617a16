import ClusterControl.Flow.Scheduler

/-!
# The sections of a scheduler

What each section of a scheduler does to the registry and to the jobs. A claim depends on the
admission of its handler and on the registry alone; every other section keeps the flows that the
jobs run.
-/

namespace ClusterControl

open ClusterControl.Flow

variable {σ κ : Type}

/-- To replace an element by one that a function cannot tell from it is nothing to the function. -/
theorem map_set_of_eq {α β : Type} {f : α → β} {l : List α} {i : Nat} {a b : α}
    (ha : l[i]? = some a) (hb : f b = f a) : (l.set i b).map f = l.map f := by
  obtain ⟨hi, rfl⟩ := List.getElem?_eq_some_iff.mp ha
  have hn : i < (l.map f).length := by simpa using hi
  have hf : f l[i] = (l.map f)[i] := by simp
  rw [List.map_set, hb, hf, List.set_getElem_self]

namespace Flow.Job

/-- Whether a job has ended other than by a crash, and so goes on to its clean-up. -/
def hasExited (t : Job κ) : Bool :=
  match t.phase with
  | .ended _ _ _ (.finished _) | .ended _ _ _ .dropped => true
  | _ => false

theorem isLive_of_hasExited {t : Job κ} (h : t.hasExited = true) : t.isLive = false := by
  unfold hasExited at h
  unfold isLive
  split at h <;> simp_all

/-- Whether a job has not crashed and will not crash. -/
def Calm (t : Job κ) : Prop :=
  match t.phase with
  | .ready => True
  | .live _ course => ∀ now finish, (course now).ending ≠ some (finish, .crashed)
  | .ended _ _ _ exit => exit ≠ .crashed

theorem Calm.isLive_or_hasExited {t : Job κ} (h : t.Calm) :
    t.isLive = true ∨ t.hasExited = true := by
  unfold Calm at h
  unfold isLive hasExited
  split at h
  next hp => simp [hp]
  next hp => simp [hp]
  next exit hp => cases exit <;> simp_all

end Flow.Job

/-- Handlers that never crash. -/
def Flow.Calm (handlers : Selector → Option (Handler σ κ)) : Prop :=
  ∀ k h, handlers k = some h → ∀ c begun world now finish,
    ((h.begin c begun world).1 now).ending ≠ some (finish, .crashed)

def Flow.parked : Selector → Option (Handler Unit Unit) :=
  fun _ => some { begin := fun _ _ world => (fun _ => ⟨[], none⟩, world) }

theorem Flow.parked_calm : Calm parked := by
  intro k h hk
  cases hk
  simp

def Flow.order (kind : Selector) (user : String) : Start :=
  ⟨kind, ⟨"17", "dl", .running⟩, user, .none⟩

namespace Scheduler

def admission? (m : Scheduler σ κ) (k : Selector) : Option Admission :=
  (m.handlers k).map (·.admission)

/-- The flow that a start opens, unless it is turned down. -/
def Claim.context? : Claim → Option Context
  | noHandler | busy => none
  | claimed c | unchecked c => some c

/-- Job number `i` runs at an instant; nothing happens when it is over. -/
def work (m : Scheduler σ κ) (i : Nat) (first : Branch) (now : Instant) : Scheduler σ κ :=
  match m.jobs[i]? with
  | some t =>
    if t.isLive then
      { m with
        jobs := m.jobs.set i (m.runJob first t now).1
        world := (m.runJob first t now).2 }
    else m
  | none => m

variable {m : Scheduler σ κ} {s : Start}

theorem claim_noHandler (h : m.admission? s.selector = none) : m.claim s = (.noHandler, m) := by
  simp only [admission?, Option.map_eq_none_iff] at h
  simp [Scheduler.claim, h]

theorem claim_unchecked (h : m.admission? s.selector = some .unchecked) :
    m.claim s = (.unchecked ⟨m.nextId, s⟩, { m with nextId := m.nextId + 1 }) := by
  obtain ⟨a, ha, hu⟩ := Option.map_eq_some_iff.mp h
  simp [Scheduler.claim, ha, hu]

theorem claim_busy (h : m.admission? s.selector = some .exclusive)
    (hr : m.registry.isRunning s.resource.id = true) :
    m.claim s = (.busy, { m with nextId := m.nextId + 1 }) := by
  obtain ⟨a, ha, hu⟩ := Option.map_eq_some_iff.mp h
  simp [Scheduler.claim, ha, hu, Registry.claim?, hr]

theorem claim_idle (h : m.admission? s.selector = some .exclusive)
    (hr : m.registry.isRunning s.resource.id = false) :
    m.claim s = (.claimed ⟨m.nextId, s⟩,
      { m with registry := m.registry ++ [.ofContext ⟨m.nextId, s⟩], nextId := m.nextId + 1 }) := by
  obtain ⟨a, ha, hu⟩ := Option.map_eq_some_iff.mp h
  simp [Scheduler.claim, ha, hu, Registry.claim?, hr]

/-- Everything that a claim can come to. -/
theorem claim_cases (m : Scheduler σ κ) (s : Start) :
    (m.admission? s.selector = none ∧ m.claim s = (.noHandler, m)) ∨
    (m.admission? s.selector = some .unchecked ∧
      m.claim s = (.unchecked ⟨m.nextId, s⟩, { m with nextId := m.nextId + 1 })) ∨
    (m.admission? s.selector = some .exclusive ∧ m.registry.isRunning s.resource.id = true ∧
      m.claim s = (.busy, { m with nextId := m.nextId + 1 })) ∨
    (m.admission? s.selector = some .exclusive ∧ m.registry.isRunning s.resource.id = false ∧
      m.claim s = (.claimed ⟨m.nextId, s⟩,
        { m with
          registry := m.registry ++ [.ofContext ⟨m.nextId, s⟩]
          nextId := m.nextId + 1 })) := by
  cases h : m.admission? s.selector with
  | none => exact .inl ⟨rfl, claim_noHandler h⟩
  | some a =>
    cases a with
    | unchecked => exact .inr (.inl ⟨rfl, claim_unchecked h⟩)
    | exclusive =>
      cases hr : m.registry.isRunning s.resource.id with
      | true => exact .inr (.inr (.inl ⟨rfl, rfl, claim_busy h hr⟩))
      | false => exact .inr (.inr (.inr ⟨rfl, rfl, claim_idle h hr⟩))

@[simp] theorem handlers_claim : (m.claim s).2.handlers = m.handlers := by
  rcases claim_cases m s with ⟨_, h⟩ | ⟨_, h⟩ | ⟨_, _, h⟩ | ⟨_, _, h⟩ <;> rw [h]

@[simp] theorem jobs_claim : (m.claim s).2.jobs = m.jobs := by
  rcases claim_cases m s with ⟨_, h⟩ | ⟨_, h⟩ | ⟨_, _, h⟩ | ⟨_, _, h⟩ <;> rw [h]

@[simp] theorem handlers_conclude (granted : Bool) (c : Claim) :
    (m.conclude granted c).handlers = m.handlers := by
  cases c <;> cases granted <;> rfl

def Claim.spawned (c : Claim) (granted : Bool) : List Context :=
  if granted then c.context?.toList else []

theorem jobs_conclude (granted : Bool) (c : Claim) :
    (m.conclude granted c).jobs = m.jobs ++ (c.spawned granted).map (⟨·, .ready⟩) := by
  cases c <;> cases granted <;>
    simp [conclude, spawn, release, Claim.spawned, Claim.context?]

theorem mem_jobs_conclude {t : Job κ} (ht : t ∈ m.jobs) {granted : Bool} {c : Claim} :
    t ∈ (m.conclude granted c).jobs := by
  rw [jobs_conclude]
  exact List.mem_append_left _ ht

/-- A flow is numbered by the count of the starts before it. -/
theorem context?_claim {c : Context} (h : (m.claim s).1.context? = some c) :
    c = ⟨m.nextId, s⟩ := by
  rcases claim_cases m s with ⟨_, hc⟩ | ⟨_, hc⟩ | ⟨_, _, hc⟩ | ⟨_, _, hc⟩ <;>
    rw [hc] at h <;> simp_all [Claim.context?]

/-- A start spawns one flow at most. -/
theorem spawned_cases (m : Scheduler σ κ) (s : Start) (granted : Bool) :
    (m.claim s).1.spawned granted = [] ∨ (m.claim s).1.spawned granted = [⟨m.nextId, s⟩] := by
  cases granted with
  | false => exact .inl rfl
  | true =>
    cases h : (m.claim s).1.context? with
    | none => exact .inl (by simp [Claim.spawned, h])
    | some c => exact .inr (by simp [Claim.spawned, h, ← context?_claim h])

def granted (m : Scheduler σ κ) (s : Start) (policy : UnwiredPolicy) (waiting : Bool) : Bool :=
  (m.claim s).1.resolution.grants policy waiting

theorem start_eq (m : Scheduler σ κ) (s : Start) (policy : UnwiredPolicy) (waiting : Bool) :
    m.start s policy waiting =
      ((m.claim s).1, (m.claim s).2.conclude (m.granted s policy waiting) (m.claim s).1) := rfl

@[simp] theorem handlers_start (policy : UnwiredPolicy) (waiting : Bool) :
    (m.start s policy waiting).2.handlers = m.handlers := by
  simp [start_eq]

theorem contexts_start (m : Scheduler σ κ) (s : Start) (policy : UnwiredPolicy)
    (waiting : Bool) :
    (m.start s policy waiting).2.jobs.map Job.context = m.jobs.map Job.context ++
      (m.claim s).1.spawned (m.granted s policy waiting) := by
  simp [start_eq, jobs_conclude, Function.comp_def]

@[simp] theorem handlers_cancel (resourceId : String) :
    (m.cancel resourceId).handlers = m.handlers := by
  unfold cancel
  split <;> rfl

@[simp] theorem registry_cancel (resourceId : String) :
    (m.cancel resourceId).registry = m.registry := by
  unfold cancel
  split <;> rfl

@[simp] theorem jobs_cancel (resourceId : String) : (m.cancel resourceId).jobs = m.jobs := by
  unfold cancel
  split <;> rfl

@[simp] theorem nextId_cancel (resourceId : String) : (m.cancel resourceId).nextId = m.nextId := by
  unfold cancel
  split <;> rfl

theorem cleanUp_eq (t : Job κ) : m.cleanUp t = if t.hasExited then m.release t.context else m := by
  unfold cleanUp Job.hasExited
  split <;> simp [*]

@[simp] theorem context_advanceHandler (t : Job κ) (now : Instant) :
    (m.advanceHandler t now).1.context = t.context := by
  unfold advanceHandler
  split
  · split
    · rfl
    · dsimp only
      split <;> rfl
  · dsimp only
    split <;> rfl
  · rfl

@[simp] theorem context_dropJob (t : Job κ) (now : Instant) :
    (dropJob t now).context = t.context := by
  unfold dropJob
  split <;> rfl

@[simp] theorem context_runJob (first : Branch) (t : Job κ) (now : Instant) :
    (m.runJob first t now).1.context = t.context := by
  unfold runJob
  split
  · cases first <;> simp
  · simp

variable {i : Nat} {first : Branch} {now : Instant}

theorem live_or_over (m : Scheduler σ κ) (i : Nat) :
    (∃ t, m.jobs[i]? = some t ∧ t.isLive = true) ∨
      ∀ t, m.jobs[i]? = some t → t.isLive = false := by
  by_cases h : ∃ t, m.jobs[i]? = some t ∧ t.isLive = true
  · exact .inl h
  · exact .inr fun t ht => Bool.eq_false_iff.mpr fun hl => h ⟨t, ht, hl⟩

theorem work_live {t : Job κ} (ht : m.jobs[i]? = some t) (hl : t.isLive = true) :
    m.work i first now =
      { m with
        jobs := m.jobs.set i (m.runJob first t now).1
        world := (m.runJob first t now).2 } := by
  simp [work, ht, hl]

theorem work_over (h : ∀ t, m.jobs[i]? = some t → t.isLive = false) : m.work i first now = m := by
  unfold work
  split
  next t ht => simp [h t ht]
  next => rfl

/-- A handler that is looked at has a course, and goes on with it or ends. -/
theorem advanceHandler_cases {t : Job κ} {h : Handler σ κ} (hl : t.isLive = true)
    (hh : m.handlers t.context.start.selector = some h) (now : Instant) :
    ∃ begun course,
      (t.phase = .live begun course ∨
        t.phase = .ready ∧ begun = now ∧ course = (h.begin t.context now m.world).1) ∧
      ((m.advanceHandler t now).1 = { t with phase := .live begun course } ∨
        ∃ finish exit, (m.advanceHandler t now).1 =
          { t with phase := .ended begun finish (course now).calls exit }) := by
  unfold advanceHandler
  cases hp : t.phase with
  | ready =>
    refine ⟨now, (h.begin t.context now m.world).1, .inr ⟨rfl, rfl, rfl⟩, ?_⟩
    simp only [hh]
    split
    next => exact .inl rfl
    next => exact .inr ⟨_, _, rfl⟩
    next => exact .inr ⟨_, _, rfl⟩
  | live begun course =>
    refine ⟨begun, course, .inl rfl, ?_⟩
    dsimp only
    split
    next => exact .inl rfl
    next => exact .inr ⟨_, _, rfl⟩
    next => exact .inr ⟨_, _, rfl⟩
  | ended => simp [Job.isLive, hp] at hl

/-- Everything that a run of a job can come to. A job that was asked to stop may notice that before
its handler begins; otherwise it goes on with its course or ends. -/
theorem runJob_cases {t : Job κ} {h : Handler σ κ} (hl : t.isLive = true)
    (hh : m.handlers t.context.start.selector = some h) (first : Branch) (now : Instant) :
    (t.phase = .ready ∧ m.isCancelled t.context = true ∧
      (m.runJob first t now).1 = { t with phase := .ended now now [] .dropped }) ∨
    ∃ begun course,
      (t.phase = .live begun course ∨
        t.phase = .ready ∧ begun = now ∧ course = (h.begin t.context now m.world).1) ∧
      ((m.runJob first t now).1 = { t with phase := .live begun course } ∨
        ∃ finish exit, (m.runJob first t now).1 =
          { t with phase := .ended begun finish (course now).calls exit }) := by
  obtain ⟨begun, course, hcourse, hu⟩ := advanceHandler_cases hl hh now
  unfold runJob
  cases hc : m.isCancelled t.context with
  | false => exact .inr ⟨begun, course, hcourse, by simpa using hu⟩
  | true =>
    cases first with
    | handler =>
      refine .inr ⟨begun, course, hcourse, .inr ?_⟩
      rcases hu with hu | ⟨finish, exit, hu⟩
      · exact ⟨now, .dropped, by simp [hu, dropJob]⟩
      · exact ⟨finish, exit, by simp [hu, dropJob]⟩
    | cancel =>
      cases hp : t.phase with
      | ready => exact .inl ⟨rfl, rfl, by simp [dropJob, hp]⟩
      | live b k => exact .inr ⟨b, k, .inl rfl, .inr ⟨now, .dropped, by simp [dropJob, hp]⟩⟩
      | ended => simp [Job.isLive, hp] at hl

/-- A run of a job changes nothing but that job and the world. -/
theorem work_cases (m : Scheduler σ κ) (i : Nat) (first : Branch) (now : Instant) :
    m.work i first now = m ∨
    ∃ t, m.jobs[i]? = some t ∧ t.isLive = true ∧ m.work i first now =
      { m with
        jobs := m.jobs.set i (m.runJob first t now).1
        world := (m.runJob first t now).2 } := by
  rcases m.live_or_over i with ⟨t, ht, hl⟩ | hover
  · exact .inr ⟨t, ht, hl, work_live ht hl⟩
  · exact .inl (work_over hover)

@[simp] theorem handlers_work : (m.work i first now).handlers = m.handlers := by
  rcases work_cases m i first now with h | ⟨_, _, _, h⟩ <;> rw [h]

@[simp] theorem registry_work : (m.work i first now).registry = m.registry := by
  rcases work_cases m i first now with h | ⟨_, _, _, h⟩ <;> rw [h]

@[simp] theorem nextId_work : (m.work i first now).nextId = m.nextId := by
  rcases work_cases m i first now with h | ⟨_, _, _, h⟩ <;> rw [h]

/-- The flows that the jobs run stay what they are. -/
@[simp] theorem contexts_work :
    (m.work i first now).jobs.map Job.context = m.jobs.map Job.context := by
  rcases work_cases m i first now with h | ⟨t, ht, _, h⟩ <;> rw [h]
  exact map_set_of_eq ht (context_runJob first t now)

theorem calm_advanceHandler (hm : Flow.Calm m.handlers) {t : Job κ} (h : t.Calm) (now : Instant) :
    (m.advanceHandler t now).1.Calm := by
  unfold advanceHandler
  split
  next =>
    split
    next => exact h
    next a ha =>
      have hc := hm _ a ha t.context now m.world
      dsimp only
      split
      next => exact hc
      next => simp [Job.Calm]
      next finish he => exact absurd he (hc now finish)
  next begun course hp =>
    have hc : ∀ now finish, (course now).ending ≠ some (finish, .crashed) := by
      simpa [Job.Calm, hp] using h
    dsimp only
    split
    next => exact hc
    next => simp [Job.Calm]
    next finish he => exact absurd he (hc now finish)
  next => exact h

theorem calm_dropJob {t : Job κ} (h : t.Calm) (now : Instant) : (dropJob t now).Calm := by
  unfold dropJob
  split
  · simp [Job.Calm]
  · simp [Job.Calm]
  · exact h

theorem calm_runJob (hm : Flow.Calm m.handlers) {t : Job κ} (h : t.Calm) :
    (m.runJob first t now).1.Calm := by
  unfold runJob
  split
  · cases first with
    | cancel => exact calm_dropJob h now
    | handler => exact calm_dropJob (calm_advanceHandler hm h now) now
  · exact calm_advanceHandler hm h now

theorem calm_work (hm : Flow.Calm m.handlers) (h : ∀ t ∈ m.jobs, t.Calm) :
    ∀ t ∈ (m.work i first now).jobs, t.Calm := by
  rcases work_cases m i first now with hw | ⟨u, hu, _, hw⟩ <;> rw [hw]
  · exact h
  · intro t ht
    rcases List.mem_or_eq_of_mem_set ht with ht | rfl
    · exact h t ht
    · exact calm_runJob hm (h u (List.mem_of_getElem? hu))

theorem calm_conclude (h : ∀ t ∈ m.jobs, t.Calm) {granted : Bool} {c : Claim} :
    ∀ t ∈ (m.conclude granted c).jobs, t.Calm := by
  intro t ht
  rw [jobs_conclude] at ht
  rcases List.mem_append.mp ht with ht | ht
  · exact h t ht
  · obtain ⟨d, _, rfl⟩ := List.mem_map.mp ht
    trivial

/-- A job that is over stays as it is. -/
theorem mem_jobs_work {t : Job κ} (ht : t ∈ m.jobs) (hl : t.isLive = false) :
    t ∈ (m.work i first now).jobs := by
  rcases work_cases m i first now with h | ⟨u, hu, hlive, h⟩
  · rwa [h]
  · obtain ⟨j, hj⟩ := List.mem_iff_getElem?.mp ht
    have hne : i ≠ j := by
      rintro rfl
      rw [Option.some.inj (hu.symm.trans hj), hl] at hlive
      cases hlive
    rw [h]
    exact List.mem_iff_getElem?.mpr ⟨j, by rw [List.getElem?_set_ne hne, hj]⟩

end Scheduler

end ClusterControl
