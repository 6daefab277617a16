import ClusterControl.Flow.Bus
import ClusterControl.Proofs.Flow.Release
import ClusterControl.Proofs.Flow.Turn

/-!
# Cancellation

A cancellation marks the flow that has the resource. A flow has its resource from its acceptance on,
so the mark may be there before the job is. Marks stay. A marked job ends the first time that it is
looked at, on whichever side that happens, and its clean-up leaves the resource idle. Only a handler
that crashes in this last look keeps it, as any handler that crashes does.

`cancel_prompt_local_idempotent` says so of every order of sections after a cancellation, and of the
moment when all starts in progress and all jobs have had their turn. `crash_outlasts_cancel` is the
exception.
-/

namespace ClusterControl

open ClusterControl.Flow

variable {σ κ : Type}

/-- What a start in progress was told by its signal, or else what it will be told. -/
def Flow.Opening.verdict (o : Opening) : Bool :=
  o.granted.getD (o.claim.resolution.grants o.policy o.waiting)

namespace Scheduler

variable {m : Scheduler σ κ} {t : Job κ} {first : Branch} {now : Instant} {i : Nat}

/-- The last look at a job before it is dropped. Its handler goes on if that is looked at first. -/
def lastLook (m : Scheduler σ κ) (first : Branch) (t : Job κ) (now : Instant) : Job κ × σ :=
  match first with
  | .cancel => (t, m.world)
  | .handler => m.advanceHandler t now

theorem runJob_of_cancelled (h : m.isCancelled t.context = true) :
    m.runJob first t now =
      (dropJob (m.lastLook first t now).1 now, (m.lastLook first t now).2) := by
  cases first <;> simp [runJob, h, lastLook]

theorem isLive_dropJob (t : Job κ) (now : Instant) : (dropJob t now).isLive = false := by
  unfold dropJob
  split
  · rfl
  · rfl
  next hp => simp [Job.isLive, hp]

theorem hasCrashed_dropJob (t : Job κ) (now : Instant) :
    (dropJob t now).hasCrashed = t.hasCrashed := by
  unfold dropJob
  split
  next hp => simp [Job.hasCrashed, hp]
  next hp => simp [Job.hasCrashed, hp]
  next => rfl

/-- A dropped job has made its calls. -/
theorem calls_dropJob (t : Job κ) (now later : Instant) :
    (dropJob t now).calls later = t.calls now := by
  unfold dropJob
  split
  next hp => simp [Job.calls, hp]
  next hp => simp [Job.calls, hp]
  next hp => simp [Job.calls, hp]

/-- Only the look at a handler can crash a job that was alive. -/
theorem hasExited_lastLook (m : Scheduler σ κ) (first : Branch) (now : Instant)
    (hl : t.isLive = true) :
    (dropJob (m.lastLook first t now).1 now).hasExited = true ∨
      first = .handler ∧ (dropJob (m.lastLook first t now).1 now).hasCrashed = true := by
  have hover := Job.hasExited_or_hasCrashed (isLive_dropJob (m.lastLook first t now).1 now)
  cases first with
  | handler => exact hover.imp_right fun hc => ⟨rfl, hc⟩
  | cancel =>
    refine .inl (hover.resolve_right fun hc => ?_)
    have hcrashed : t.hasCrashed = true := by rwa [hasCrashed_dropJob] at hc
    rw [Job.isLive_of_hasCrashed hcrashed] at hl
    cases hl

/-- A claim does not look at the marks. -/
theorem claim_marked (m : Scheduler σ κ) (marked : List Id) (s : Start) :
    ({ m with marked } : Scheduler σ κ).claim s =
      ((m.claim s).1, { (m.claim s).2 with marked }) := by
  have ha : ({ m with marked } : Scheduler σ κ).admission? s.selector =
      m.admission? s.selector := rfl
  rcases claim_cases m s with ⟨hm, hc⟩ | ⟨hm, hc⟩ | ⟨hm, hr, hc⟩ | ⟨hm, hr, hc⟩ <;>
    rw [hc] <;> rw [← ha] at hm
  · exact claim_noHandler hm
  · exact claim_unchecked hm
  · exact claim_busy hm hr
  · exact claim_idle hm hr

theorem conclude_marked (m : Scheduler σ κ) (marked : List Id) (granted : Bool) (c : Claim) :
    ({ m with marked } : Scheduler σ κ).conclude granted c =
      { m.conclude granted c with marked } := by
  cases c <;> cases granted <;> rfl

theorem cleanUp_marked (m : Scheduler σ κ) (marked : List Id) (t : Job κ) :
    ({ m with marked } : Scheduler σ κ).cleanUp t = { m.cleanUp t with marked } := by
  rw [cleanUp_eq, cleanUp_eq]
  split <;> rfl

/-- A job looks at its own mark alone. -/
theorem runJob_marked {marked : List Id}
    (h : ({ m with marked } : Scheduler σ κ).isCancelled t.context = m.isCancelled t.context)
    (first : Branch) (now : Instant) :
    ({ m with marked } : Scheduler σ κ).runJob first t now = m.runJob first t now := by
  unfold runJob
  rw [h]
  rfl

theorem work_marked {marked : List Id} (h : ∀ id, id ∈ marked ↔ id ∈ m.marked) (i : Nat)
    (first : Branch) (now : Instant) :
    ({ m with marked } : Scheduler σ κ).work i first now = { m.work i first now with marked } := by
  have hsame : ∀ c, ({ m with marked } : Scheduler σ κ).isCancelled c = m.isCancelled c := by
    intro c
    simp [isCancelled, h]
  unfold work
  dsimp only
  split
  · split
    · rw [runJob_marked (hsame _)]
    · rfl
  · rfl

end Scheduler

namespace Flow.Interleaving

open Scheduler (Claim)

variable {x y : Interleaving σ κ} {c : Context} {t : Job κ} {now : Instant} {i : Nat}
  {first : Branch} {handlers : Selector → Option (Handler σ κ)} {world : σ}

def cancel (x : Interleaving σ κ) (resourceId : String) : Interleaving σ κ :=
  { x with flows := x.flows.cancel resourceId }

@[simp] theorem flows_cancel (resourceId : String) :
    (x.cancel resourceId).flows = x.flows.cancel resourceId := rfl

@[simp] theorem openings_cancel (resourceId : String) :
    (x.cancel resourceId).openings = x.openings := rfl

theorem isExclusive_cancel (resourceId : String) :
    (x.cancel resourceId).isExclusive = x.isExclusive :=
  isExclusive_congr (Scheduler.handlers_cancel resourceId)

/-- A flow under admission control that was accepted and has not ended. Its job need not exist. -/
structure Underway (x : Interleaving σ κ) (c : Context) : Prop where
  exclusive : x.isExclusive c = true
  stage : (∃ o ∈ x.openings, o.claim = .claimed c ∧ o.granted = some true) ∨
    ∃ t ∈ x.flows.jobs, t.context = c ∧ t.isLive = true

theorem Sound.flow?_of_underway (h : x.Sound) (hc : x.Underway c) :
    x.flows.registry.flow? c.start.resource.id = some (.ofContext c) := by
  rcases hc.stage with ⟨o, ho, hclaim, _⟩ | ⟨t, ht, rfl, hl⟩
  · have hmem : c ∈ x.contexts :=
      List.mem_append_left _ (List.mem_filterMap.mpr ⟨o, ho, by simp [hclaim, Claim.context?]⟩)
    have hentry := h.accounts.mem hmem (h.holds_of_claimed ho hclaim)
    exact h.accounts.unique.flow?_eq_some.mpr ⟨hentry, rfl⟩
  · exact h.registered (h.mem_active ht hc.exclusive hl)

theorem Sound.uncleaned_of_live (h : x.Sound) (ht : t ∈ x.flows.jobs) (hl : t.isLive = true) :
    t.context.id ∉ x.cleaned := by
  intro hid
  obtain ⟨u, hu, hi, hover⟩ := h.cleaned _ hid
  rw [h.job_eq hu ht hi, hl] at hover
  cases hover

theorem Sound.steps (h : x.Sound) (hs : Steps x y) : y.Sound := by
  induction hs with
  | refl => exact h
  | tail _ s ih => exact ih.step s

/-- A flow keeps its mark. -/
theorem marked_subset_steps (hs : Steps x y) : x.flows.marked ⊆ y.flows.marked := by
  induction hs with
  | refl => exact List.Subset.refl _
  | tail _ s ih =>
    apply List.Subset.trans ih
    cases s with
    | cancel resourceId => exact Scheduler.marked_subset_cancel resourceId
    | cleanUp => simp [Interleaving.cleanUp]
    | _ => simp [arrive]

theorem cleaned_subset_steps (hs : Steps x y) : x.cleaned ⊆ y.cleaned := by
  induction hs with
  | refl => exact List.Subset.refl _
  | tail _ s ih =>
    apply List.Subset.trans ih
    cases s with
    | cleanUp => exact List.subset_cons_self _ _
    | _ => exact List.Subset.refl _

theorem isCancelled_steps (hs : Steps x y) (hc : x.flows.isCancelled c = true) :
    y.flows.isCancelled c = true := by
  have hid : c.id ∈ x.flows.marked := by simpa [Scheduler.isCancelled] using hc
  simpa [Scheduler.isCancelled] using marked_subset_steps hs hid

/-- Without a further start no entry comes. -/
theorem registry_subset_step (s : Step x y) :
    x.flows.nextId ≤ y.flows.nextId ∧
      (y.flows.nextId = x.flows.nextId → y.flows.registry ⊆ x.flows.registry) := by
  cases s with
  | arrive s policy waiting =>
    rcases Scheduler.claim_cases x.flows s with ⟨_, hc⟩ | ⟨_, hc⟩ | ⟨_, _, hc⟩ | ⟨_, _, hc⟩ <;>
      simp [arrive, hc]
  | leave | answer => exact ⟨Nat.le_refl _, fun _ => List.Subset.refl _⟩
  | conclude => exact ⟨by simp, fun _ => Scheduler.registry_conclude_subset _ _⟩
  | cancel => simp
  | work => simp
  | cleanUp =>
    exact ⟨by simp [Interleaving.cleanUp], fun _ => Scheduler.registry_cleanUp_subset⟩

theorem registry_subset_steps (hs : Steps x y) :
    x.flows.nextId ≤ y.flows.nextId ∧
      (y.flows.nextId = x.flows.nextId → y.flows.registry ⊆ x.flows.registry) := by
  induction hs with
  | refl => exact ⟨Nat.le_refl _, fun _ => List.Subset.refl _⟩
  | tail _ s ih =>
    obtain ⟨hle, hsub⟩ := registry_subset_step s
    refine ⟨Nat.le_trans ih.1 hle, fun heq => ?_⟩
    have hmid := Nat.le_antisymm (heq ▸ hle) ih.1
    exact List.Subset.trans (hsub (heq.trans hmid.symm)) (ih.2 hmid)

/-- The clean-up of the flow that has a resource leaves it idle until a further start. -/
theorem Sound.idle_of_cleaned (h : x.Sound) (hs : Steps x y)
    (hflow : x.flows.registry.flow? c.start.resource.id = some (.ofContext c))
    (hnext : y.flows.nextId = x.flows.nextId) (hc : c.id ∈ y.cleaned) :
    y.flows.isRunning c.start.resource.id = false := by
  rw [Scheduler.isRunning, ← Bool.not_eq_true, Registry.isRunning_iff]
  rintro ⟨e, he, hr⟩
  have hmem : e ∈ x.flows.registry := (registry_subset_steps hs).2 hnext he
  have hown : e = .ofContext c :=
    Option.some.inj ((h.accounts.unique.flow?_eq_some.mpr ⟨hmem, hr⟩).symm.trans hflow)
  have hgone := (h.steps hs).ne_of_cleaned he
  rw [hown] at hgone
  exact hgone hc

def Accepted (x : Interleaving σ κ) (c : Context) : Prop :=
  (∃ o ∈ x.openings, o.claim = .claimed c ∧ o.granted = some true) ∨
    ∃ t ∈ x.flows.jobs, t.context = c

theorem Underway.accepted (h : x.Underway c) : x.Accepted c :=
  h.stage.imp_right fun ⟨t, ht, hc, _⟩ => ⟨t, ht, hc⟩

theorem mem_contexts_step (s : Step x y) (h : ∃ t ∈ x.flows.jobs, t.context = c) :
    ∃ t ∈ y.flows.jobs, t.context = c := by
  cases s with
  | arrive => simpa [arrive] using h
  | leave | answer => exact h
  | conclude =>
    obtain ⟨t, ht, hc⟩ := h
    exact ⟨t, Scheduler.mem_jobs_conclude ht, hc⟩
  | cancel => simpa using h
  | work =>
    have hmem : c ∈ x.flows.jobs.map Job.context := List.mem_map.mpr h
    rw [← Scheduler.contexts_work] at hmem
    exact List.mem_map.mp hmem
  | cleanUp => simpa [Interleaving.cleanUp] using h

theorem Accepted.step (h : x.Accepted c) (s : Step x y) : y.Accepted c := by
  rcases h with ⟨o, ho, hclaim, hgranted⟩ | h
  · cases s with
    | arrive => exact .inl ⟨o, List.mem_append_left _ ho, hclaim, hgranted⟩
    | @leave before after p found =>
      rw [found] at ho
      rcases List.mem_append.mp ho with ho | ho
      · exact .inl ⟨o, List.mem_append_left _ ho, hclaim, hgranted⟩
      · rcases List.mem_cons.mp ho with rfl | ho
        · exact .inl ⟨o.leave, by simp, hclaim, hgranted⟩
        · exact .inl ⟨o, by simp [ho], hclaim, hgranted⟩
    | @answer before after p found unresolved =>
      have hne : o ≠ p := by
        rintro rfl
        rw [unresolved] at hgranted
        cases hgranted
      have hmem : o ∈ before ∨ o ∈ after := by
        rw [found] at ho
        simpa [hne] using List.mem_append.mp ho
      exact .inl ⟨o, by rcases hmem with hmem | hmem <;> simp [hmem], hclaim, hgranted⟩
    | @conclude before after p granted found resolved =>
      by_cases hp : o = p
      · subst hp
        have hg : granted = true := Option.some.inj (resolved.symm.trans hgranted)
        exact .inr ⟨⟨c, .ready⟩, by simp [hclaim, hg, Scheduler.conclude, Scheduler.spawn], rfl⟩
      · refine .inl ⟨o, ?_, hclaim, hgranted⟩
        rw [found] at ho
        simpa [hp] using List.mem_append.mp ho
    | cancel | work | cleanUp => exact .inl ⟨o, ho, hclaim, hgranted⟩
  · exact .inr (mem_contexts_step s h)

theorem Accepted.steps (h : x.Accepted c) (hs : Steps x y) : y.Accepted c := by
  induction hs with
  | refl => exact h
  | tail _ s ih => exact ih.step s

/-- What is left of a flow that was asked to stop: its job may still be spawned, is looked at once
more, makes no call after that, and can clean up. -/
structure Stopping (x : Interleaving σ κ) (c : Context) : Prop where
  marked : x.flows.isCancelled c = true
  accepted : x.Accepted c
  spawns : ∀ before o after, x.openings = before ++ o :: after → o.claim = .claimed c →
    o.granted = some true →
      Step x { x with flows := x.flows.spawn c, openings := before ++ after }
  ends : ∀ i t first now, x.flows.jobs[i]? = some t → t.context = c → t.isLive = true →
    let last := x.flows.lastLook first t now
    let u := Scheduler.dropJob last.1 now
    x.flows.work i first now =
        { x.flows with jobs := x.flows.jobs.set i u, world := last.2 } ∧
      (u.hasExited = true ∨ first = .handler ∧ u.hasCrashed = true) ∧
      ∀ later, u.calls later = last.1.calls now
  ended : ∀ t ∈ x.flows.jobs, t.context = c → t.isLive = false →
    ∀ y, Steps x y → t ∈ y.flows.jobs
  releases : ∀ t ∈ x.flows.jobs, t.context = c → t.hasExited = true → c.id ∉ x.cleaned →
    Step x (x.cleanUp t) ∧ (x.cleanUp t).flows.isRunning c.start.resource.id = false ∧
      (x.cleanUp t).flows.Replies c.start.resource.id (.ok ())

theorem Sound.stopping (h : x.Sound) (hx : x.isExclusive c = true)
    (hm : x.flows.isCancelled c = true) (ha : x.Accepted c) : x.Stopping c where
  marked := hm
  accepted := ha
  spawns before o after found hclaim hgranted := by
    have hstep := Step.conclude found hgranted
    rw [hclaim] at hstep
    exact hstep
  ends i t first now ht hc hl := by
    subst hc
    refine ⟨?_, Scheduler.hasExited_lastLook _ first now hl,
      fun later => Scheduler.calls_dropJob _ now later⟩
    rw [Scheduler.work_live ht hl, Scheduler.runJob_of_cancelled hm]
  ended t ht _ hl y hs := mem_jobs_steps hs ht hl
  releases t ht hc he hn := by
    subst hc
    have hidle := h.idle_cleanUp hx ht he hn
    exact ⟨.cleanUp ht he hn, hidle, Scheduler.replies_idle hidle⟩

/-- The end of a flow. Its resource is idle again, unless its handler was looked at first and
crashed: then the flow keeps it, and turns the next requester away. -/
def Stopped (m : Scheduler σ κ) (c : Context) (handlerFirst : Prop) : Prop :=
  ∃ t ∈ m.jobs, t.context = c ∧ t.isLive = false ∧
    (m.isRunning c.start.resource.id = false ∧ m.Replies c.start.resource.id (.ok ()) ∨
      (handlerFirst ∧ t.hasCrashed = true) ∧
        m.registry.flow? c.start.resource.id = some (.ofContext c) ∧
        m.Replies c.start.resource.id (.error (.admissionRejected c.start.resource.id)))

theorem Stopped.mono {m : Scheduler σ κ} {p q : Prop} (h : Stopped m c p) (hpq : p → q) :
    Stopped m c q := by
  obtain ⟨t, ht, hc, hover, hend⟩ := h
  exact ⟨t, ht, hc, hover, hend.imp_right fun hcrash => ⟨hcrash.1.imp_left hpq, hcrash.2⟩⟩

/-- A turn is a look at a job and its clean-up. -/
theorem Sound.steps_turn_live (h : x.Sound) (ht : x.flows.jobs[i]? = some t)
    (hl : t.isLive = true) (first : Branch) (now : Instant) :
    ∃ y, Steps x y ∧ y.flows = x.flows.turn i first now ∧ y.flows.nextId = x.flows.nextId ∧
      y.flows.jobs = x.flows.jobs.set i (x.flows.runJob first t now).1 ∧
      ((x.flows.runJob first t now).1.hasExited = true → t.context.id ∈ y.cleaned) := by
  let u := (x.flows.runJob first t now).1
  let worked : Interleaving σ κ := { x with flows := x.flows.work i first now }
  have hs : Steps x worked := .single (.work i first now)
  have hturn : x.flows.turn i first now = worked.flows.cleanUp u := Scheduler.turn_live ht hl
  have hjobs : worked.flows.jobs = x.flows.jobs.set i u := by
    simp [worked, Scheduler.work_live ht hl, u]
  cases he : u.hasExited with
  | false =>
    refine ⟨worked, hs, ?_, by simp [worked], hjobs, nofun⟩
    rw [hturn, Scheduler.cleanUp_eq, he]
    rfl
  | true =>
    have hcontext : u.context = t.context := Scheduler.context_runJob first t now
    have hu : u ∈ worked.flows.jobs := by
      rw [hjobs]
      exact List.mem_set (List.getElem?_eq_some_iff.mp ht).1 u
    have hn : u.context.id ∉ worked.cleaned := by
      rw [hcontext]
      exact h.uncleaned_of_live (List.mem_of_getElem? ht) hl
    refine ⟨worked.cleanUp u, hs.tail (.cleanUp hu he hn), hturn.symm,
      by simp [Interleaving.cleanUp, worked], by simpa [Interleaving.cleanUp] using hjobs,
      fun _ => ?_⟩
    rw [← hcontext]
    exact List.mem_cons_self

theorem Sound.steps_turn (h : x.Sound) (i : Nat) (first : Branch) (now : Instant) :
    ∃ y, Steps x y ∧ y.flows = x.flows.turn i first now ∧ y.flows.nextId = x.flows.nextId ∧
      (∀ j, j ≠ i → y.flows.jobs[j]? = x.flows.jobs[j]?) ∧
      ∀ t, x.flows.jobs[i]? = some t → t.isLive = true →
        (x.flows.runJob first t now).1 ∈ y.flows.jobs ∧
        ((x.flows.runJob first t now).1.hasExited = true → t.context.id ∈ y.cleaned) := by
  rcases x.flows.live_or_over i with ⟨t, ht, hl⟩ | hover
  · obtain ⟨y, hs, hy, hnext, hjobs, hclean⟩ := h.steps_turn_live ht hl first now
    refine ⟨y, hs, hy, hnext, fun j hj => ?_, fun v hv _ => ?_⟩
    · rw [hjobs, List.getElem?_set_ne hj.symm]
    · cases Option.some.inj (ht.symm.trans hv)
      refine ⟨?_, hclean⟩
      rw [hjobs]
      exact List.mem_set (List.getElem?_eq_some_iff.mp ht).1 _
  · exact ⟨x, .refl, (Scheduler.turn_over hover).symm, rfl, fun _ _ => rfl,
      fun t ht hl => absurd hl (Bool.eq_false_iff.mp (hover t ht))⟩

/-- Turns in any order end each cancelled job that is among them. -/
theorem Sound.steps_turns (h : x.Sound) (now : Instant) (looks : List (Nat × Branch)) :
    ∃ y, Steps x y ∧ y.flows = x.flows.run (Scheduler.turns now looks) ∧
      y.flows.nextId = x.flows.nextId ∧
      ∀ i t, i ∈ looks.map Prod.fst → x.flows.jobs[i]? = some t → t.isLive = true →
        x.flows.isCancelled t.context = true →
          ∃ u ∈ y.flows.jobs, u.context = t.context ∧ u.isLive = false ∧
            (t.context.id ∈ y.cleaned ∨ .handler ∈ looks.map Prod.snd ∧ u.hasCrashed = true) := by
  induction looks generalizing x with
  | nil => exact ⟨x, .refl, rfl, rfl, by simp⟩
  | cons k looks ih =>
    obtain ⟨z, hxz, hz, hnext, hothers, hone⟩ := h.steps_turn k.1 k.2 now
    obtain ⟨y, hzy, hy, hlater, hrest⟩ := ih (h.steps hxz)
    have hrun : y.flows = x.flows.run (Scheduler.turns now (k :: looks)) := by
      rw [hy, hz]
      rfl
    refine ⟨y, hxz.trans hzy, hrun, hlater.trans hnext, ?_⟩
    intro i t hi ht hl hc
    by_cases hik : i = k.1
    · -- The job ends in this turn and is not touched again.
      subst hik
      obtain ⟨hu, hclean⟩ := hone t ht hl
      rw [Scheduler.runJob_of_cancelled hc] at hu hclean
      refine ⟨_, mem_jobs_steps hzy hu (Scheduler.isLive_dropJob _ now), ?_,
        Scheduler.isLive_dropJob _ now, ?_⟩
      · rw [← Scheduler.context_runJob (m := x.flows) k.2 t now, Scheduler.runJob_of_cancelled hc]
      · rcases Scheduler.hasExited_lastLook x.flows k.2 now hl with he | ⟨hk, hcrash⟩
        · exact .inl (cleaned_subset_steps hzy (hclean he))
        · exact .inr ⟨by simp [hk], hcrash⟩
    · have hmem : i ∈ looks.map Prod.fst := (List.mem_cons.mp hi).resolve_left hik
      obtain ⟨u, hu, huc, hul, hend⟩ :=
        hrest i t hmem (by rw [hothers i hik, ht]) hl (isCancelled_steps hxz hc)
      exact ⟨u, hu, huc, hul, hend.imp_right fun hc => ⟨List.mem_cons_of_mem _ hc.1, hc.2⟩⟩

/-- The starts in progress run to their ends, in turn. -/
def finish (x : Interleaving σ κ) : Interleaving σ κ :=
  { x with
    flows := x.openings.foldl (fun m o => m.conclude o.verdict o.claim) x.flows
    openings := [] }

theorem steps_finish_first (m : Scheduler σ κ) (o : Opening) (os : List Opening)
    (cleaned : List Id) :
    Steps ⟨m, o :: os, cleaned⟩ ⟨m.conclude o.verdict o.claim, os, cleaned⟩ := by
  cases hg : o.granted with
  | some granted =>
    have hv : o.verdict = granted := by simp [Opening.verdict, hg]
    have hs := Step.conclude (x := ⟨m, o :: os, cleaned⟩) (show _ = [] ++ o :: os from rfl) hg
    rw [← hv] at hs
    exact .single hs
  | none =>
    have hv : o.verdict = o.claim.resolution.grants o.policy o.waiting := by
      simp [Opening.verdict, hg]
    have ha := Step.answer (x := ⟨m, o :: os, cleaned⟩) (show _ = [] ++ o :: os from rfl) hg
    have hs := Step.conclude (x := ⟨m, o.answer :: os, cleaned⟩)
      (show _ = [] ++ o.answer :: os from rfl) rfl
    rw [← hv] at hs
    exact (Relation.ReflTransGen.single ha).tail hs

/-- A flow that is underway is no other start's loss, and has its job after its own. -/
theorem Underway.finish_first {m : Scheduler σ κ} {o : Opening} {os : List Opening}
    {cleaned : List Id} (h : Underway ⟨m, o :: os, cleaned⟩ c) :
    Underway ⟨m.conclude o.verdict o.claim, os, cleaned⟩ c := by
  refine ⟨?_, ?_⟩
  · rw [isExclusive_steps (steps_finish_first m o os cleaned)]
    exact h.exclusive
  · rcases h.stage with ⟨p, hp, hclaim, hgranted⟩ | ⟨t, ht, hc, hl⟩
    · rcases List.mem_cons.mp hp with rfl | hp
      · have hv : p.verdict = true := by simp [Opening.verdict, hgranted]
        refine .inr ⟨⟨c, .ready⟩, ?_, rfl, rfl⟩
        simp [hclaim, hv, Scheduler.conclude, Scheduler.spawn]
      · exact .inl ⟨p, hp, hclaim, hgranted⟩
    · exact .inr ⟨t, Scheduler.mem_jobs_conclude ht, hc, hl⟩

theorem steps_finish (h : x.Underway c) :
    Steps x x.finish ∧ x.finish.flows.nextId = x.flows.nextId ∧ x.finish.Underway c := by
  obtain ⟨m, os, cleaned⟩ := x
  induction os generalizing m with
  | nil => exact ⟨.refl, rfl, h⟩
  | cons o os ih =>
    obtain ⟨hs, hn, hu⟩ := ih (m.conclude o.verdict o.claim) h.finish_first
    exact ⟨(steps_finish_first m o os cleaned).trans hs,
      hn.trans (Scheduler.nextId_conclude _ _), hu⟩

/-- A cancelled flow is over once every job has had its turn, in whatever order. -/
theorem Reachable.stopped_of_turns (h : Reachable handlers world x) (hx : x.Underway c)
    (hidle : x.openings = []) (hm : x.flows.isCancelled c = true) (now : Instant)
    {looks : List (Nat × Branch)} (hall : ∀ i < x.flows.jobs.length, i ∈ looks.map Prod.fst) :
    Stopped (x.flows.run (Scheduler.turns now looks)) c (.handler ∈ looks.map Prod.snd) := by
  obtain ⟨t, ht, rfl, hl⟩ : ∃ t ∈ x.flows.jobs, t.context = c ∧ t.isLive = true := by
    simpa [hidle] using hx.stage
  obtain ⟨i, hi⟩ := List.mem_iff_getElem?.mp ht
  obtain ⟨y, hs, hy, hnext, hends⟩ := h.sound.steps_turns now looks
  have hlooked := hall i (List.getElem?_eq_some_iff.mp hi).1
  obtain ⟨u, hu, hc, hover, hend⟩ := hends i t hlooked hi hl hm
  rw [← hy]
  refine ⟨u, hu, hc, hover, ?_⟩
  rcases hend with hclean | hcrash
  · have hr := h.sound.idle_of_cleaned hs (h.sound.flow?_of_underway hx) hnext hclean
    exact .inl ⟨hr, Scheduler.replies_idle hr⟩
  · have hxu : y.isExclusive u.context = true := by rw [isExclusive_steps hs, hc, hx.exclusive]
    have hkeeps := (h.steps hs).keeps_of_crashed hu hxu hcrash.2
    rw [hc] at hkeeps
    exact .inr ⟨hcrash, hkeeps⟩

structure Prompt (x : Interleaving σ κ) (c : Context) : Prop where
  marks : x.flows.cancel c.start.resource.id =
    { x.flows with marked := x.flows.marked ++ [c.id] }
  course : ∀ y, Steps (x.cancel c.start.resource.id) y → y.Stopping c
  released : ∀ y, Steps (x.cancel c.start.resource.id) y → y.flows.nextId = x.flows.nextId →
    c.id ∈ y.cleaned →
      y.flows.isRunning c.start.resource.id = false ∧
        y.flows.Replies c.start.resource.id (.ok ())
  turns : ∀ now looks,
    (∀ i < (x.cancel c.start.resource.id).finish.flows.jobs.length, i ∈ looks.map Prod.fst) →
      Stopped ((x.cancel c.start.resource.id).finish.flows.run (Scheduler.turns now looks)) c
        (.handler ∈ looks.map Prod.snd)
  settles : ∀ now first,
    Stopped ((x.cancel c.start.resource.id).finish.flows.settle now first) c (first = .handler)

theorem Reachable.prompt (h : Reachable handlers world x) (hc : x.Underway c) : x.Prompt c := by
  let z := x.cancel c.start.resource.id
  have hflow := h.sound.flow?_of_underway hc
  have hmarks : x.flows.cancel c.start.resource.id =
      { x.flows with marked := x.flows.marked ++ [c.id] } := Scheduler.cancel_eq hflow
  have hreach : Reachable handlers world z := h.step (.cancel _)
  have hz : z.Sound := hreach.sound
  have hxz : z.isExclusive c = true := by rw [isExclusive_cancel, hc.exclusive]
  have hstage : z.Underway c := ⟨hxz, by simpa [z] using hc.stage⟩
  have hm : z.flows.isCancelled c = true := by simp [z, hmarks, Scheduler.isCancelled]
  have hflowz : z.flows.registry.flow? c.start.resource.id = some (.ofContext c) := by
    simpa [z] using hflow
  obtain ⟨hfinish, _, hunder⟩ := steps_finish hstage
  have hturns : ∀ now looks, (∀ i < z.finish.flows.jobs.length, i ∈ looks.map Prod.fst) →
      Stopped (z.finish.flows.run (Scheduler.turns now looks)) c
        (.handler ∈ looks.map Prod.snd) :=
    fun now looks hall => (hreach.steps hfinish).stopped_of_turns hunder rfl
      (isCancelled_steps hfinish hm) now hall
  refine ⟨hmarks, fun y hs => ?_, fun y hs hnext hclean => ?_, hturns, fun now first => ?_⟩
  · have hxy : y.isExclusive c = true := by rw [isExclusive_steps hs, hxz]
    exact (hz.steps hs).stopping hxy (isCancelled_steps hs hm) (hstage.accepted.steps hs)
  · have hnextz : y.flows.nextId = z.flows.nextId := by simpa [z] using hnext
    have hr := hz.idle_of_cleaned hs hflowz hnextz hclean
    exact ⟨hr, Scheduler.replies_idle hr⟩
  · rw [Scheduler.settle_eq_run]
    refine (hturns now ((List.range z.finish.flows.jobs.length).map (·, first)) (by simp)).mono ?_
    intro hhandler
    obtain ⟨k, hk, hfirst⟩ := List.mem_map.mp hhandler
    obtain ⟨i, _, rfl⟩ := List.mem_map.mp hk
    exact hfirst

/-- A flow keeps its mark, or the lack of it, when another resource is cancelled, and so does a flow
outside admission control in any case. -/
theorem Sound.isCancelled_cancel (h : x.Sound) {resourceId : String} (hc : c ∈ x.contexts)
    (hother : c.start.resource.id ≠ resourceId ∨ x.isExclusive c = false) :
    (x.flows.cancel resourceId).isCancelled c = x.flows.isCancelled c := by
  cases hf : x.flows.registry.flow? resourceId with
  | none => rw [Scheduler.cancel, hf]
  | some e =>
    obtain ⟨he, hr⟩ := Registry.mem_of_flow? hf
    obtain ⟨d, hd, hh, rfl⟩ := h.accounts.mem_iff.mp he
    have hne : c.id ≠ d.id := by
      intro hi
      have hcd := h.accounts.eq_of_id hc hd hi
      have hx : x.isExclusive c = true := hcd ▸ (Bool.and_eq_true_iff.mp hh).1
      have hrc : c.start.resource.id = resourceId := hcd ▸ hr
      simp [hx, hrc] at hother
    rw [Scheduler.cancel_eq hf]
    simp [Scheduler.isCancelled, Entry.ofContext, hne]

structure Local (x : Interleaving σ κ) (resourceId : String) : Prop where
  frame : x.flows.cancel resourceId =
    { x.flows with marked := (x.flows.cancel resourceId).marked }
  entries : ∀ e ∈ x.flows.registry, e.resourceId ≠ resourceId →
    (e.id ∈ (x.flows.cancel resourceId).marked ↔ e.id ∈ x.flows.marked)
  others : ∀ c ∈ x.contexts, c.start.resource.id ≠ resourceId ∨ x.isExclusive c = false →
    (x.flows.cancel resourceId).isCancelled c = x.flows.isCancelled c ∧
      ∀ t : Job κ, t.context = c → ∀ first now,
        (x.flows.cancel resourceId).runJob first t now = x.flows.runJob first t now
  idle : x.flows.isRunning resourceId = false → x.cancel resourceId = x

theorem Sound.cancel_local (h : x.Sound) (resourceId : String) : x.Local resourceId where
  frame := Scheduler.cancel_frame x.flows resourceId
  entries e he hr := by
    obtain ⟨c, hc, _, rfl⟩ := h.accounts.mem_iff.mp he
    simpa [Scheduler.isCancelled, Entry.ofContext] using h.isCancelled_cancel hc (.inl hr)
  others c hc hother := by
    have hsame := h.isCancelled_cancel hc hother
    refine ⟨hsame, ?_⟩
    rintro t rfl first now
    rw [Scheduler.cancel_frame] at hsame ⊢
    exact Scheduler.runJob_marked hsame first now
  idle hr := by rw [Interleaving.cancel, Scheduler.cancel_idle hr]

/-- Two states that differ at most in how often a flow is marked. -/
structure Alike (x y : Interleaving σ κ) : Prop where
  flows : y.flows = { x.flows with marked := y.flows.marked }
  marked : ∀ id, id ∈ y.flows.marked ↔ id ∈ x.flows.marked
  openings : y.openings = x.openings
  cleaned : y.cleaned = x.cleaned

theorem Alike.symm (h : Alike x y) : Alike y x where
  flows := by rw [h.flows]
  marked id := (h.marked id).symm
  openings := h.openings.symm
  cleaned := h.cleaned.symm

/-- No section tells how often a flow is marked. -/
theorem Alike.step {z : Interleaving σ κ} (h : Alike x y) (s : Step x z) :
    ∃ w, Step y w ∧ Alike z w := by
  obtain ⟨m, os, cleaned⟩ := x
  obtain ⟨n, _, _⟩ := y
  obtain ⟨hn, hmarked, rfl, rfl⟩ := h
  dsimp only at hn hmarked
  generalize n.marked = marked at hn hmarked
  subst hn
  cases s with
  | arrive s policy waiting =>
    refine ⟨_, .arrive s policy waiting, ?_, ?_, ?_, rfl⟩ <;> simp [arrive, Scheduler.claim_marked]
    exact hmarked
  | leave found => exact ⟨_, .leave found, rfl, hmarked, rfl, rfl⟩
  | answer found unresolved => exact ⟨_, .answer found unresolved, rfl, hmarked, rfl, rfl⟩
  | conclude found resolved =>
    refine ⟨_, .conclude found resolved, ?_, ?_, rfl, rfl⟩ <;>
      simp [Scheduler.conclude_marked]
    exact hmarked
  | cancel resourceId =>
    refine ⟨_, .cancel resourceId, ?_, ?_, rfl, rfl⟩
    · dsimp only
      rw [Scheduler.cancel_frame, Scheduler.cancel_frame m]
    · intro id
      cases hf : m.registry.flow? resourceId with
      | none => simp [Scheduler.cancel, hf, hmarked]
      | some e => simp [Scheduler.cancel, hf, hmarked]
  | work i first now =>
    refine ⟨_, .work i first now, ?_, ?_, rfl, rfl⟩ <;> simp [Scheduler.work_marked hmarked]
    exact hmarked
  | cleanUp spawned exited once =>
    refine ⟨_, .cleanUp spawned exited once, ?_, ?_, rfl, rfl⟩ <;>
      simp [Interleaving.cleanUp, Scheduler.cleanUp_marked]
    exact hmarked

theorem Alike.steps {z : Interleaving σ κ} (h : Alike x y) (hs : Steps x z) :
    ∃ w, Steps y w ∧ Alike z w := by
  induction hs with
  | refl => exact ⟨y, .refl, h⟩
  | tail _ s ih =>
    obtain ⟨v, hv, hz⟩ := ih
    obtain ⟨w, hw, hzw⟩ := hz.step s
    exact ⟨w, hv.tail hw, hzw⟩

theorem alike_cancel_cancel (x : Interleaving σ κ) (resourceId : String) :
    Alike (x.cancel resourceId) ((x.cancel resourceId).cancel resourceId) where
  flows := Scheduler.cancel_frame (x.flows.cancel resourceId) resourceId
  marked id := by
    cases hf : x.flows.registry.flow? resourceId with
    | none => simp [Scheduler.cancel, hf]
    | some e => simp [Scheduler.cancel, hf]
  openings := rfl
  cleaned := rfl

structure Idempotent (x : Interleaving σ κ) (resourceId : String) : Prop where
  alike : Alike (x.cancel resourceId) ((x.cancel resourceId).cancel resourceId)
  once : ∀ y, Steps ((x.cancel resourceId).cancel resourceId) y →
    ∃ z, Steps (x.cancel resourceId) z ∧ Alike y z
  twice : ∀ z, Steps (x.cancel resourceId) z →
    ∃ y, Steps ((x.cancel resourceId).cancel resourceId) y ∧ Alike z y

theorem cancel_idempotent (x : Interleaving σ κ) (resourceId : String) :
    x.Idempotent resourceId where
  alike := alike_cancel_cancel x resourceId
  once _ hs := (alike_cancel_cancel x resourceId).symm.steps hs
  twice _ hs := (alike_cancel_cancel x resourceId).steps hs

/-- A flow is underway once its requester has heard that all is well. -/
theorem underway_of_trigger {s : Start} {config : DispatcherConfig}
    (hx : x.flows.admission? s.selector = some .exclusive)
    (hr : (x.flows.trigger config s now).1.result = some (now, .ok ())) :
    Underway { x with flows := (x.flows.trigger config s now).2 } ⟨x.flows.nextId, s⟩ := by
  cases hbusy : x.flows.registry.isRunning s.resource.id with
  | true =>
    rw [Scheduler.trigger_busy hx hbusy] at hr
    cases hr
  | false =>
    have hspawn : (x.flows.trigger config s now).2.jobs =
        x.flows.jobs ++ [⟨⟨x.flows.nextId, s⟩, .ready⟩] := by
      rw [Scheduler.trigger_snd, Scheduler.start_eq, Scheduler.granted,
        Scheduler.claim_idle hx hbusy]
      rfl
    refine ⟨?_, .inr ⟨⟨⟨x.flows.nextId, s⟩, .ready⟩, by simp [hspawn], rfl, rfl⟩⟩
    rw [isExclusive_congr (x := x) (by simp [Scheduler.trigger_snd])]
    simp [isExclusive, hx]

/-- A cancellation ends the flow that has the resource, spares everything else, and has the effect
of any number of cancellations. Whoever asked for it learns nothing but when its publication has
ended, well or not. -/
theorem cancel_prompt_local_idempotent (h : Reachable handlers world x) (resourceId : String) :
    (∀ s config now, x.flows.admission? s.selector = some .exclusive →
      (x.flows.trigger config s now).1.result = some (now, .ok ()) →
        Underway { x with flows := (x.flows.trigger config s now).2 } ⟨x.flows.nextId, s⟩) ∧
    (∀ c, x.Underway c → x.Prompt c) ∧ x.Local resourceId ∧ x.Idempotent resourceId ∧
    ∀ (β : Type) (bus : Bus β) state user now finish result,
      (bus.publish state now (.cancel resourceId user)).1.publication = some (finish, result) →
        bus.cancel state resourceId user now =
          (some finish, (bus.publish state now (.cancel resourceId user)).2) := by
  refine ⟨fun _ _ _ => underway_of_trigger, fun c hc => h.prompt hc,
    h.sound.cancel_local resourceId, cancel_idempotent x resourceId, ?_⟩
  intro β bus state user now finish result hp
  simp [Bus.cancel, cancelReturn?, hp]

/-- A repair was accepted, and its job does not exist yet. -/
def unspawned : Interleaving Unit Unit where
  flows := { handlers := parked, registry := [⟨0, "17", .repair, "a"⟩], nextId := 1, world := () }
  openings := [⟨.claimed ⟨0, order .repair "a"⟩, .reject, true, some true⟩]

theorem unspawned_reachable : Reachable parked () unspawned := by
  have h₀ : Reachable parked () _ := .initial
  have h₁ := h₀.step (.arrive (order .repair "a") .reject true)
  have h₂ := h₁.step (.answer (show _ = [] ++ _ :: [] from rfl) rfl)
  exact h₂

theorem cancel_prompt_local_idempotent_unspawned :
    unspawned.Underway ⟨0, order .repair "a"⟩ ∧ unspawned.Prompt ⟨0, order .repair "a"⟩ := by
  have hunder : unspawned.Underway ⟨0, order .repair "a"⟩ :=
    ⟨rfl, .inl ⟨_, List.mem_cons_self, rfl, rfl⟩⟩
  exact ⟨hunder, (cancel_prompt_local_idempotent unspawned_reachable "17").2.1 _ hunder⟩

/-- A cancellation in time frees the resource if its job looks at the cancellation first, and not if
it looks at a handler first that crashes. Then the flow is over with its entry left, and the next
requester is turned away. -/
theorem crash_outlasts_cancel :
    ∃ x : Interleaving Unit Unit, Reachable crashing () x ∧ ∃ c, x.Underway c ∧
      x.openings = [] ∧ c.start.resource.id = "17" ∧
      ((x.cancel "17").flows.settle 0 .cancel).isRunning "17" = false ∧
      let stopped := (x.cancel "17").flows.settle 0 .handler
      (∀ t ∈ stopped.jobs, t.isLive = false) ∧
        stopped.registry.flow? "17" = some (.ofContext c) ∧
        (stopped.trigger {} (order .delete "b") 0).1.result =
          some (0, .error (.admissionRejected "17")) :=
  ⟨doomed, doomed_reachable, ⟨0, order .repair "a"⟩, ⟨rfl, .inr ⟨_, List.mem_cons_self, rfl, rfl⟩⟩,
    rfl, rfl, rfl, by decide, rfl, rfl⟩

end Flow.Interleaving

end ClusterControl
