import ClusterControl.Flow.Run
import ClusterControl.Proofs.Flow.Settled

/-!
# The end of a flow

Between two events just the jobs that have exited have cleaned up. So a flow that is over holds its
resource if it has crashed, and otherwise no entry is left of it. `Orderly` says this of a scheduler
in time, which settles after each step, and `Orderly.over` of a flow whose course is over.
-/

namespace ClusterControl

open ClusterControl.Flow

variable {σ κ : Type}

namespace Scheduler

variable {m n : Scheduler σ κ} {t : Job κ} {first : Branch} {now : Instant} {flow : Context}
  {course : Course κ}

theorem nextId_le_claim {s : Start} : m.nextId ≤ (m.claim s).2.nextId := by
  rcases claim_cases m s with ⟨_, h⟩ | ⟨_, h⟩ | ⟨_, _, h⟩ | ⟨_, _, h⟩ <;>
    simp [h]

/-- A scheduler between two events: just the jobs that have exited have cleaned up, and only flows
that were started are marked. -/
structure Swept (m : Scheduler σ κ) (cleaned : List Id) : Prop where
  sound : Interleaving.Sound ⟨m, [], cleaned⟩
  exited : ∀ t ∈ m.jobs, t.context.id ∈ cleaned ↔ t.hasExited = true
  marked : ∀ id ∈ m.marked, id < m.nextId

variable {cleaned : List Id}

theorem swept_initial (handlers : Selector → Option (Handler σ κ)) (world : σ) :
    Swept ({ handlers, world } : Scheduler σ κ) [] :=
  ⟨Interleaving.sound_initial handlers world, by simp, by simp⟩

theorem Swept.start (h : m.Swept cleaned) (s : Start) (policy : UnwiredPolicy)
    (waiting : Bool) : (m.start s policy waiting).2.Swept cleaned where
  sound := sound_start h.sound s policy waiting
  exited t ht := by
    rw [start_eq, jobs_conclude, jobs_claim] at ht
    rcases List.mem_append.mp ht with ht | ht
    · exact h.exited t ht
    · obtain ⟨c, hc, rfl⟩ := List.mem_map.mp ht
      have hnew : m.nextId ∉ cleaned := fun hid => Nat.lt_irrefl _ (h.sound.id_lt_of_cleaned hid)
      rcases spawned_cases m s (m.granted s policy waiting) with hs | hs <;> rw [hs] at hc
      · cases hc
      · cases List.mem_singleton.mp hc
        exact iff_of_false hnew Bool.false_ne_true
  marked id hid := by
    rw [marked_start] at hid
    rw [start_eq, nextId_conclude]
    exact Nat.lt_of_lt_of_le (h.marked id hid) nextId_le_claim

theorem Swept.cancel (h : m.Swept cleaned) (resourceId : String) :
    (m.cancel resourceId).Swept cleaned where
  sound := h.sound.cancel resourceId
  exited t ht := h.exited t (by rwa [jobs_cancel] at ht)
  marked id hid := by
    rw [nextId_cancel]
    unfold Scheduler.cancel at hid
    split at hid
    next e he =>
      rcases List.mem_append.mp hid with hid | hid
      · exact h.marked id hid
      · obtain rfl := List.mem_singleton.mp hid
        exact h.sound.accounts.id_lt (Registry.mem_of_flow? he).1
    next => exact h.marked id hid

theorem Swept.turn (h : m.Swept cleaned) (i : Nat) (first : Branch) (now : Instant) :
    ∃ later, (m.turn i first now).Swept later := by
  rcases m.live_or_over i with ⟨t, ht, hl⟩ | hover
  · have hwork := h.sound.work i first now
    rw [turn_live ht hl]
    rw [work_live ht hl] at hwork ⊢
    let u := (m.runJob first t now).1
    have hcontext : u.context = t.context := context_runJob first t now
    have hu : u ∈ m.jobs.set i u := List.mem_set (List.getElem?_eq_some_iff.mp ht).1 u
    cases he : u.hasExited with
    | true =>
      refine ⟨u.context.id :: cleaned, hwork.cleanUp hu he, fun v hv => ?_, ?_⟩
      · rw [jobs_cleanUp] at hv
        by_cases hid : v.context.id = u.context.id
        · obtain rfl := hwork.job_eq hv hu hid
          exact iff_of_true List.mem_cons_self he
        · rcases List.mem_or_eq_of_mem_set hv with hv | rfl
          · rw [List.mem_cons, or_iff_right hid]
            exact h.exited v hv
          · exact absurd rfl hid
      · rw [marked_cleanUp, nextId_cleanUp]
        exact h.marked
    | false =>
      have hkept : t.context.id ∉ cleaned := fun hid => by
        have hover := Job.isLive_of_hasExited ((h.exited t (List.mem_of_getElem? ht)).mp hid)
        rw [hl] at hover
        cases hover
      rw [cleanUp_eq, he]
      refine ⟨cleaned, hwork, fun v hv => ?_, h.marked⟩
      rcases List.mem_or_eq_of_mem_set hv with hv | rfl
      · exact h.exited v hv
      · rw [he, hcontext]
        exact iff_of_false hkept Bool.false_ne_true
  · rw [turn_over hover]
    exact ⟨cleaned, h⟩

theorem Swept.run (h : m.Swept cleaned) (es : List Event) :
    ∃ later, (m.run es).Swept later := by
  induction es generalizing m cleaned with
  | nil => exact ⟨cleaned, h⟩
  | cons e es ih =>
    cases e with
    | start s config now waiting => exact ih (h.start s config.unwired waiting)
    | cancel resourceId => exact ih (h.cancel resourceId)
    | turn i first now =>
      obtain ⟨later, hturn⟩ := h.turn i first now
      exact ih hturn

def Event.isStart : Event → Bool
  | .start .. => true
  | _ => false

structure Launched (m n : Scheduler σ κ) : Prop where
  handlers : n.handlers = m.handlers
  marked : n.marked = m.marked
  nextId : m.nextId ≤ n.nextId
  jobs : ∀ t ∈ n.jobs, t ∈ m.jobs ∨ t.phase = .ready ∧ m.nextId ≤ t.context.id

theorem launched_run {es : List Event} (h : ∀ e ∈ es, e.isStart = true) :
    m.Launched (m.run es) := by
  induction es generalizing m with
  | nil => exact ⟨rfl, rfl, Nat.le_refl _, fun t ht => .inl ht⟩
  | cons e es ih =>
    obtain ⟨he, hes⟩ := List.forall_mem_cons.mp h
    cases e with
    | cancel | turn => cases he
    | start s config now waiting =>
      have hlater := ih (m := (m.start s config.unwired waiting).2) hes
      have hnext : m.nextId ≤ (m.start s config.unwired waiting).2.nextId := by
        rw [start_eq, nextId_conclude]
        exact nextId_le_claim
      refine ⟨hlater.handlers.trans (handlers_start _ _), hlater.marked.trans (marked_start _ _ _),
        Nat.le_trans hnext hlater.nextId, fun t ht => ?_⟩
      rcases hlater.jobs t ht with ht | ⟨hp, hid⟩
      · rw [start_eq, jobs_conclude, jobs_claim] at ht
        refine (List.mem_append.mp ht).imp_right fun ht => ?_
        obtain ⟨c, hc, rfl⟩ := List.mem_map.mp ht
        rcases spawned_cases m s (m.granted s config.unwired waiting) with hs | hs <;> rw [hs] at hc
        · cases hc
        · cases List.mem_singleton.mp hc
          exact ⟨rfl, Nat.le_refl _⟩
      · exact .inr ⟨hp, Nat.le_trans hnext hid⟩

/-- A flow that is new after starts has begun once the scheduler has settled, on some world. -/
theorem Swept.exists_begun (h : m.Swept cleaned) (hn : m.Launched n)
    (hnew : flow ∉ m.jobs.map Job.context)
    (hflow : flow ∈ (n.settle now first).jobs.map Job.context) {a : Handler σ κ}
    (ha : m.handlers flow.start.selector = some a) :
    ∃ world, pursue flow now (a.begin flow now world).1 now ∈ (n.settle now first).jobs := by
  rw [contexts_settle] at hflow
  obtain ⟨⟨c, phase⟩, ht, rfl⟩ := List.mem_map.mp hflow
  rcases hn.jobs _ ht with hold | ⟨hready, hid⟩
  · exact absurd (List.mem_map_of_mem hold) hnew
  · obtain rfl : phase = .ready := hready
    obtain ⟨u, hu, hturned⟩ := (exists_of_turned (settle_turned n now first)).1 _ ht
    cases hturned with
    | idle hl => cases hl
    | @ran _ l handlers marked =>
      have hfresh : l.isCancelled c = false := by
        refine Bool.eq_false_iff.mpr fun hc => ?_
        rw [isCancelled, marked, hn.marked, List.contains_iff_mem] at hc
        exact absurd (h.marked _ hc) (Nat.not_lt.mpr hid)
      have hhandler : l.handlers c.start.selector = some a := by rw [handlers, hn.handlers, ha]
      have hrun : l.runJob first ⟨c, .ready⟩ now = l.advanceHandler ⟨c, .ready⟩ now := by
        simp [runJob, hfresh]
      rw [hrun, advanceHandler_ready rfl hhandler] at hu
      exact ⟨l.world, hu⟩

structure Released (m : Scheduler σ κ) (flow : Context) : Prop where
  exited : ∃ t ∈ m.jobs, t.context = flow ∧ t.hasExited = true
  free : ∀ e ∈ m.registry, e.id ≠ flow.id

structure Jammed (m : Scheduler σ κ) (flow : Context) : Prop where
  crashed : ∃ t ∈ m.jobs, t.context = flow ∧ t.hasCrashed = true
  kept : m.registry.flow? flow.start.resource.id = some (.ofContext flow)

theorem Swept.released (h : m.Swept cleaned) (ht : t ∈ m.jobs) (he : t.hasExited = true) :
    m.Released t.context :=
  ⟨⟨t, ht, rfl, he⟩, fun _ hmem hid =>
    h.sound.ne_of_cleaned hmem (hid ▸ (h.exited t ht).mpr he)⟩

theorem Swept.jammed (h : m.Swept cleaned)
    (hx : m.admission? t.context.start.selector = some .exclusive) (ht : t ∈ m.jobs)
    (hc : t.hasCrashed = true) : m.Jammed t.context := by
  have hkept : t.context.id ∉ cleaned := fun hid => by
    have he := (h.exited t ht).mp hid
    rw [Job.hasExited_of_hasCrashed hc] at he
    cases he
  have hexclusive : Interleaving.isExclusive ⟨m, [], cleaned⟩ t.context = true := by
    simp [Interleaving.isExclusive, hx]
  exact ⟨⟨t, ht, rfl, hc⟩,
    h.sound.registered (Interleaving.Sound.mem_active_of_uncleaned hexclusive ht hkept)⟩

/-- A flow whose course is over has given its resource back, or has crashed as its course has. -/
theorem Swept.over (h : m.Swept cleaned) (hsettled : ∀ t ∈ m.jobs, t.Settled now)
    (hx : m.admission? flow.start.selector = some .exclusive)
    (hruns : ∃ t ∈ m.jobs, Runs flow course m.marked t)
    (hover : (course now).ending.isSome = true) :
    (m.Released flow ∧ (flow.id ∈ m.marked ∨
      ∃ later finish result, (course later).ending = some (finish, .returned result))) ∨
    (m.Jammed flow ∧ ∃ later finish, (course later).ending = some (finish, .crashed)) := by
  obtain ⟨t, ht, hr⟩ := hruns
  obtain rfl := hr.context_eq
  rcases hr.over (hsettled t ht) hover with ⟨he, hend⟩ | ⟨hc, hend⟩
  · exact .inl ⟨h.released ht he, hend⟩
  · exact .inr ⟨h.jammed hx ht hc, hend⟩

end Scheduler

namespace Clocked

variable {c e : Clocked σ κ} {flow : Context} {course : Course κ}

/-- How a scheduler in time goes on. It settles after starts, and when time has passed. -/
inductive Goes (c : Clocked σ κ) : Clocked σ κ → Prop
  | launch (es : List Scheduler.Event) (starts : ∀ e ∈ es, e.isStart = true) :
      Goes c ⟨c.now, (c.flows.run es).settle c.now⟩
  | cancel (resourceId : String) : Goes c ⟨c.now, c.flows.cancel resourceId⟩
  | pass (t : Instant) : Goes c ⟨t, c.flows.settle t⟩

abbrev GoesOn : Clocked σ κ → Clocked σ κ → Prop := Relation.ReflTransGen Goes

theorem goes_settle (c : Clocked σ κ) : Goes c c.settle := .launch [] (List.forall_mem_nil _)

theorem goesOn_passTo (c : Clocked σ κ) (t : Instant) : GoesOn c (c.passTo t) :=
  .tail (.single c.goes_settle) (.pass t)

theorem Goes.exists_run (h : Goes c e) : ∃ es, e.flows = c.flows.run es := by
  cases h with
  | launch es _ =>
    rw [Scheduler.settle_eq_run]
    exact ⟨es ++ _, List.foldl_append.symm⟩
  | cancel resourceId => exact ⟨[.cancel resourceId], rfl⟩
  | pass t => exact ⟨_, Scheduler.settle_eq_run c.flows t .cancel⟩

theorem GoesOn.exists_run (h : GoesOn c e) : ∃ es, e.flows = c.flows.run es := by
  induction h with
  | refl => exact ⟨[], rfl⟩
  | tail _ hg ih =>
    obtain ⟨es, hes⟩ := ih
    obtain ⟨more, hmore⟩ := hg.exists_run
    exact ⟨es ++ more, by rw [hmore, hes]; exact List.foldl_append.symm⟩

structure Orderly (c : Clocked σ κ) : Prop where
  complete : c.flows.Complete
  swept : ∃ cleaned, c.flows.Swept cleaned
  settled : ∀ t ∈ c.flows.jobs, t.Settled c.now

theorem orderly_initial {handlers : Selector → Option (Handler σ κ)} {world : σ}
    (hm : ∀ kind, ∃ h, handlers kind = some h) (now : Instant) :
    Orderly (⟨now, { handlers, world }⟩ : Clocked σ κ) :=
  ⟨hm, ⟨[], Scheduler.swept_initial handlers world⟩, List.forall_mem_nil _⟩

theorem Orderly.goes (h : c.Orderly) (hg : Goes c e) : e.Orderly := by
  obtain ⟨cleaned, hs⟩ := h.swept
  obtain ⟨es, hes⟩ := hg.exists_run
  have hcomplete (es : List Scheduler.Event) : (c.flows.run es).Complete := fun kind => by
    rw [Scheduler.handlers_run]
    exact h.complete kind
  refine ⟨hes ▸ hcomplete es, hes ▸ hs.run es, ?_⟩
  cases hg with
  | launch starts _ => exact Scheduler.settled_settle (hcomplete starts) c.now .cancel
  | cancel resourceId => exact fun t ht => h.settled t (by rwa [Scheduler.jobs_cancel] at ht)
  | pass t => exact Scheduler.settled_settle h.complete t .cancel

theorem Orderly.goesOn (h : c.Orderly) (hg : GoesOn c e) : e.Orderly := by
  induction hg with
  | refl => exact h
  | tail _ hg ih => exact ih.goes hg

/-- A flow that has begun a course is over in each later state that finds the course over. It has
given its resource back, or has crashed as its course has. -/
theorem Orderly.over (h : c.Orderly) (hx : c.flows.admission? flow.start.selector = some .exclusive)
    {begun now : Instant} (hbegun : pursue flow begun course now ∈ c.flows.jobs) (hg : GoesOn c e)
    (hover : (course e.now).ending.isSome = true) :
    (e.flows.Released flow ∧ (flow.id ∈ e.flows.marked ∨
      ∃ later finish result, (course later).ending = some (finish, .returned result))) ∨
    (e.flows.Jammed flow ∧ ∃ later finish, (course later).ending = some (finish, .crashed)) := by
  obtain ⟨es, hes⟩ := hg.exists_run
  have he := h.goesOn hg
  obtain ⟨cleaned, hs⟩ := he.swept
  refine hs.over he.settled ?_ ?_ hover
  · rw [hes, Scheduler.admission?, Scheduler.handlers_run]
    exact hx
  · rw [hes]
    exact Scheduler.runs_run ⟨_, hbegun, runs_pursue⟩ es

end Clocked

end ClusterControl
