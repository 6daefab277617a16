import ClusterControl.Proofs.Flow.Swept
import ClusterControl.Proofs.Plane.Exclusive
import ClusterControl.Proofs.Stack.Outcome

/-!
# How long a resource is taken

A flow takes its resource from its admission on. It makes its request and then polls, so once the
request is answered it is over by the deadline of the poll. It gives its resource back unless it has
crashed, which takes a poll that breaks a counter. Nobody has to cancel it for that, and it makes no
difference when the provisioner hangs. A wait for a repair is over by the deadline as well.
-/

namespace ClusterControl

open ClusterControl.Flow

variable {σ : Type}

namespace Clocked

variable {κ : Type}

theorem trigger_snd (config : DispatcherConfig) (c : Clocked σ κ) (s : Start) :
    (c.trigger config s).2 =
      ⟨c.now, c.flows.run [.start s config c.now true]⟩ := by
  unfold Clocked.trigger
  dsimp only
  split <;> rfl

theorem exists_launch_triggerAll (config : DispatcherConfig) (c : Clocked σ κ)
    (starts : List Start) :
    ∃ es : List Scheduler.Event, (∀ e ∈ es, e.isStart = true) ∧
      (c.triggerAll config starts).2 = ⟨c.now, c.flows.run es⟩ := by
  induction starts generalizing c with
  | nil => exact ⟨[], List.forall_mem_nil _, rfl⟩
  | cons s starts ih =>
    obtain ⟨es, hes, hrun⟩ := ih (c.trigger config s).2
    refine ⟨.start s config c.now true :: es, List.forall_mem_cons.mpr ⟨rfl, hes⟩, ?_⟩
    rw [trigger_snd] at hrun
    simp only [triggerAll, trigger_snd, hrun]
    rfl

end Clocked

namespace PlaneState

def flows (s : PlaneState σ) : List Context := s.clocked.flows.jobs.map Job.context

end PlaneState

namespace Deployment

variable {d : Deployment σ} {s : PlaneState σ}

/-- The request of a flow that begins on a world: its reply, and the world after it. -/
def answered (d : Deployment σ) (world : σ) (flow : Context) (begun : Instant) :
    Reply ProvisionerError Unit × σ :=
  d.provisioner.request world begun flow.start.resource
    (Stack.request flow.start.selector flow.start.payload)

def begun (d : Deployment σ) (world : σ) (flow : Context) (begun : Instant) : Job StackCall :=
  let handler := Stack.handler d.clock d.plane.terms d.provisioner flow.start.selector
  pursue flow begun (handler.begin flow begun world).1 begun

/-- The poll of a flow from `origin` on breaks a counter. -/
def Breaks (d : Deployment σ) (world : σ) (flow : Context) (origin : Instant) : Prop :=
  ∃ t counter, (Poll.run d.clock d.plane.terms (Stack.check d.provisioner world
    flow.start.selector flow.start.resource) origin).ending = some (t, .broken counter)

theorem exists_launch_trigger (d : Deployment σ) (c : Clocked σ StackCall) (start : Start) :
    ∃ es : List Scheduler.Event, (∀ e ∈ es, e.isStart = true) ∧
      (Clusters.trigger d.dispatch c start).2 = ⟨c.now, c.flows.run es⟩ := by
  unfold Clusters.trigger
  split
  · refine ⟨[.start start d.plane.settings.dispatcherConfig c.now true],
      List.forall_mem_singleton.mpr rfl, ?_⟩
    rw [← Clocked.trigger_snd]
    rcases h : d.dispatch c start with ⟨result, c'⟩
    have hc : c' = (Clocked.trigger d.plane.settings.dispatcherConfig c start).2 :=
      (congrArg Prod.snd h).symm
    cases result <;> exact hc
  · exact ⟨[], List.forall_mem_nil _, rfl⟩

/-- A wait is over at the end of its poll, which is there by the deadline. -/
theorem exists_wait (d : Deployment σ) (s : PlaneState σ) (r : Resource) :
    ∃ t ending, t ≤ s.clocked.now + d.plane.terms.deadline ∧
      (Clusters.watchRepair d.clock d.plane.terms d.provisioner s.clocked.settle.flows.world r
        s.clocked.now).ending = some (t, ending) ∧
      (d.wait s r).2.clocked = s.clocked.settle.passTo t ∧
      (d.wait s r).1 = ((Clusters.repaired? r ending).map .resource).getD (.flow .nothing) := by
  obtain ⟨t, ending, hrun, hby⟩ := Poll.exists_run_ending d.plane.terms
    (Stack.check d.provisioner s.clocked.settle.flows.world .repair r) s.clocked.now d.clock
  have hwatch : (Clusters.watchRepair d.clock d.plane.terms d.provisioner
      s.clocked.settle.flows.world r s.clocked.settle.now).ending = some (t, ending) := hrun
  refine ⟨t, ending, hby, hrun, ?_, ?_⟩ <;> simp only [wait, hwatch] <;>
    cases Clusters.repaired? r ending <;> rfl

/-- A step starts flows and then settles, or it goes on with those that there are. -/
theorem act_cases (d : Deployment σ) (s : PlaneState σ) (step : PlaneStep) :
    (∃ es : List Scheduler.Event, (∀ e ∈ es, e.isStart = true) ∧ (d.act s step).2.clocked =
      ⟨s.clocked.now, (s.clocked.flows.run es).settle s.clocked.now⟩) ∨
    (s.clocked.GoesOn (d.act s step).2.clocked ∧ (d.act s step).2.flows = s.flows) := by
  have hidle : ∃ es : List Scheduler.Event, (∀ e ∈ es, e.isStart = true) ∧ s.clocked.settle =
      ⟨s.clocked.now, (s.clocked.flows.run es).settle s.clocked.now⟩ :=
    ⟨[], List.forall_mem_nil _, rfl⟩
  have htrigger (start : Start) : ∃ es : List Scheduler.Event, (∀ e ∈ es, e.isStart = true) ∧
      (Clusters.trigger d.dispatch s.clocked start).2.settle =
        ⟨s.clocked.now, (s.clocked.flows.run es).settle s.clocked.now⟩ := by
    obtain ⟨es, hes, hrun⟩ := d.exists_launch_trigger s.clocked start
    exact ⟨es, hes, by rw [hrun]; rfl⟩
  cases step with
  | create r user => exact .inl (htrigger _)
  | delete r user => exact .inl (htrigger _)
  | repair r user request => exact .inl (htrigger _)
  | credential step => exact .inl hidle
  | waitForRepair r =>
    obtain ⟨t, _, _, _, hpass, _⟩ := d.exists_wait s r
    refine .inr ⟨?_, ?_⟩
    · rw [act, hpass]
      exact .head s.clocked.goes_settle (Clocked.goesOn_passTo _ t)
    · rw [act, PlaneState.flows, hpass]
      simp [Clocked.passTo, Clocked.settle, PlaneState.flows]
  | flow step =>
    cases step with
    | trigger start =>
      refine .inl ⟨[.start start d.plane.settings.dispatcherConfig s.clocked.now true],
        List.forall_mem_singleton.mpr rfl, ?_⟩
      simp only [act, Clocked.act, Clocked.trigger_snd]
      rfl
    | triggerAll starts =>
      obtain ⟨es, hes, hrun⟩ := Clocked.exists_launch_triggerAll
        d.plane.settings.dispatcherConfig s.clocked starts
      refine .inl ⟨es, hes, ?_⟩
      simp only [act, Clocked.act, hrun]
      rfl
    | publishDeparted start =>
      exact .inl ⟨[.start start d.plane.settings.dispatcherConfig s.clocked.now false],
        List.forall_mem_singleton.mpr rfl, rfl⟩
    | cancel r settles =>
      have hcancel : s.clocked.Goes ⟨s.clocked.now, s.clocked.flows.cancel r.id⟩ := .cancel r.id
      cases settles with
      | true =>
        refine .inr ⟨.tail (.single hcancel) (Clocked.goes_settle _), ?_⟩
        simp [act, Clocked.act, Clocked.settle, PlaneState.flows]
      | false => exact .inr ⟨.single hcancel, by simp [act, Clocked.act, PlaneState.flows]⟩
    | advance ms =>
      refine .inr ⟨Clocked.goesOn_passTo _ _, ?_⟩
      simp [act, Clocked.act, Clocked.passTo, Clocked.settle, PlaneState.flows]
    | isRunning ids => exact .inl hidle

theorem goesOn_act (d : Deployment σ) (s : PlaneState σ) (step : PlaneStep) :
    s.clocked.GoesOn (d.act s step).2.clocked := by
  rcases d.act_cases s step with ⟨es, hes, hact⟩ | ⟨hgoes, _⟩
  · rw [hact]
    exact .single (.launch es hes)
  · exact hgoes

theorem goesOn_run (d : Deployment σ) (s : PlaneState σ) (steps : List PlaneStep) :
    s.clocked.GoesOn (d.run s steps).2.clocked := by
  induction steps generalizing s with
  | nil => exact .refl
  | cons step steps ih => exact (d.goesOn_act s step).trans (ih (d.act s step).2)

theorem handlers_goesOn {c e : Clocked σ StackCall} (h : c.GoesOn e) :
    e.flows.handlers = c.flows.handlers := by
  obtain ⟨es, hes⟩ := h.exists_run
  rw [hes, Scheduler.handlers_run]

structure Running (d : Deployment σ) (c : Clocked σ StackCall) : Prop where
  orderly : c.Orderly
  handler : ∀ kind, c.flows.handlers kind =
    some (Stack.handler d.clock d.plane.terms d.provisioner kind)

theorem running_start (d : Deployment σ) (world : σ) : d.Running (d.start world).clocked where
  orderly := Clocked.orderly_initial (fun _ => ⟨_, rfl⟩) 0
  handler _ := rfl

theorem Running.goesOn {c e : Clocked σ StackCall} (h : d.Running c) (hg : c.GoesOn e) :
    d.Running e where
  orderly := h.orderly.goesOn hg
  handler kind := by rw [handlers_goesOn hg, h.handler]

theorem Running.admission (h : d.Running s.clocked) (kind : Selector) :
    s.clocked.flows.admission? kind = some .exclusive := by
  simp [Scheduler.admission?, h.handler, Stack.handler]

/-- A flow that a step starts has begun by the end of that step, and no time has passed. -/
theorem Running.exists_begun (h : d.Running s.clocked) {step : PlaneStep} {flow : Context}
    (hnew : flow ∉ s.flows) (hflow : flow ∈ (d.act s step).2.flows) :
    (d.act s step).2.clocked.now = s.clocked.now ∧
      ∃ world, d.begun world flow s.clocked.now ∈ (d.act s step).2.clocked.flows.jobs := by
  rcases d.act_cases s step with ⟨es, hes, hact⟩ | ⟨_, hsame⟩
  · obtain ⟨cleaned, hswept⟩ := h.orderly.swept
    rw [PlaneState.flows, hact] at hflow
    rw [hact]
    exact ⟨rfl, hswept.exists_begun (Scheduler.launched_run hes) hnew hflow
      (h.handler flow.start.selector)⟩
  · exact absurd (hsame ▸ hflow) hnew

theorem begun_eq {world : σ} {flow : Context} {t c : Nat}
    (hc : (d.answered world flow t).1.delay = some c) :
    d.begun world flow t = pursue flow t (Stack.course d.clock d.plane.terms d.provisioner
      (d.answered world flow t).2 flow.start.selector flow.start t
      ⟨some c, (d.answered world flow t).1.answer⟩) t := by
  rw [← hc]
  rfl

/-- Once the request of a flow was answered a deadline ago, the flow is over. It has given its
resource back, or its poll has broken a counter, and then it has crashed unless it was marked. -/
theorem Running.over (h : d.Running s.clocked) {world : σ} {flow : Context} {t c : Nat}
    (hbegun : d.begun world flow t ∈ s.clocked.flows.jobs)
    (hc : (d.answered world flow t).1.delay = some c) {later : List PlaneStep}
    (hby : t + c + d.plane.terms.deadline ≤ (d.run s later).2.clocked.now) :
    ((d.run s later).2.clocked.flows.Released flow ∧
      (Stack.afterRequest? flow.start.resource flow.start.selector
          (d.answered world flow t).1.answer = none →
        d.Breaks (d.answered world flow t).2 flow (t + c) →
          flow.id ∈ (d.run s later).2.clocked.flows.marked)) ∨
    ((d.run s later).2.clocked.flows.Jammed flow ∧
      d.Breaks (d.answered world flow t).2 flow (t + c)) := by
  rw [begun_eq hc] at hbegun
  rcases h.orderly.over (h.admission flow.start.selector) hbegun (d.goesOn_run s later)
    (Stack.isSome_course_ending hby) with ⟨hreleased, hend⟩ | ⟨hjammed, _, finish, hend⟩
  · refine .inl ⟨hreleased, fun hgranted ⟨u, counter, hbroken⟩ => ?_⟩
    refine hend.resolve_right ?_
    rintro ⟨now, finish, result, hend⟩
    rcases Stack.course_ending_cases hend with ⟨_, hrefused, _⟩ | ⟨_, e, hrun, he⟩
    · rw [hgranted] at hrefused
      cases hrefused
    · rw [hbroken] at hrun
      cases hrun
      cases he
  · refine .inr ⟨hjammed, ?_⟩
    rcases Stack.course_ending_cases hend with ⟨_, _, he⟩ | ⟨_, e, hrun, he⟩
    · cases he
    · cases e with
      | done | failed => cases he
      | broken counter => exact ⟨finish, counter, hrun⟩

theorem not_breaks_of_room {world : σ} {flow : Context} {origin : Instant}
    (room : Poll.Room d.clock d.plane.terms origin) : ¬ d.Breaks world flow origin :=
  fun ⟨_, _, h⟩ => room.ending_ne_broken h

/-- A wait for a repair lets no more time pass than the deadline, and has a result if its poll has
room. -/
theorem wait_returns (d : Deployment σ) (s : PlaneState σ) (r : Resource) :
    (d.act s (.waitForRepair r)).2.clocked.now ≤ s.clocked.now + d.plane.terms.deadline ∧
      (Poll.Room d.clock d.plane.terms s.clocked.now →
        ∃ result, (d.act s (.waitForRepair r)).1 = .resource result) := by
  obtain ⟨t, ending, hby, hrun, hpass, hresult⟩ := d.exists_wait s r
  refine ⟨?_, fun room => ?_⟩
  · rw [act, hpass]
    exact hby
  · cases ending with
    | done | failed => exact ⟨_, hresult⟩
    | broken counter => exact absurd hrun room.ending_ne_broken

/-- Consider any state that steps have led to, at a time `t`. A flow that the next step starts
begins at `t` on some world. If its request is answered after `c`, then in every later state from
`t + c` and a deadline on the flow is over and its entry is gone, unless its poll has broken a
counter: then it has crashed and keeps its resource. A wait for a repair that begins at `t` is over
by `t` and a deadline. No poll breaks a counter when the clock holds its deadline and fewer attempts
fit before that than are counted, and then the wait returns. -/
theorem occupancy_bounded (d : Deployment σ) (world : σ) (earlier : List PlaneStep) :
    let before := (d.run (d.start world) earlier).2
    let t := before.clocked.now
    (∀ step later flow,
      let started := (d.act before step).2
      let last := (d.run started later).2
      flow ∉ before.flows → flow ∈ started.flows →
        started.clocked.now = t ∧
        (∃ w, d.begun w flow t ∈ started.clocked.flows.jobs) ∧
        ∀ w c, d.begun w flow t ∈ started.clocked.flows.jobs →
          (d.answered w flow t).1.delay = some c →
          t + c + d.plane.terms.deadline ≤ last.clocked.now →
            (last.clocked.flows.Released flow ∨
              last.clocked.flows.Jammed flow ∧ d.Breaks (d.answered w flow t).2 flow (t + c)) ∧
            (Poll.Room d.clock d.plane.terms (t + c) → last.clocked.flows.Released flow)) ∧
    ∀ r,
      let waited := d.act before (.waitForRepair r)
      waited.2.clocked.now ≤ t + d.plane.terms.deadline ∧
        (Poll.Room d.clock d.plane.terms t → ∃ result, waited.1 = .resource result) := by
  intro before t
  have hbefore : d.Running before.clocked :=
    (running_start d world).goesOn (d.goesOn_run (d.start world) earlier)
  refine ⟨fun step later flow => ?_, fun r => d.wait_returns before r⟩
  intro started last hnew hflow
  obtain ⟨hnow, hbegun⟩ := hbefore.exists_begun hnew hflow
  refine ⟨hnow, hbegun, fun w c hw hc hby => ?_⟩
  have hstarted : d.Running started.clocked := hbefore.goesOn (d.goesOn_act before step)
  rcases hstarted.over hw hc hby with ⟨hreleased, _⟩ | hjammed
  · exact ⟨.inl hreleased, fun _ => hreleased⟩
  · exact ⟨.inr hjammed, fun room => absurd hjammed.2 (not_breaks_of_room room)⟩

/-- A deployment of accepted settings, at the start of its clock and without AWS. -/
def plain (settings : Settings) (provisioner : Provisioner Unit) : Deployment Unit where
  plane := ⟨settings, ⟨none⟩⟩
  clock := 0
  provisioner := provisioner
  identity :=
    let offline : AwsError := .client "offline"
    ⟨fun _ _ => .error offline, fun _ _ => .error offline, fun _ _ => .error offline,
      fun _ _ _ => .error offline⟩

def creation : Context := ⟨0, ⟨.create, ⟨"42", "dl-prod", .created⟩, "crn:user:ops", .none⟩⟩

/-- A provisioner that takes requests and then hangs. -/
def hanging : Provisioner Unit where
  request _ _ _ _ := (⟨some 3, .ok ()⟩, ())
  status _ _ _ _ := ⟨none, .ok none⟩

theorem occupancy_bounded_hanging :
    let d := plain {} hanging
    let started := (d.act (d.start ()) (.create creation.start.resource creation.start.user)).2
    let last := (d.run started [.flow (.advance 3600003)]).2
    creation ∉ (d.start ()).flows ∧ creation ∈ started.flows ∧
      (d.answered () creation 0).1.delay = some 3 ∧ Poll.Room d.clock d.plane.terms (0 + 3) ∧
      0 + 3 + d.plane.terms.deadline ≤ last.clocked.now ∧ last.clocked.flows.Released creation := by
  intro d started last
  have hnew : creation ∉ (d.start ()).flows := List.not_mem_nil
  have hflow : creation ∈ started.flows := List.mem_singleton.mpr rfl
  have hdelay : (d.answered () creation 0).1.delay = some 3 := rfl
  have hroom : Poll.Room d.clock d.plane.terms (0 + 3) := ⟨by decide, by decide, by decide⟩
  have hdeadline : d.plane.terms.deadline = 3600000 := by decide
  have hlast : last.clocked.now = 3600003 := by decide
  have hby : 0 + 3 + d.plane.terms.deadline ≤ last.clocked.now := by rw [hdeadline, hlast]
  obtain ⟨_, ⟨w, hw⟩, hover⟩ := (occupancy_bounded d () []).1
    (.create creation.start.resource creation.start.user) [.flow (.advance 3600003)] creation hnew
    hflow
  exact ⟨hnew, hflow, hdelay, hroom, hby, (hover w 3 hw hdelay hby).2 hroom⟩

def busy : Provisioner Unit where
  request _ _ _ _ := (⟨some 0, .ok ()⟩, ())
  status _ _ _ _ := ⟨some 0, .ok (some ⟨.updateInProgress, none, .updateInProgress, none⟩)⟩

/-- An interval of a second, and a deadline that leaves time for more looks than are counted. -/
def hasty : Settings := { polling := { sleepTimeSecs := 1, durationMins := 71582789 } }

theorem ofYaml_hasty :
    Settings.ofYaml "polling:\n  sleep_time_secs: 1\n  duration_mins: 71582789\n" "test.yaml" =
      .ok hasty :=
  Settings.ofYaml_of_parse? (by decide +kernel) (by decide)

theorem terms_hasty : (plain hasty busy).plane.terms = ⟨1000, 4294967340000, true⟩ := by decide

/-- The poll of the creation runs out of attempts. -/
theorem busy_breaks : (plain hasty busy).Breaks () creation 0 := by
  have hcheck : Stack.check busy () .create creation.start.resource = Poll.undecided := rfl
  have hsleep : min 1000 longestSleep = 1000 := by decide
  have hrun : ∃ t, (Poll.run 0 ⟨1000, 4294967340000, true⟩
      (Stack.check busy () .create creation.start.resource) 0).ending =
        some (t, .broken .attempts) := by
    rw [hcheck]
    refine (Poll.broken_attempts_iff (by decide)).mpr ⟨by decide, fun i hi => ?_⟩
    have hcount : i < 4294967295 := hi
    refine Poll.inconclusive_undecided ?_
    simp only [hsleep]
    omega
  obtain ⟨t, ht⟩ := hrun
  refine ⟨t, .attempts, ?_⟩
  rw [terms_hasty]
  exact ht

/-- The first creation is started. -/
theorem started_creation (d : Deployment σ) (world : σ) :
    let step : PlaneStep := .create creation.start.resource creation.start.user
    (d.act (d.start world) step).2.flows = [creation] ∧
      (d.act (d.start world) step).2.clocked.flows.marked = [] := by
  have hstart : Clusters.create d.dispatch (d.start world).clocked creation.start.resource
      creation.start.user =
        (.ok (creation.start.resource.withStatus .createInProgress),
          admitted (d.start world).clocked creation.start) := by
    have hallowed : Selector.create.allows creation.start.resource.status = true := rfl
    simp only [Clusters.create, Clusters.trigger, hallowed, if_true, dispatch_eq]
    rfl
  simp only [act, hstart, PlaneState.flows, Clocked.settle, Scheduler.contexts_settle,
    Scheduler.marked_settle]
  exact ⟨rfl, rfl⟩

/-- Time passes without a mark. -/
theorem marked_advances (d : Deployment σ) (s : PlaneState σ) (spans : List Nat) :
    (d.run s (spans.map fun ms => .flow (.advance ms))).2.clocked.flows.marked =
      s.clocked.flows.marked := by
  induction spans generalizing s with
  | nil => rfl
  | cons ms spans ih =>
    refine (ih _).trans ?_
    simp [Clocked.passTo, Clocked.settle]

/-- The creation crashes on these settings. Nobody marks it, and it keeps its resource. -/
theorem jammed_busy :
    let d := plain hasty busy
    let started := (d.act (d.start ()) (.create creation.start.resource creation.start.user)).2
    let last := (d.run started
      ((List.replicate 5 longestSleep).map fun ms => .flow (.advance ms))).2
    last.clocked.now = 4730400000000 ∧ creation ∈ started.flows ∧
      last.clocked.flows.marked = [] ∧ last.clocked.flows.Jammed creation := by
  intro d started last
  have hlast : last.clocked.now = 4730400000000 := by decide
  obtain ⟨hflows, hunmarked⟩ := started_creation d ()
  have hmarked : last.clocked.flows.marked = [] := (marked_advances d started _).trans hunmarked
  have hflow : creation ∈ started.flows := by
    rw [hflows]
    exact List.mem_singleton_self creation
  obtain ⟨_, world, hbegun⟩ := (running_start d ()).exists_begun List.not_mem_nil hflow
  have hstarted : d.Running started.clocked := (running_start d ()).goesOn (d.goesOn_act _ _)
  have hby : 0 + 0 + d.plane.terms.deadline ≤ last.clocked.now := by
    rw [terms_hasty, hlast]
    decide
  refine ⟨hlast, hflow, hmarked, ?_⟩
  rcases hstarted.over hbegun rfl hby with ⟨_, hmark⟩ | ⟨hjammed, _⟩
  · have hid : creation.id ∈ last.clocked.flows.marked := hmark rfl busy_breaks
    rw [hmarked] at hid
    cases hid
  · exact hjammed

/-- A deadline that the clock holds at first. -/
def endless : Settings := { polling := { durationMins := 153722867272579596 } }

theorem ofYaml_endless :
    Settings.ofYaml "polling:\n  duration_mins: 153722867272579596\n" "test.yaml" = .ok endless :=
  Settings.ofYaml_of_parse? (by decide +kernel) (by decide)

/-- A wait whose deadline is beyond the clock has no result. -/
theorem wait_of_late {d : Deployment σ} {s : PlaneState σ}
    (hlate : Poll.clockLimit ≤ d.clock + s.clocked.now + d.plane.terms.deadline) (r : Resource)
    (result : Except PlaneError Resource) : (d.act s (.waitForRepair r)).1 ≠ .resource result := by
  intro h
  obtain ⟨t, ending, _, hrun, _, hresult⟩ := d.exists_wait s r
  rw [Clusters.watchRepair, Poll.run_of_late hlate] at hrun
  cases hrun
  rw [act, hresult] at h
  cases h

/-- Accepted settings with a positive interval and a deadline that the clock holds all along. The
poll runs out of attempts, and the creation has crashed and keeps its resource when the deadline is
long past. With another deadline that the clock holds at first, a wait that begins years later never
has a result, though the stack is available. -/
theorem occupancy_outlasts_deadline :
    (∃ settings,
      Settings.ofYaml "polling:\n  sleep_time_secs: 1\n  duration_mins: 71582789\n" "test.yaml" =
        .ok settings ∧
      let d := plain settings busy
      let started := (d.act (d.start ()) (.create creation.start.resource creation.start.user)).2
      let last := (d.run started
        ((List.replicate 5 longestSleep).map fun ms => .flow (.advance ms))).2
      1 ≤ d.plane.terms.interval ∧
        d.clock + last.clocked.now + d.plane.terms.deadline < Poll.clockLimit ∧
        creation ∈ started.flows ∧ (d.answered () creation 0).1.delay = some 0 ∧
        0 + 0 + d.plane.terms.deadline < last.clocked.now ∧ last.clocked.flows.marked = [] ∧
        last.clocked.flows.Jammed creation) ∧
    (∃ settings,
      Settings.ofYaml "polling:\n  duration_mins: 153722867272579596\n" "test.yaml" =
        .ok settings ∧
      let d := plain settings Stack.prompt
      let late := (d.act (d.start ()) (.flow (.advance longestSleep))).2
      d.clock + 0 + d.plane.terms.deadline < Poll.clockLimit ∧
        ∀ r result, (d.act late (.waitForRepair r)).1 ≠ .resource result) := by
  constructor
  · refine ⟨hasty, ofYaml_hasty, ?_⟩
    intro d started last
    obtain ⟨hlast, hflow, hmarked, hjammed⟩ := jammed_busy
    refine ⟨?_, ?_, hflow, rfl, ?_, hmarked, hjammed⟩
    · rw [terms_hasty]
      decide
    · rw [terms_hasty, hlast]
      decide
    · rw [terms_hasty, hlast]
      decide
  · refine ⟨endless, ofYaml_endless, ?_⟩
    intro d late
    have hnow : late.clocked.now = longestSleep := by decide
    refine ⟨by decide, wait_of_late ?_⟩
    rw [hnow]
    decide

end Deployment

end ClusterControl
