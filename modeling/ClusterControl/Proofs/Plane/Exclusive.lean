import ClusterControl.Proofs.Flow.Admission
import ClusterControl.Proofs.Plane.Log
import ClusterControl.Proofs.Stack.Course

/-!
# Exclusive flows of a control plane

`Kept` is the invariant of the events of a plane: the log agrees with the jobs and the registry, and
each job has called what its operation asks for. A job can only call while it is live, and then its
flow has its resource for itself. So the calls of two flows of one resource never interleave.
-/

namespace ClusterControl

open ClusterControl.Flow

namespace PlaneLog

variable {log rs : PlaneLog} {flow other : Context} {op : Operation}

/-- Nothing is admitted and nothing released. -/
def Quiet (rs : PlaneLog) : Prop := ∀ flow, .admitted flow ∉ rs ∧ .released flow ∉ rs

theorem open_append (h : rs.Quiet) : Open (log ++ rs) flow ↔ log.Open flow := by
  simp [Open, h flow]

theorem openAlone_append (h : rs.Quiet) : OpenAlone (log ++ rs) flow ↔ log.OpenAlone flow := by
  simp only [OpenAlone, open_append h]

theorem StoppedEarly.append (h : log.StoppedEarly flow) : StoppedEarly (log ++ rs) flow := by
  obtain ⟨before, after, rfl, ha, hr⟩ := h
  exact ⟨before, after ++ rs, by simp, ha, hr⟩

theorem flows_append : flows (log ++ rs) = log.flows ++ rs.flows := List.filterMap_append

theorem successes_append : successes (log ++ rs) = log.successes ++ rs.successes :=
  List.filterMap_append

theorem callsOf_append : callsOf (log ++ rs) flow = log.callsOf flow ++ callsOf rs flow :=
  List.filterMap_append

theorem mem_flows : flow ∈ log.flows ↔ .admitted flow ∈ log := by
  unfold flows
  rw [List.mem_filterMap]
  constructor
  · rintro ⟨r, hr, hf⟩
    cases r <;> simp_all
  · exact fun h => ⟨_, h, rfl⟩

theorem callsOf_eq_nil (h : ∀ call, .called flow call ∉ log) : log.callsOf flow = [] := by
  unfold callsOf
  rw [List.filterMap_eq_nil_iff]
  intro r hr
  cases r with
  | called f call =>
    have hne : f ≠ flow := by
      rintro rfl
      exact h call hr
    simp [hne]
  | _ => rfl

/-- What holds at each call of a log and at each further call holds at all of them. -/
theorem EachCall.append {p : PlaneLog → Context → Instant × StackCall → Prop}
    (h : log.EachCall p)
    (hrs : ∀ (before : PlaneLog) flow call after, rs = before ++ .called flow call :: after →
      p (log ++ before) flow call) : EachCall (log ++ rs) p := by
  intro before flow call after heq
  rcases List.append_eq_append_iff.mp heq with ⟨more, rfl, hmore⟩ | ⟨more, rfl, hmore⟩
  · exact hrs more flow call after hmore
  · cases more with
    | nil => simpa using hrs [] flow call after (by simpa using hmore.symm)
    | cons r more =>
      obtain ⟨rfl, rfl⟩ := List.cons.inj hmore
      exact h before flow call more rfl

theorem mem_of_split {before after : PlaneLog} {call : Instant × StackCall}
    (heq : rs = before ++ .called flow call :: after) : .called flow call ∈ rs := by
  rw [heq]
  exact List.mem_append_right _ List.mem_cons_self

/-- The calls until an instant are exclusive, and logged in the order of their instants. -/
structure Sequential (log : PlaneLog) (now : Instant) : Prop where
  exclusive : log.Exclusive
  timely : log.Timely
  past : ∀ flow call, .called flow call ∈ log → call.1 ≤ now

theorem sequential_nil (now : Instant) : Sequential [] now :=
  ⟨by simp [Exclusive, EachCall], by simp [Timely, EachCall], by simp⟩

theorem Sequential.append_uncalled {now : Instant} (h : log.Sequential now)
    (hrs : ∀ flow call, .called flow call ∉ rs) : Sequential (log ++ rs) now where
  exclusive := h.exclusive.append fun _ flow call _ heq => absurd (mem_of_split heq) (hrs flow call)
  timely := h.timely.append fun _ flow call _ heq => absurd (mem_of_split heq) (hrs flow call)
  past flow call hc := h.past flow call ((List.mem_append.mp hc).resolve_right (hrs flow call))

theorem Sequential.append_alone {now later : Instant} (h : log.Sequential now) (hq : rs.Quiet)
    (hle : now ≤ later)
    (hrs : ∀ flow call, .called flow call ∈ rs →
      log.OpenAlone flow ∧ now ≤ call.1 ∧ call.1 ≤ later) : Sequential (log ++ rs) later where
  exclusive := by
    refine h.exclusive.append fun before flow call after heq => ?_
    have hbefore : before.Quiet := by
      intro other
      have hq' := hq other
      simp only [heq, List.mem_append, not_or] at hq'
      exact ⟨hq'.1.1, hq'.2.1⟩
    rw [openAlone_append hbefore]
    exact (hrs flow call (mem_of_split heq)).1
  timely := by
    refine h.timely.append fun before flow call after heq other earlier ho hne hid => ?_
    obtain ⟨halone, hlow, _⟩ := hrs flow call (mem_of_split heq)
    rcases List.mem_append.mp ho with ho | ho
    · exact Nat.le_trans (h.past other earlier ho) hlow
    · -- The other flow is open at the same time, on the same resource.
      have hother := hrs other earlier (heq ▸ List.mem_append_left _ ho)
      exact absurd (halone.2 other hother.1.1 hid) hne
  past flow call hc := by
    rcases List.mem_append.mp hc with hc | hc
    · exact Nat.le_trans (h.past flow call hc) hle
    · exact (hrs flow call hc).2.2

/-- Two flows of one resource never call in turns. -/
theorem Exclusive.apart (h : log.Exclusive) {a b e f : PlaneLog} {x y z : Instant × StackCall}
    (heq : log = a ++ .called flow x :: b ++ .called other y :: e ++ .called flow z :: f)
    (hid : other.start.resource.id = flow.start.resource.id) : other = flow := by
  have hfirst := (h a flow x (b ++ .called other y :: e ++ .called flow z :: f) (by simp [heq])).1
  have hlast := (h (a ++ .called flow x :: b ++ .called other y :: e) flow z f (by simp [heq])).1
  have hmiddle := h (a ++ .called flow x :: b) other y (e ++ .called flow z :: f) (by simp [heq])
  refine (hmiddle.2 flow ⟨?_, ?_⟩ hid.symm).symm
  · exact List.mem_append_left _ hfirst.1
  · exact fun hr => hlast.2 (List.mem_append_left _ hr)

end PlaneLog

namespace Deployment

variable {σ : Type} {d : Deployment σ} {c : Clocked σ StackCall} {log rs : PlaneLog}
  {t u : Job StackCall}

/-- A dispatch is a start whose requester has its result at once. -/
theorem dispatch_eq (d : Deployment σ) (c : Clocked σ StackCall) (s : Start) :
    d.dispatch c s =
      ((c.flows.claim s).1.verdict s d.plane.settings.dispatcherConfig.unwired,
        { c with
          flows := (c.flows.start s d.plane.settings.dispatcherConfig.unwired true).2 }) := by
  rw [dispatch, Clocked.trigger]
  simp only [Scheduler.trigger_result, Scheduler.trigger_snd]

/-- How far a job has come by its log. -/
def Progressed (m : Scheduler σ StackCall) (log : PlaneLog) (t : Job StackCall) : Prop :=
  match t.phase with
  | .ready =>
    .ran t.context ∉ log ∧ (m.isCancelled t.context = true → log.StoppedEarly t.context)
  | .live begun course => .ran t.context ∈ log ∧ Stack.Faithful t.context.start begun course
  | .ended begun _ calls _ =>
    .ran t.context ∈ log ∧
      (Stack.Asks t.context.start begun calls ∨ calls = [] ∧ log.StoppedEarly t.context)

theorem callsOf_made (now later : Instant) :
    (made t u now later).callsOf t.context = (u.calls later).drop (t.calls now).length := by
  unfold made PlaneLog.callsOf
  rw [List.filterMap_map]
  simp

theorem mem_made {r : PlaneRecord} {now later : Instant} (h : r ∈ made t u now later) :
    ∃ call, r = .called t.context call := by
  obtain ⟨call, _, rfl⟩ := List.mem_map.mp h
  exact ⟨call, rfl⟩

theorem callsOf_made_of_ne {flow : Context} (h : t.context ≠ flow) (now later : Instant) :
    (made t u now later).callsOf flow = [] :=
  PlaneLog.callsOf_eq_nil fun call hc => by
    obtain ⟨_, he⟩ := mem_made hc
    exact h (PlaneRecord.called.inj he).1.symm

/-- Of the jobs that go on by themselves only the live ones call. -/
theorem isLive_of_mem_made {r : PlaneRecord} {now later : Instant} (h : r ∈ made t t now later) :
    t.isLive = true := by
  obtain ⟨call, hcall, rfl⟩ := List.mem_map.mp h
  cases hp : t.phase with
  | ready => simp [Job.isLive, hp]
  | live => simp [Job.isLive, hp]
  | ended => simp [Job.calls, hp] at hcall

/-- A job has called what it had called by an instant, and more between that and a later one. -/
def Extends (t u : Job StackCall) (now later : Instant) : Prop :=
  ∃ more, u.calls later = t.calls now ++ more ∧ ∀ x ∈ more, now ≤ x.1 ∧ x.1 ≤ later

theorem Extends.calls {now later : Instant} (h : Extends t u now later) :
    t.calls now ++ (made t u now later).callsOf t.context = u.calls later := by
  obtain ⟨more, hmore, _⟩ := h
  rw [callsOf_made, hmore, List.drop_left]

theorem Extends.between {now later : Instant} (h : Extends t u now later) {flow : Context}
    {call : Instant × StackCall} (hr : .called flow call ∈ made t u now later) :
    now ≤ call.1 ∧ call.1 ≤ later := by
  obtain ⟨more, hmore, hbounds⟩ := h
  obtain ⟨x, hx, he⟩ := List.mem_map.mp hr
  rw [hmore, List.drop_left] at hx
  exact (PlaneRecord.called.inj he).2 ▸ hbounds x hx

theorem quiet_ran_made (now later : Instant) :
    PlaneLog.Quiet (.ran t.context :: made t u now later) := by
  intro flow
  constructor <;> intro hr <;> rcases List.mem_cons.mp hr with hc | hr
  · cases hc
  · cases (mem_made hr).choose_spec
  · cases hc
  · cases (mem_made hr).choose_spec

theorem callsOf_made_all {ts : List (Job StackCall)} (distinct : (ts.map Job.context).Nodup)
    (ht : t ∈ ts) (now later : Instant) :
    PlaneLog.callsOf (ts.flatMap fun t => made t t now later) t.context =
      (made t t now later).callsOf t.context := by
  induction ts with
  | nil => cases ht
  | cons v ts ih =>
    obtain ⟨hv, hts⟩ := List.nodup_cons.mp distinct
    rw [List.flatMap_cons, PlaneLog.callsOf_append]
    rcases List.mem_cons.mp ht with rfl | ht
    · have hrest : PlaneLog.callsOf (ts.flatMap fun t => made t t now later) t.context = [] := by
        refine PlaneLog.callsOf_eq_nil fun call hc => hv ?_
        obtain ⟨u, hu, hr⟩ := List.mem_flatMap.mp hc
        obtain ⟨_, he⟩ := mem_made hr
        exact (PlaneRecord.called.inj he).1 ▸ List.mem_map_of_mem hu
      rw [hrest, List.append_nil]
    · have hne : v.context ≠ t.context := fun he => hv (he ▸ List.mem_map_of_mem ht)
      rw [callsOf_made_of_ne hne, List.nil_append, ih hts ht]

structure Follows (c : Clocked σ StackCall) (log : PlaneLog) (t : Job StackCall) : Prop where
  registered : .released t.context ∉ log ↔ .ofContext t.context ∈ c.flows.registry
  calls : log.callsOf t.context = t.calls c.now
  progress : Progressed c.flows log t

structure Kept (d : Deployment σ) (c : Clocked σ StackCall) (log : PlaneLog) : Prop where
  handler : ∀ kind, c.flows.handlers kind =
    some (Stack.handler d.clock d.plane.terms d.provisioner kind)
  sound : ∃ cleaned, Interleaving.Sound ⟨c.flows, [], cleaned⟩
  marked : ∀ id ∈ c.flows.marked, id < c.flows.nextId
  flows : log.flows = c.flows.jobs.map Job.context
  starts : log.flows.map Context.start = log.successes.map Operation.start
  follows : ∀ t ∈ c.flows.jobs, Follows c log t
  known : ∀ flow, .released flow ∈ log ∨ .ran flow ∈ log ∨ (∃ call, .called flow call ∈ log) →
    flow ∈ log.flows
  watched : ∀ call, .watched call ∈ log → ∃ r, call.2 = .status r
  sequential : log.Sequential c.now

theorem Progressed.append {m n : Scheduler σ StackCall} (h : Progressed m log t)
    (hran : .ran t.context ∉ rs)
    (hmark : .ran t.context ∉ log → n.isCancelled t.context = true →
      m.isCancelled t.context = true ∨ PlaneLog.StoppedEarly (log ++ rs) t.context) :
    Progressed n (log ++ rs) t := by
  unfold Progressed at *
  split at h
  · refine ⟨by simp [h.1, hran], fun hc => ?_⟩
    rcases hmark h.1 hc with hc | hs
    · exact (h.2 hc).append
    · exact hs
  · exact ⟨List.mem_append_left _ h.1, h.2⟩
  · exact ⟨List.mem_append_left _ h.1, h.2.imp id fun hs => ⟨hs.1, hs.2.append⟩⟩

/-- A job that is left alone keeps its calls and adds more. -/
theorem Progressed.grows {m : Scheduler σ StackCall} (h : Progressed m log t) {a b : Instant}
    (hab : a ≤ b) : Extends t t a b := by
  unfold Progressed at h
  unfold Extends Job.calls
  split at h
  next hp => exact ⟨[], by simp [hp], by simp⟩
  next begun course hp =>
    obtain ⟨more, hmore, hbounds⟩ := h.2.grows a b hab
    exact ⟨more, by simp [hp, hmore], fun x hx => ⟨Nat.le_of_lt (hbounds x hx).1, (hbounds x hx).2⟩⟩
  next hp => exact ⟨[], by simp [hp], by simp⟩

theorem Follows.append {e : Clocked σ StackCall} (h : Follows c log t)
    (released : .released t.context ∉ rs) (ran : .ran t.context ∉ rs)
    (registry : .ofContext t.context ∈ e.flows.registry ↔ .ofContext t.context ∈ c.flows.registry)
    (calls : t.calls c.now ++ rs.callsOf t.context = t.calls e.now)
    (mark : .ran t.context ∉ log → e.flows.isCancelled t.context = true →
      c.flows.isCancelled t.context = true ∨ PlaneLog.StoppedEarly (log ++ rs) t.context) :
    Follows e (log ++ rs) t where
  registered := by
    rw [registry, ← h.registered, List.mem_append, not_or]
    exact and_iff_left released
  calls := by rw [PlaneLog.callsOf_append, h.calls, calls]
  progress := h.progress.append ran mark

/-- A job is left alone by the records of another one. -/
theorem Follows.apart {e : Clocked σ StackCall} (h : Follows c log u)
    (hrs : ∀ r ∈ rs, r.IsOf t.context) (hne : u.context ≠ t.context)
    (registry : .ofContext u.context ∈ e.flows.registry ↔ .ofContext u.context ∈ c.flows.registry)
    (now : e.now = c.now) (marked : e.flows.marked = c.flows.marked) : Follows e (log ++ rs) u := by
  refine h.append (fun hr => hne (hrs _ hr)) (fun hr => hne (hrs _ hr)) registry ?_ fun _ hc => ?_
  · rw [PlaneLog.callsOf_eq_nil fun call hr => hne (hrs _ hr), List.append_nil, now]
  · rw [Scheduler.isCancelled, marked] at hc
    exact .inl hc

section

variable {i : Nat} {first : Branch}

theorem records_work (ht : c.flows.jobs[i]? = some t) (hl : t.isLive = true) :
    d.records c (.work i first) =
      .ran t.context :: made t (c.flows.runJob first t c.now).1 c.now c.now := by
  simp [records, ht, hl]

theorem isOf_work (ht : c.flows.jobs[i]? = some t) :
    ∀ r ∈ d.records c (.work i first), r.IsOf t.context := by
  intro r hr
  simp only [records, ht] at hr
  split at hr
  next =>
    rcases List.mem_cons.mp hr with rfl | hr
    · rfl
    · obtain ⟨call, rfl⟩ := mem_made hr
      rfl
  next => cases hr

theorem mem_cleanUp (ht : c.flows.jobs[i]? = some t) :
    ∀ r ∈ d.records c (.cleanUp i), r = .released t.context := by
  intro r hr
  simp only [records, ht] at hr
  split at hr
  next => exact List.mem_singleton.mp hr
  next => cases hr

theorem isOf_cleanUp (ht : c.flows.jobs[i]? = some t) :
    ∀ r ∈ d.records c (.cleanUp i), r.IsOf t.context := by
  intro r hr
  cases mem_cleanUp ht r hr
  rfl

end

def admitted (c : Clocked σ StackCall) (start : Start) : Clocked σ StackCall :=
  { c with
    flows :=
      { c.flows with
        registry := c.flows.registry ++ [.ofContext ⟨c.flows.nextId, start⟩]
        jobs := c.flows.jobs ++ [⟨⟨c.flows.nextId, start⟩, .ready⟩]
        nextId := c.flows.nextId + 1 } }

namespace Kept

theorem admission (h : Kept d c log) (kind : Selector) :
    c.flows.admission? kind = some .exclusive := by
  simp [Scheduler.admission?, h.handler, Stack.handler]

theorem mem_flows (h : Kept d c log) (ht : t ∈ c.flows.jobs) : t.context ∈ log.flows := by
  rw [h.flows]
  exact List.mem_map_of_mem ht

theorem distinct (h : Kept d c log) : (log.flows.map Context.id).Nodup := by
  obtain ⟨cleaned, hs⟩ := h.sound
  have hd := hs.accounts.distinct
  rw [h.flows]
  simpa [Interleaving.contexts] using hd

theorem id_lt (h : Kept d c log) {flow : Context} (hf : flow ∈ log.flows) :
    flow.id < c.flows.nextId := by
  obtain ⟨cleaned, hs⟩ := h.sound
  apply hs.accounts.fresh
  rw [h.flows] at hf
  simpa [Interleaving.contexts] using hf

/-- Jobs have different flows. -/
theorem context_ne (h : Kept d c log) {i j : Nat} (hi : c.flows.jobs[i]? = some t)
    (hj : c.flows.jobs[j]? = some u) (hne : i ≠ j) : t.context.id ≠ u.context.id := by
  intro hid
  have hd := h.distinct
  rw [h.flows, List.map_map] at hd
  have hlen : i < (c.flows.jobs.map (Context.id ∘ Job.context)).length := by
    rw [List.length_map]
    exact (List.getElem?_eq_some_iff.mp hi).1
  exact hne ((List.getElem?_inj hlen hd).mp (by simp [hi, hj, hid]))

theorem id_ne (h : Kept d c log) (ht : t ∈ c.flows.jobs) (hu : u ∈ c.flows.jobs)
    (hne : t.context ≠ u.context) : t.context.id ≠ u.context.id := by
  obtain ⟨cleaned, hs⟩ := h.sound
  exact fun hid => hne (hs.accounts.eq_of_id (Interleaving.mem_contexts_of_job ht)
    (Interleaving.mem_contexts_of_job hu) hid)

/-- A live job has the resource of its flow for itself. -/
theorem openAlone (h : Kept d c log) (ht : t ∈ c.flows.jobs) (hl : t.isLive = true) :
    log.OpenAlone t.context := by
  obtain ⟨cleaned, hs⟩ := h.sound
  have hx : Interleaving.isExclusive ⟨c.flows, [], cleaned⟩ t.context = true := by
    simp [Interleaving.isExclusive, h.admission]
  have hreg := hs.registered (hs.mem_active ht hx hl)
  have hentry := (Registry.mem_of_flow? hreg).1
  refine ⟨⟨PlaneLog.mem_flows.mp (h.mem_flows ht), (h.follows t ht).registered.mpr hentry⟩, ?_⟩
  intro other hopen hid
  have hother : other ∈ c.flows.jobs.map Job.context := h.flows ▸ PlaneLog.mem_flows.mpr hopen.1
  obtain ⟨u, hu, rfl⟩ := List.mem_map.mp hother
  have he := hs.accounts.unique.eq ((h.follows u hu).registered.mp hopen.2) hentry hid
  exact hs.accounts.eq_of_id (Interleaving.mem_contexts_of_job hu)
    (Interleaving.mem_contexts_of_job ht) (congrArg Entry.id he)

/-- An operation fails and starts nothing, or its flow is registered and has a job. -/
theorem perform_cases (h : Kept d c log) (op : Operation) :
    (∃ e n, c.flows.nextId ≤ n ∧
      op.perform d c = (.error e, { c with flows := { c.flows with nextId := n } })) ∨
    ∃ r, op.perform d c = (.ok r, admitted c op.start) := by
  rw [Operation.perform_eq, Clusters.trigger]
  split
  next =>
    rw [dispatch_eq, Scheduler.start_eq]
    rcases Scheduler.claim_cases c.flows op.start with
      ⟨ha, _⟩ | ⟨ha, _⟩ | ⟨_, _, hc⟩ | ⟨_, _, hc⟩
    · cases (h.admission _).symm.trans ha
    · cases (h.admission _).symm.trans ha
    · refine .inl ⟨.flow (.admissionRejected op.start.resource.id), c.flows.nextId + 1,
        Nat.le_succ _, ?_⟩
      simp [hc, Scheduler.Claim.verdict, Scheduler.conclude]
    · refine .inr ⟨op.start.resource.withStatus op.start.selector.inProgress, ?_⟩
      simp [hc, Scheduler.Claim.verdict, Scheduler.conclude, Scheduler.granted,
        Scheduler.Claim.resolution, Resolution.grants, Scheduler.spawn, admitted]
  next => exact .inl ⟨_, c.flows.nextId, Nat.le_refl _, rfl⟩

theorem sound_perform (h : Kept d c log) (op : Operation) :
    ∃ cleaned, Interleaving.Sound ⟨(op.perform d c).2.flows, [], cleaned⟩ := by
  obtain ⟨cleaned, hs⟩ := h.sound
  refine ⟨cleaned, ?_⟩
  rw [Operation.perform_eq, Clusters.trigger]
  split
  next =>
    rw [dispatch_eq]
    have hstart := Scheduler.sound_start hs op.start d.plane.settings.dispatcherConfig.unwired true
    cases (c.flows.claim op.start).1.verdict op.start d.plane.settings.dispatcherConfig.unwired <;>
      exact hstart
  next => exact hs

/-- A flow that the log does not know. -/
theorem unknown_new (h : Kept d c log) (start : Start) :
    .released ⟨c.flows.nextId, start⟩ ∉ log ∧ .ran ⟨c.flows.nextId, start⟩ ∉ log ∧
      log.callsOf ⟨c.flows.nextId, start⟩ = [] := by
  have hnew : ⟨c.flows.nextId, start⟩ ∉ log.flows := fun hf => Nat.lt_irrefl _ (h.id_lt hf)
  exact ⟨fun hr => hnew (h.known _ (.inl hr)), fun hr => hnew (h.known _ (.inr (.inl hr))),
    PlaneLog.callsOf_eq_nil fun call hc => hnew (h.known _ (.inr (.inr ⟨call, hc⟩)))⟩

/-- A record that admits nothing, and only speaks of flows that were admitted. -/
def Plain (log : PlaneLog) : PlaneRecord → Prop
  | .answered _ (.ok _) | .admitted _ => False
  | .ran flow | .called flow _ | .released flow => flow ∈ log.flows
  | .watched call => ∃ r, call.2 = .status r
  | .answered _ (.error _) | .cancelled _ => True

theorem plain_of_isOf {flow : Context} (hf : flow ∈ log.flows) (hrs : ∀ r ∈ rs, r.IsOf flow) :
    ∀ r ∈ rs, Plain log r := by
  intro r hr
  have ho := hrs r hr
  cases r with
  | ran f | called f | released f =>
    cases ho
    exact hf
  | _ => cases ho

/-- An event that admits nothing. -/
theorem extend (h : Kept d c log) {e : Clocked σ StackCall}
    (plain : ∀ r ∈ rs, Plain log r) (handlers : e.flows.handlers = c.flows.handlers)
    (jobs : e.flows.jobs.map Job.context = c.flows.jobs.map Job.context)
    (sound : ∃ cleaned, Interleaving.Sound ⟨e.flows, [], cleaned⟩)
    (marked : ∀ id ∈ e.flows.marked, id < e.flows.nextId)
    (follows : ∀ t ∈ e.flows.jobs, Follows e (log ++ rs) t)
    (sequential : PlaneLog.Sequential (log ++ rs) e.now) : Kept d e (log ++ rs) := by
  have hflows : rs.flows = [] := by
    refine List.filterMap_eq_nil_iff.mpr fun r hr => ?_
    have hp := plain r hr
    cases r <;> first | rfl | cases hp
  have hsuccesses : rs.successes = [] := by
    refine List.filterMap_eq_nil_iff.mpr fun r hr => ?_
    have hp := plain r hr
    cases r with
    | answered op result =>
      cases result with
      | error => rfl
      | ok => cases hp
    | _ => rfl
  have hlog : PlaneLog.flows (log ++ rs) = log.flows := by
    rw [PlaneLog.flows_append, hflows, List.append_nil]
  have hops : PlaneLog.successes (log ++ rs) = log.successes := by
    rw [PlaneLog.successes_append, hsuccesses, List.append_nil]
  refine ⟨fun kind => by rw [handlers, h.handler], sound, marked, by rw [hlog, h.flows, jobs],
    by rw [hlog, hops, h.starts], follows, ?_, ?_, sequential⟩
  · intro flow hf
    rw [hlog]
    simp only [List.mem_append] at hf
    rcases hf with (hf | hf) | (hf | hf) | ⟨call, hf | hf⟩
    · exact h.known _ (.inl hf)
    · exact plain _ hf
    · exact h.known _ (.inr (.inl hf))
    · exact plain _ hf
    · exact h.known _ (.inr (.inr ⟨call, hf⟩))
    · exact plain _ hf
  · intro call hc
    rcases List.mem_append.mp hc with hc | hc
    · exact h.watched call hc
    · exact plain _ hc

/-- A flow that is admitted is new to the log, to the registry and to the marks. -/
theorem follows_admitted (h : Kept d c log) {op : Operation} {r : Resource} :
    ∀ t ∈ (admitted c op.start).flows.jobs,
      Follows (admitted c op.start)
        (log ++ [.answered op (.ok r), .admitted ⟨c.flows.nextId, op.start⟩]) t := by
  intro t ht
  rcases List.mem_append.mp ht with ht | ht
  · refine (h.follows t ht).append (by simp) (by simp) ?_ (List.append_nil _) fun _ => .inl
    have hne : Entry.ofContext t.context ≠ .ofContext ⟨c.flows.nextId, op.start⟩ := by
      intro he
      exact Nat.ne_of_lt (h.id_lt (h.mem_flows ht)) (congrArg Entry.id he)
    simp [admitted, hne]
  · cases List.mem_singleton.mp ht
    obtain ⟨hreleased, hran, hcalls⟩ := h.unknown_new op.start
    refine ⟨by simp [admitted, hreleased], ?_, by simp [hran], fun hc => ?_⟩
    · rw [PlaneLog.callsOf_append, hcalls]
      rfl
    · exact absurd (h.marked _ (List.contains_iff_mem.mp hc)) (Nat.lt_irrefl _)

theorem operate (h : Kept d c log) (op : Operation) :
    Kept d (d.step c (.operate op)) (log ++ d.records c (.operate op)) := by
  have hsound := h.sound_perform op
  rcases h.perform_cases op with ⟨e, n, hn, hp⟩ | ⟨r, hp⟩
  · have hrs : d.records c (.operate op) = [.answered op (.error e)] := by simp [records, hp]
    rw [hp] at hsound
    rw [hrs, Deployment.step, hp]
    refine h.extend (by simp [Plain]) rfl rfl hsound ?_ ?_ ?_
    · exact fun id hid => Nat.lt_of_lt_of_le (h.marked id hid) hn
    · intro t ht
      exact (h.follows t ht).append (by simp) (by simp) Iff.rfl (List.append_nil _) fun _ => .inl
    · exact h.sequential.append_uncalled (by simp)
  · have hrs : d.records c (.operate op) =
        [.answered op (.ok r), .admitted ⟨c.flows.nextId, op.start⟩] := by
      simp [records, hp, admitted]
    have hflows : PlaneLog.flows (log ++ d.records c (.operate op)) =
        log.flows ++ [⟨c.flows.nextId, op.start⟩] := by
      rw [PlaneLog.flows_append, hrs]
      rfl
    have hops : PlaneLog.successes (log ++ d.records c (.operate op)) = log.successes ++ [op] := by
      rw [PlaneLog.successes_append, hrs]
      rfl
    have hstep : d.step c (.operate op) = admitted c op.start := by
      rw [Deployment.step, hp]
    rw [hp] at hsound
    rw [hstep]
    refine ⟨h.handler, hsound, ?_, ?_, ?_, ?_, ?_, ?_, ?_⟩
    · exact fun id hid => Nat.lt_succ_of_lt (h.marked id hid)
    · simp [hflows, h.flows, admitted]
    · simp [hflows, hops, h.starts]
    · exact hrs ▸ h.follows_admitted
    · intro flow hf
      rw [hflows]
      exact List.mem_append_left _ (h.known flow (by simpa [hrs] using hf))
    · intro call hc
      exact h.watched call (by simpa [hrs] using hc)
    · exact h.sequential.append_uncalled (by simp [hrs])

/-- A cancellation marks the registered flow of a resource, if there is one. -/
theorem marked_cancel (m : Scheduler σ StackCall) (resourceId : String) :
    (m.cancel resourceId).marked = m.marked ∨
    ∃ e ∈ m.registry, e.resourceId = resourceId ∧
      (m.cancel resourceId).marked = m.marked ++ [e.id] := by
  unfold Scheduler.cancel
  split
  next e he =>
    obtain ⟨hmem, hid⟩ := Registry.mem_of_flow? he
    exact .inr ⟨e, hmem, hid, rfl⟩
  next => exact .inl rfl

theorem cancel (h : Kept d c log) (r : Resource) :
    Kept d (d.step c (.cancel r)) (log ++ d.records c (.cancel r)) := by
  obtain ⟨cleaned, hs⟩ := h.sound
  refine h.extend (by simp [records, Plain]) (Scheduler.handlers_cancel r.id)
    (by simp [Deployment.step]) ⟨cleaned, hs.cancel r.id⟩ ?_ ?_ ?_
  · intro id hid
    simp only [Deployment.step, Scheduler.nextId_cancel] at hid ⊢
    rcases marked_cancel c.flows r.id with hm | ⟨e, he, _, hm⟩ <;> rw [hm] at hid
    · exact h.marked id hid
    · rcases List.mem_append.mp hid with hid | hid
      · exact h.marked id hid
      · cases List.mem_singleton.mp hid
        exact hs.accounts.id_lt he
  · intro t ht
    simp only [Deployment.step, Scheduler.jobs_cancel] at ht
    refine (h.follows t ht).append (by simp [records]) (by simp [records])
      (by simp [Deployment.step]) (List.append_nil _) fun hran hc => ?_
    simp only [Deployment.step, Scheduler.isCancelled] at hc ⊢
    rcases marked_cancel c.flows r.id with hm | ⟨e, he, hid, hm⟩ <;> rw [hm] at hc
    · exact .inl hc
    · rw [List.contains_iff_mem, List.mem_append, List.mem_singleton] at hc
      rcases hc with hc | hc
      · exact .inl (List.contains_iff_mem.mpr hc)
      · -- The marked entry is that of the job, so the resource is that of its flow.
        have hown := hs.accounts.own (Interleaving.mem_contexts_of_job ht) e he hc.symm
        exact .inr ⟨log, [], by simp [records, ← hown, hid],
          PlaneLog.mem_flows.mp (h.mem_flows ht), hran⟩
  · exact h.sequential.append_uncalled (by simp [records])

theorem watch (h : Kept d c log) (r : Resource) :
    Kept d (d.step c (.watch r)) (log ++ d.records c (.watch r)) := by
  refine h.extend ?_ rfl rfl h.sound h.marked ?_ ?_
  · intro x hx
    obtain ⟨t, _, rfl⟩ := List.mem_map.mp hx
    exact ⟨r, rfl⟩
  · intro t ht
    refine (h.follows t ht).append (by simp [records]) (by simp [records]) Iff.rfl ?_
      fun _ => .inl
    rw [PlaneLog.callsOf_eq_nil (by simp [records]), List.append_nil]
    rfl
  · exact h.sequential.append_uncalled (by simp [records])

theorem pass (h : Kept d c log) (ms : Nat) :
    Kept d (d.step c (.pass ms)) (log ++ d.records c (.pass ms)) := by
  have hle : c.now ≤ c.now + ms := Nat.le_add_right c.now ms
  have hmem : ∀ r ∈ d.records c (.pass ms), ∃ t ∈ c.flows.jobs,
      r ∈ made t t c.now (c.now + ms) ∧ ∃ call, r = .called t.context call := by
    intro r hr
    obtain ⟨t, ht, hr⟩ := List.mem_flatMap.mp hr
    exact ⟨t, ht, hr, mem_made hr⟩
  have hquiet : (d.records c (.pass ms)).Quiet := by
    intro flow
    constructor <;> intro hr <;> obtain ⟨_, _, _, _, hc⟩ := hmem _ hr <;> cases hc
  have hran : ∀ flow, .ran flow ∉ d.records c (.pass ms) := by
    intro flow hr
    obtain ⟨_, _, _, _, hc⟩ := hmem _ hr
    cases hc
  refine h.extend ?_ rfl rfl h.sound h.marked ?_ ?_
  · intro r hr
    obtain ⟨t, ht, _, call, rfl⟩ := hmem r hr
    exact h.mem_flows ht
  · intro t ht
    refine (h.follows t ht).append (hquiet _).2 (hran _) Iff.rfl ?_ fun _ => .inl
    have hd : (c.flows.jobs.map Job.context).Nodup := h.flows ▸ h.distinct.of_map
    rw [records, callsOf_made_all hd ht]
    exact ((h.follows t ht).progress.grows hle).calls
  · refine h.sequential.append_alone hquiet hle fun flow call hr => ?_
    obtain ⟨t, ht, hr, _, hc⟩ := hmem _ hr
    cases hc
    exact ⟨h.openAlone ht (isLive_of_mem_made hr),
      ((h.follows t ht).progress.grows hle).between hr⟩

/-- A job that runs has its course now, or has stopped before that. -/
theorem progressed_work (h : Kept d c log) (first : Branch) (ht : t ∈ c.flows.jobs)
    (hl : t.isLive = true) (m : Scheduler σ StackCall) :
    Extends t (c.flows.runJob first t c.now).1 c.now c.now ∧ ∀ rs, .ran t.context ∈ rs →
      Progressed m (log ++ rs) (c.flows.runJob first t c.now).1 := by
  have hp := (h.follows t ht).progress
  have hran (rs : PlaneLog) (hr : .ran t.context ∈ rs) : .ran t.context ∈ log ++ rs :=
    List.mem_append_right _ hr
  rcases Scheduler.runJob_cases hl (h.handler t.context.start.selector) first c.now with
    ⟨hready, hcancelled, hu⟩ | ⟨begun, course, hcourse, hu⟩
  · rw [hu]
    rw [Progressed, hready] at hp
    exact ⟨⟨[], by simp [Job.calls, hready], by simp⟩,
      fun rs hr => ⟨hran rs hr, .inr ⟨rfl, (hp.2 hcancelled).append⟩⟩⟩
  · obtain ⟨hfaithful, more, hcalls, hbounds⟩ : Stack.Faithful t.context.start begun course ∧
        ∃ more, (course c.now).calls = t.calls c.now ++ more ∧
          ∀ x ∈ more, c.now ≤ x.1 ∧ x.1 ≤ c.now := by
      rcases hcourse with hlive | ⟨hready, rfl, rfl⟩
      · rw [Progressed, hlive] at hp
        exact ⟨hp.2, [], by simp [Job.calls, hlive], by simp⟩
      · have hf := Stack.faithful_begin d.clock d.plane.terms d.provisioner c.flows.world
          t.context c.now
        exact ⟨hf, _, by simp [Job.calls, hready], hf.timely c.now (Nat.le_refl _)⟩
    rcases hu with hu | ⟨finish, exit, hu⟩ <;> rw [hu]
    · exact ⟨⟨more, hcalls, hbounds⟩, fun rs hr => ⟨hran rs hr, hfaithful⟩⟩
    · exact ⟨⟨more, hcalls, hbounds⟩, fun rs hr => ⟨hran rs hr, .inl (hfaithful.asks c.now)⟩⟩

theorem follows_work (h : Kept d c log) {i : Nat} {first : Branch}
    (ht : c.flows.jobs[i]? = some t) (hl : t.isLive = true) :
    ∀ u ∈ (d.step c (.work i first)).flows.jobs,
      Follows (d.step c (.work i first)) (log ++ d.records c (.work i first)) u := by
  have hj : t ∈ c.flows.jobs := List.mem_of_getElem? ht
  intro u hu
  rw [Deployment.step, Scheduler.work_live ht hl] at hu ⊢
  obtain ⟨j, hu⟩ := List.mem_iff_getElem?.mp hu
  by_cases hij : i = j
  · subst hij
    rw [List.getElem?_set_self (List.getElem?_eq_some_iff.mp ht).1] at hu
    cases hu
    have hc : (c.flows.runJob first t c.now).1.context = t.context :=
      Scheduler.context_runJob first t c.now
    rw [records_work ht hl]
    obtain ⟨hextends, hprogress⟩ := h.progressed_work first hj hl _
    refine ⟨?_, ?_, hprogress _ List.mem_cons_self⟩
    · rw [hc, List.mem_append, not_or, and_iff_left (quiet_ran_made c.now c.now _).2]
      exact (h.follows t hj).registered
    · rw [hc, PlaneLog.callsOf_append, (h.follows t hj).calls]
      exact hextends.calls
  · rw [List.getElem?_set_ne hij] at hu
    have hne : u.context ≠ t.context := fun hc => h.context_ne ht hu hij (congrArg _ hc.symm)
    exact (h.follows u (List.mem_of_getElem? hu)).apart (isOf_work ht) hne Iff.rfl rfl rfl

theorem work (h : Kept d c log) (i : Nat) (first : Branch) :
    Kept d (d.step c (.work i first)) (log ++ d.records c (.work i first)) := by
  rcases c.flows.live_or_over i with ⟨t, ht, hl⟩ | hover
  · have hj : t ∈ c.flows.jobs := List.mem_of_getElem? ht
    obtain ⟨cleaned, hs⟩ := h.sound
    refine h.extend (plain_of_isOf (h.mem_flows hj) (isOf_work ht)) Scheduler.handlers_work
      Scheduler.contexts_work ⟨cleaned, hs.work i first c.now⟩ ?_ (h.follows_work ht hl) ?_
    · rw [Deployment.step, Scheduler.work_live ht hl]
      exact h.marked
    · rw [records_work ht hl]
      obtain ⟨hextends, _⟩ := h.progressed_work first hj hl c.flows
      refine h.sequential.append_alone (quiet_ran_made c.now c.now) (Nat.le_refl c.now) ?_
      intro flow call hr
      have hr := (List.mem_cons.mp hr).resolve_left PlaneRecord.noConfusion
      obtain ⟨_, hc⟩ := mem_made hr
      cases hc
      exact ⟨h.openAlone hj hl, hextends.between hr⟩
  · have hrs : d.records c (.work i first) = [] := by
      cases ht : c.flows.jobs[i]? with
      | none => simp [records, ht]
      | some t => simp [records, ht, hover t ht]
    rw [hrs, List.append_nil, Deployment.step, Scheduler.work_over hover]
    exact h

theorem registry_release (h : Kept d c log) (ht : t ∈ c.flows.jobs) :
    (c.flows.release t.context).registry = c.flows.registry.filter (·.id != t.context.id) := by
  obtain ⟨cleaned, hs⟩ := h.sound
  exact Registry.release_eq_filter hs.accounts.unique
    (hs.accounts.own (Interleaving.mem_contexts_of_job ht))

theorem follows_cleanUp (h : Kept d c log) {i : Nat} (ht : c.flows.jobs[i]? = some t)
    (he : t.hasExited = true) :
    ∀ u ∈ c.flows.jobs, Follows { c with flows := c.flows.release t.context }
      (log ++ d.records c (.cleanUp i)) u := by
  have hj : t ∈ c.flows.jobs := List.mem_of_getElem? ht
  have hregistry := h.registry_release hj
  intro u hu
  have hf := h.follows u hu
  by_cases hut : u.context = t.context
  · have hran : .ran u.context ∉ d.records c (.cleanUp i) := fun hr => by cases mem_cleanUp ht _ hr
    have hcalls : PlaneLog.callsOf (d.records c (.cleanUp i)) u.context = [] :=
      PlaneLog.callsOf_eq_nil fun _ hr => by cases mem_cleanUp ht _ hr
    have hgone : .ofContext t.context ∉ (c.flows.release t.context).registry := by
      simp [hregistry, Entry.ofContext]
    have hreleased : .released t.context ∈ log ++ d.records c (.cleanUp i) := by
      by_cases hentry : .ofContext t.context ∈ c.flows.registry
      · refine List.mem_append_right _ ?_
        simp [records, ht, hentry, Scheduler.cleanUp_eq, he, hgone]
      · have hbefore := mt (h.follows t hj).registered.mp hentry
        exact List.mem_append_left _ (not_not.mp hbefore)
    refine ⟨?_, ?_, hf.progress.append hran fun _ => .inl⟩
    · rw [hut]
      exact iff_of_false (not_not_intro hreleased) hgone
    · rw [PlaneLog.callsOf_append, hcalls, List.append_nil, hf.calls]
  · have hid : u.context.id ≠ t.context.id := h.id_ne hu hj hut
    exact hf.apart (isOf_cleanUp ht) hut (by simp [hregistry, Entry.ofContext, hid]) rfl rfl

theorem cleanUp (h : Kept d c log) (i : Nat) :
    Kept d (d.step c (.cleanUp i)) (log ++ d.records c (.cleanUp i)) := by
  cases ht : c.flows.jobs[i]? with
  | none => simpa [Deployment.step, records, ht] using h
  | some t =>
    cases he : t.hasExited with
    | false => simpa [Deployment.step, records, ht, Scheduler.cleanUp_eq, he] using h
    | true =>
      have hj : t ∈ c.flows.jobs := List.mem_of_getElem? ht
      obtain ⟨cleaned, hs⟩ := h.sound
      have hsound := hs.cleanUp hj he
      rw [Interleaving.cleanUp, Scheduler.cleanUp_eq, if_pos he] at hsound
      have hstep : d.step c (.cleanUp i) = { c with flows := c.flows.release t.context } := by
        simp [Deployment.step, ht, Scheduler.cleanUp_eq, he]
      rw [hstep]
      refine h.extend (plain_of_isOf (h.mem_flows hj) (isOf_cleanUp ht)) rfl rfl ⟨_, hsound⟩
        h.marked (h.follows_cleanUp ht he) ?_
      exact h.sequential.append_uncalled fun _ _ hr => by cases mem_cleanUp ht _ hr

theorem step (h : Kept d c log) (e : PlaneEvent) :
    Kept d (d.step c e) (log ++ d.records c e) := by
  cases e with
  | operate op => exact h.operate op
  | cancel r => exact h.cancel r
  | watch r => exact h.watch r
  | pass ms => exact h.pass ms
  | work i first => exact h.work i first
  | cleanUp i => exact h.cleanUp i

theorem run (h : Kept d c log) (es : List PlaneEvent) :
    Kept d (d.after c es) (log ++ d.log c es) := by
  induction es generalizing c log with
  | nil => simpa [after, Deployment.log] using h
  | cons e es ih => simpa [after, Deployment.log] using ih (h.step e)

theorem start (d : Deployment σ) (world : σ) : Kept d (d.start world).clocked [] where
  handler _ := rfl
  sound := ⟨[], Interleaving.sound_initial _ world⟩
  marked := by simp [Deployment.start, Plane.scheduler]
  flows := rfl
  starts := rfl
  follows := by simp [Deployment.start, Plane.scheduler]
  known := by simp
  watched := by simp
  sequential := PlaneLog.sequential_nil _

/-- The job of a flow has done for an operation what its start asks for. -/
theorem serves (h : Kept d c log) {op : Operation} (ht : t ∈ c.flows.jobs)
    (hop : t.context.start = op.start) : log.Serves op t.context := by
  have hf := h.follows t ht
  have hp := hf.progress
  have hasks : ∀ begun calls, Stack.Asks t.context.start begun calls →
      ∃ looks : List Instant, calls = (begun, .request op.resource op.request) ::
        looks.map fun t => (t, .status op.resource) := by
    rintro begun calls ⟨looks, rfl⟩
    exact ⟨looks, by rw [hop, op.resource_start, op.request_start]⟩
  rw [PlaneLog.Serves, hf.calls]
  unfold Progressed at hp
  unfold Job.calls
  split at hp
  next hphase => exact ⟨fun _ => by simp [hphase], fun hran => absurd hran hp.1⟩
  next begun course hphase =>
    refine ⟨fun hran => absurd hp.1 hran, fun _ => .inl ⟨begun, ?_⟩⟩
    simpa [hphase] using hasks begun _ (hp.2.asks c.now)
  next begun _ calls _ hphase =>
    refine ⟨fun hran => absurd hp.1 hran, fun _ => ?_⟩
    rcases hp.2 with hc | ⟨hc, hearly⟩
    · exact .inl ⟨begun, by simpa [hphase] using hasks begun calls hc⟩
    · exact .inr ⟨by simp [hphase, hc], hearly⟩

theorem attributed (h : Kept d c log) : log.Attributed where
  distinct := h.distinct
  starts := h.starts
  serves := by
    rintro ⟨op, flow⟩ hp
    obtain ⟨i, hi⟩ := List.mem_iff_getElem?.mp hp
    obtain ⟨hop, hflow⟩ := List.getElem?_zip_eq_some.mp hi
    have hstart := congrArg (·[i]?) h.starts
    simp only [List.getElem?_map, hop, hflow, Option.map_some, Option.some.injEq] at hstart
    obtain ⟨t, ht, rfl⟩ := List.mem_map.mp (h.flows ▸ List.mem_of_getElem? hflow)
    exact h.serves ht hstart
  called flow call hc := h.known flow (.inr (.inr ⟨call, hc⟩))
  watched := h.watched

theorem isRunning_iff (h : Kept d c log) (resourceId : String) :
    c.flows.isRunning resourceId = true ↔
      ∃ flow, log.Open flow ∧ flow.start.resource.id = resourceId := by
  obtain ⟨cleaned, hs⟩ := h.sound
  rw [Scheduler.isRunning, Registry.isRunning_iff]
  constructor
  · rintro ⟨e, he, rfl⟩
    obtain ⟨flow, hflow, _, rfl⟩ := hs.accounts.mem_iff.mp he
    obtain ⟨t, ht, rfl⟩ := List.mem_map.mp (show flow ∈ c.flows.jobs.map Job.context by
      simpa [Interleaving.contexts] using hflow)
    exact ⟨t.context, ⟨PlaneLog.mem_flows.mp (h.mem_flows ht),
      (h.follows t ht).registered.mpr he⟩, rfl⟩
  · rintro ⟨flow, hopen, rfl⟩
    have hflow : flow ∈ c.flows.jobs.map Job.context := h.flows ▸ PlaneLog.mem_flows.mpr hopen.1
    obtain ⟨t, ht, rfl⟩ := List.mem_map.mp hflow
    exact ⟨_, (h.follows t ht).registered.mp hopen.2, rfl⟩

end Kept

/-- Whatever operations, cancellations and waits a plane goes through, and however its jobs run
meanwhile: every call of a flow belongs to one operation that has succeeded, and asks for what that
operation says, on its resource. Whoever calls is the only open flow of its resource, so the calls
of two flows of one resource never interleave. The open flows are those that are registered.
`run_exclusive` says this of runs in steps. -/
theorem flows_exclusive (d : Deployment σ) (world : σ) (es : List PlaneEvent) :
    let log := d.log (d.start world).clocked es
    log.Attributed ∧ log.Exclusive ∧ log.Timely ∧
      (∀ (a b e f : PlaneLog) flow other x y z,
        log = a ++ .called flow x :: b ++ .called other y :: e ++ .called flow z :: f →
          other.start.resource.id = flow.start.resource.id → other = flow) ∧
      ∀ resourceId, (d.after (d.start world).clocked es).flows.isRunning resourceId = true ↔
        ∃ flow, log.Open flow ∧ flow.start.resource.id = resourceId := by
  have h : Kept d (d.after (d.start world).clocked es) (d.log (d.start world).clocked es) :=
    (Kept.start d world).run es
  exact ⟨h.attributed, h.sequential.exclusive, h.sequential.timely,
    fun _ _ _ _ _ _ _ _ _ heq hid => h.sequential.exclusive.apart heq hid, h.isRunning_iff⟩

end Deployment

end ClusterControl
