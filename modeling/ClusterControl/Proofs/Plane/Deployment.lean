import ClusterControl.Proofs.Plane.Exclusive
import Mathlib.Data.List.Perm.Basic

/-!
# The events of a deployment

A run of a deployment settles after each step: every job that can run does, in turn, and cleans up.
So it is one of the orders in which the events of a plane may come, and its log has the results of
the operations and all calls to the provisioner. `run_exclusive` carries over to it what holds of
every order.
-/

namespace ClusterControl

open ClusterControl.Flow

/-- A list is put together again from its parts by a key. -/
theorem perm_flatMap_filter {α κ : Type} [DecidableEq κ] (key : α → κ) {keys : List κ}
    (hk : keys.Nodup) {l : List α} (h : ∀ a ∈ l, key a ∈ keys) :
    (keys.flatMap fun k => l.filter fun a => key a = k).Perm l := by
  induction keys generalizing l with
  | nil =>
    rw [List.eq_nil_iff_forall_not_mem.mpr fun a ha => List.not_mem_nil (h a ha)]
    rfl
  | cons k keys ih =>
    obtain ⟨hnew, hk⟩ := List.nodup_cons.mp hk
    have hrest : ∀ a ∈ l.filter (fun a => !decide (key a = k)), key a ∈ keys := by
      intro a ha
      obtain ⟨ha, hne⟩ := List.mem_filter.mp ha
      exact (List.mem_cons.mp (h a ha)).resolve_left (by simpa using hne)
    have hsame : keys.flatMap (fun j => (l.filter fun a => !decide (key a = k)).filter
        fun a => key a = j) = keys.flatMap fun j => l.filter fun a => key a = j := by
      refine List.flatMap_congr fun j hj => ?_
      rw [List.filter_filter]
      refine List.filter_congr fun a _ => ?_
      have hne : j ≠ k := fun hjk => hnew (hjk ▸ hj)
      by_cases hkey : key a = j <;> simp [hkey, hne]
    rw [List.flatMap_cons]
    exact ((hsame ▸ ih hk hrest).append_left _).trans (List.filter_append_perm _ l)

namespace PlaneStep

def operation? : PlaneStep → Option Operation
  | create r user => some (.create r user)
  | repair r user request => some (.repair r user request)
  | delete r user => some (.delete r user)
  | _ => none

/-- Whether a step starts flows only by operations. -/
def isGuarded : PlaneStep → Bool
  | flow (.trigger _) | flow (.triggerAll _) | flow (.publishDeparted _) => false
  | _ => true

def answer? (step : PlaneStep) : PlaneReport → Option (Operation × Except PlaneError Resource)
  | .resource result => step.operation?.map (·, result)
  | _ => none

end PlaneStep

def PlaneEvent.isInner : PlaneEvent → Bool
  | pass _ | work .. | cleanUp _ => true
  | _ => false

namespace PlaneLog

def answers (log : PlaneLog) : List (Operation × Except PlaneError Resource) :=
  log.filterMap fun
    | .answered op result => some (op, result)
    | _ => none

def flowCalls (log : PlaneLog) : List (Context × Instant × StackCall) :=
  log.filterMap fun
    | .called flow call => some (flow, call)
    | _ => none

def waitCalls (log : PlaneLog) : List (Instant × StackCall) :=
  log.filterMap fun
    | .watched call => some call
    | _ => none

def calls (log : PlaneLog) : List (Instant × StackCall) :=
  log.filterMap fun
    | .called _ call | .watched call => some call
    | _ => none

variable {log rs : PlaneLog}

theorem answers_append : answers (log ++ rs) = log.answers ++ rs.answers := List.filterMap_append

theorem waitCalls_append : waitCalls (log ++ rs) = log.waitCalls ++ rs.waitCalls :=
  List.filterMap_append

structure Shows (log : PlaneLog) (answers : List (Operation × Except PlaneError Resource))
    (waitCalls : List (Instant × StackCall)) : Prop where
  answers : log.answers = answers
  waitCalls : log.waitCalls = waitCalls

theorem Shows.append {as bs : List (Operation × Except PlaneError Resource)}
    {xs ys : List (Instant × StackCall)} (h : log.Shows as xs) (hrs : rs.Shows bs ys) :
    Shows (log ++ rs) (as ++ bs) (xs ++ ys) where
  answers := by rw [answers_append, h.answers, hrs.answers]
  waitCalls := by rw [waitCalls_append, h.waitCalls, hrs.waitCalls]

theorem callsOf_eq (flow : Context) :
    log.callsOf flow = (log.flowCalls.filter fun x => x.1 = flow).map Prod.snd := by
  induction log with
  | nil => rfl
  | cons r log ih =>
    cases r with
    | called f call =>
      by_cases hf : f = flow <;> simpa [callsOf, flowCalls, hf] using ih
    | _ => exact ih

theorem calls_perm_flowCalls :
    log.calls.Perm (log.flowCalls.map Prod.snd ++ log.waitCalls) := by
  induction log with
  | nil => exact List.Perm.refl _
  | cons r log ih =>
    cases r with
    | called f call => exact ih.cons call
    | watched call => exact (ih.cons call).trans List.perm_middle.symm
    | _ => exact ih

/-- The calls of a log are those of its flows, flow by flow, and those of the waits. -/
theorem calls_perm {flows : List Context} (distinct : flows.Nodup)
    (h : ∀ flow call, .called flow call ∈ log → flow ∈ flows) :
    log.calls.Perm (flows.flatMap log.callsOf ++ log.waitCalls) := by
  have hmem : ∀ x ∈ log.flowCalls, x.1 ∈ flows := by
    rintro ⟨flow, call⟩ hx
    obtain ⟨r, hr, hrx⟩ := List.mem_filterMap.mp hx
    cases r with
    | called f x =>
      obtain ⟨rfl, rfl⟩ : f = flow ∧ x = call := by simpa using hrx
      exact h f x hr
    | _ => cases hrx
  have hflows : (flows.flatMap log.callsOf).Perm (log.flowCalls.map Prod.snd) := by
    have hparts := (perm_flatMap_filter Prod.fst distinct hmem).map Prod.snd
    rw [List.map_flatMap] at hparts
    rwa [show log.callsOf = _ from funext callsOf_eq]
  exact calls_perm_flowCalls.trans (hflows.symm.append_right _)

end PlaneLog

namespace PlaneState

variable {σ : Type}

theorem calls_perm (s : PlaneState σ) :
    s.calls.Perm (s.clocked.flows.jobs.flatMap (Job.calls · s.clocked.now) ++
      (List.range (s.clocked.flows.jobs.length + 1)).flatMap s.waitCalls) := by
  let jobs := s.clocked.flows.jobs
  have hcalls : (jobs.zipIdx.flatMap fun x => x.1.calls s.clocked.now) =
      jobs.flatMap (Job.calls · s.clocked.now) := by
    conv_rhs => rw [← List.zipIdx_map_fst 0 jobs, List.flatMap_map]
  have hwaits : (jobs.zipIdx.flatMap fun x => s.waitCalls x.2) =
      (List.range jobs.length).flatMap s.waitCalls := by
    rw [List.range_eq_range', ← List.zipIdx_map_snd, List.flatMap_map]
  have hparts := (List.flatMap_append_perm jobs.zipIdx (fun x => s.waitCalls x.2)
    (fun x => x.1.calls s.clocked.now)).symm
  rw [hcalls, hwaits] at hparts
  rw [List.range_succ, List.flatMap_append, List.flatMap_singleton, ← List.append_assoc]
  exact (List.mergeSort_perm _ _).trans ((hparts.trans List.perm_append_comm).append_right _)

theorem waitCalls_perm {s : PlaneState σ} {n : Nat} (h : ∀ w ∈ s.waits, w.flows ≤ n) :
    ((List.range (n + 1)).flatMap s.waitCalls).Perm (s.waits.flatMap Wait.calls) := by
  have hkeys : ∀ w ∈ s.waits, w.flows ∈ List.range (n + 1) :=
    fun w hw => List.mem_range.mpr (Nat.lt_succ_of_le (h w hw))
  have hparts := (perm_flatMap_filter Wait.flows List.nodup_range hkeys).flatMap_right Wait.calls
  rw [List.flatMap_assoc] at hparts
  exact hparts

end PlaneState

namespace Deployment

variable {σ : Type} {d : Deployment σ} {c : Clocked σ StackCall}

def turns (i : Nat) : List (Job StackCall) → List PlaneEvent
  | [] => []
  | t :: rest => (if t.isLive then [.work i .cancel, .cleanUp i] else []) ++ turns (i + 1) rest

def settling (c : Clocked σ StackCall) : List PlaneEvent := turns 0 c.flows.jobs

def passing (c : Clocked σ StackCall) (t : Instant) : List PlaneEvent :=
  settling c ++ .pass (t - c.now) :: settling { c.settle with now := t }

def operating (d : Deployment σ) (c : Clocked σ StackCall) (op : Operation) : List PlaneEvent :=
  .operate op :: settling (op.perform d c).2

def untilEnd (c : Clocked σ StackCall) : Option (Instant × Poll.Ending Unit) → List PlaneEvent
  | some (t, _) => passing c t
  | none => []

/-- The poll of a wait that begins now. -/
abbrev poll (d : Deployment σ) (c : Clocked σ StackCall) (r : Resource) : Poll.Report Unit :=
  Clusters.watchRepair d.clock d.plane.terms d.provisioner c.flows.world r c.now

def waiting (d : Deployment σ) (c : Clocked σ StackCall) (r : Resource) : List PlaneEvent :=
  settling c ++ .watch r :: untilEnd c.settle (d.poll c.settle r).ending

/-- The events of a guarded step. -/
def eventsOf (d : Deployment σ) (c : Clocked σ StackCall) : PlaneStep → List PlaneEvent
  | .create r user => d.operating c (.create r user)
  | .delete r user => d.operating c (.delete r user)
  | .repair r user request => d.operating c (.repair r user request)
  | .waitForRepair r => d.waiting c r
  | .flow (.cancel r true) => .cancel r :: settling { c with flows := c.flows.cancel r.id }
  | .flow (.cancel r false) => [.cancel r]
  | .flow (.advance ms) => passing c (.wake c.now ms)
  | .flow _ | .credential _ => settling c

theorem after_append (es fs : List PlaneEvent) :
    d.after c (es ++ fs) = d.after (d.after c es) fs := List.foldl_append

theorem log_append (es fs : List PlaneEvent) :
    d.log c (es ++ fs) = d.log c es ++ d.log (d.after c es) fs := by
  induction es generalizing c with
  | nil => rfl
  | cons e es ih => simp [Deployment.log, ih, after]

/-- A turn of a job leaves the jobs after it as they are. -/
theorem after_turn {m : Scheduler σ StackCall} {t : Job StackCall} (hl : t.isLive = true)
    (before rest : List (Job StackCall)) (now : Instant) :
    d.after ⟨now, { m with jobs := before ++ t :: rest }⟩
        [.work before.length .cancel, .cleanUp before.length] =
      ⟨now, { ({ m with world := (m.runJob .cancel t now).2 } : Scheduler σ StackCall).cleanUp
          (m.runJob .cancel t now).1 with
        jobs := before ++ (m.runJob .cancel t now).1 :: rest }⟩ := by
  have ht : (before ++ t :: rest)[before.length]? = some t := by simp
  have hwork : d.step ⟨now, { m with jobs := before ++ t :: rest }⟩ (.work before.length .cancel) =
      ⟨now, { m with
        jobs := before ++ (m.runJob .cancel t now).1 :: rest
        world := (m.runJob .cancel t now).2 }⟩ := by
    rw [Deployment.step, Scheduler.work_live ht hl]
    simp only [List.set_append_right _ _ (Nat.le_refl _), Nat.sub_self, List.set_cons_zero]
    rfl
  rw [after, List.foldl_cons, hwork]
  simp only [List.foldl_cons, List.foldl_nil, Deployment.step, List.getElem?_append_right
    (Nat.le_refl _), Nat.sub_self, List.getElem?_cons_zero, Scheduler.cleanUp_eq]
  split <;> rfl

theorem after_turns (m : Scheduler σ StackCall) (before rest : List (Job StackCall))
    (now : Instant) :
    d.after ⟨now, { m with jobs := before ++ rest }⟩ (turns before.length rest) =
      ⟨now, Scheduler.settleJobs .cancel now m before rest⟩ := by
  induction rest generalizing m before with
  | nil => simp [turns, after, Scheduler.settleJobs]
  | cons t rest ih =>
    cases hl : t.isLive with
    | false =>
      have h := ih m (before ++ [t])
      rw [List.length_append, List.append_assoc] at h
      simpa [turns, Scheduler.settleJobs, hl] using h
    | true =>
      have h := ih (({ m with world := (m.runJob .cancel t now).2 } :
        Scheduler σ StackCall).cleanUp (m.runJob .cancel t now).1)
        (before ++ [(m.runJob .cancel t now).1])
      rw [List.length_append, List.append_assoc] at h
      simp only [turns, hl, if_true, Scheduler.settleJobs, after_append, after_turn hl]
      exact h

theorem after_settling (c : Clocked σ StackCall) : d.after c (settling c) = c.settle :=
  after_turns c.flows [] c.flows.jobs c.now

theorem after_passing {t : Instant} (h : c.now ≤ t) :
    d.after c (passing c t) = c.passTo t := by
  have hnow : c.now + (t - c.now) = t := Nat.add_sub_of_le h
  have hstep : d.step c.settle (.pass (t - c.now)) = { c.settle with now := t } := by
    rw [Deployment.step, show c.settle.now = c.now from rfl, hnow]
  rw [passing, after_append, after_settling]
  exact (congrArg (d.after · _) hstep).trans (after_settling _)

theorem after_waiting (s : PlaneState σ) (r : Resource) :
    d.after s.clocked (d.waiting s.clocked r) = (d.wait s r).2.clocked := by
  rw [waiting, after_append, after_settling, wait]
  dsimp only
  cases hending : (d.poll s.clocked.settle r).ending with
  | none => rfl
  | some x =>
    obtain ⟨t, ending⟩ := x
    have hpass : d.after s.clocked.settle (.watch r :: untilEnd s.clocked.settle (some (t, ending)))
        = s.clocked.settle.passTo t := after_passing (Poll.le_run_ending hending)
    cases hr : Clusters.repaired? r ending <;> simpa [hr] using hpass

/-- The events of a guarded step lead to the state after it. -/
theorem after_eventsOf (s : PlaneState σ) {step : PlaneStep} (h : step.isGuarded = true) :
    d.after s.clocked (d.eventsOf s.clocked step) = (d.act s step).2.clocked := by
  cases step with
  | create r user => exact after_settling _
  | delete r user => exact after_settling _
  | repair r user request => exact after_settling _
  | credential step => exact after_settling _
  | waitForRepair r => exact after_waiting s r
  | flow step =>
    cases step with
    | cancel r settles =>
      cases settles with
      | true => exact after_settling _
      | false => rfl
    | advance ms => exact after_passing (Nat.le_add_right _ _)
    | isRunning ids => exact after_settling _
    | trigger | triggerAll | publishDeparted => cases h

theorem isOf_log_inner {es : List PlaneEvent} (h : ∀ e ∈ es, e.isInner = true) {r : PlaneRecord}
    (hr : r ∈ d.log c es) : ∃ flow, r.IsOf flow := by
  induction es generalizing c with
  | nil => cases hr
  | cons e es ih =>
    obtain ⟨he, hes⟩ := List.forall_mem_cons.mp h
    rcases List.mem_append.mp hr with hr | hr
    · cases e with
      | pass ms =>
        obtain ⟨t, _, hr⟩ := List.mem_flatMap.mp hr
        obtain ⟨call, rfl⟩ := mem_made hr
        exact ⟨t.context, rfl⟩
      | work i first =>
        cases ht : c.flows.jobs[i]? with
        | none => simp [records, ht] at hr
        | some t => exact ⟨t.context, isOf_work ht r hr⟩
      | cleanUp i =>
        cases ht : c.flows.jobs[i]? with
        | none => simp [records, ht] at hr
        | some t => exact ⟨t.context, isOf_cleanUp ht r hr⟩
      | _ => cases he
    · exact ih hes hr

theorem shows_inner {es : List PlaneEvent} (h : ∀ e ∈ es, e.isInner = true) :
    (d.log c es).Shows [] [] := by
  constructor <;>
  · refine List.filterMap_eq_nil_iff.mpr fun r hr => ?_
    obtain ⟨flow, ho⟩ := isOf_log_inner h hr
    cases r with
    | answered | watched => cases ho
    | _ => rfl

theorem shows_then_inner {log : PlaneLog} {answers : List (Operation × Except PlaneError Resource)}
    {calls : List (Instant × StackCall)} (h : log.Shows answers calls) {es : List PlaneEvent}
    (hes : ∀ e ∈ es, e.isInner = true) : (log ++ d.log c es : PlaneLog).Shows answers calls := by
  simpa using h.append (shows_inner hes)

theorem isInner_turns (i : Nat) (jobs : List (Job StackCall)) :
    ∀ e ∈ turns i jobs, e.isInner = true := by
  induction jobs generalizing i with
  | nil => simp [turns]
  | cons t rest ih =>
    refine List.forall_mem_append.mpr ⟨?_, ih (i + 1)⟩
    cases t.isLive <;> simp [PlaneEvent.isInner]

theorem isInner_settling (c : Clocked σ StackCall) : ∀ e ∈ settling c, e.isInner = true :=
  isInner_turns 0 c.flows.jobs

theorem isInner_passing (c : Clocked σ StackCall) (t : Instant) :
    ∀ e ∈ passing c t, e.isInner = true :=
  List.forall_mem_append.mpr
    ⟨isInner_settling c, List.forall_mem_cons.mpr ⟨rfl, isInner_settling _⟩⟩

theorem isInner_untilEnd (c : Clocked σ StackCall) (t : Option (Instant × Poll.Ending Unit)) :
    ∀ e ∈ untilEnd c t, e.isInner = true := by
  cases t with
  | none => exact List.forall_mem_nil _
  | some t => exact isInner_passing c t.1

theorem shows_operate (op : Operation) :
    (d.records c (.operate op)).Shows [(op, (op.perform d c).1)] [] where
  answers := by
    refine congrArg (_ :: ·) (Eq.trans List.filterMap_map ?_)
    exact List.filterMap_eq_nil_iff.mpr fun _ _ => rfl
  waitCalls := Eq.trans List.filterMap_map (List.filterMap_eq_nil_iff.mpr fun _ _ => rfl)

theorem shows_operating (op : Operation) :
    (d.log c (d.operating c op)).Shows [(op, (op.perform d c).1)] [] :=
  shows_then_inner (shows_operate op) (isInner_settling _)

theorem shows_watch (r : Resource) :
    (d.records c (.watch r)).Shows [] ((d.poll c r).starts.map fun t => (t, .status r)) where
  answers := Eq.trans List.filterMap_map (List.filterMap_eq_nil_iff.mpr fun _ _ => rfl)
  waitCalls := Eq.trans List.filterMap_map (congrFun List.filterMap_eq_map _)

theorem shows_waiting (r : Resource) :
    (d.log c (d.waiting c r)).Shows []
      ((d.poll c.settle r).starts.map fun t => (t, .status r)) := by
  rw [waiting, log_append, after_settling]
  exact (shows_inner (isInner_settling c)).append
    (shows_then_inner (shows_watch r) (isInner_untilEnd _ _))

theorem shows_cancel (r : Resource) {es : List PlaneEvent} (h : ∀ e ∈ es, e.isInner = true) :
    (d.log c (.cancel r :: es)).Shows [] [] :=
  shows_then_inner ⟨rfl, rfl⟩ h

theorem waits_wait (s : PlaneState σ) (r : Resource) :
    (d.wait s r).2.waits = s.waits ++ [⟨s.clocked.settle.flows.jobs.length,
      (d.poll s.clocked.settle r).starts.map fun t => (t, .status r)⟩] := by
  unfold wait
  dsimp only
  split
  next => split <;> rfl
  next => rfl

/-- The log of a guarded step has its answer, and the calls of its wait. -/
theorem shows_eventsOf (s : PlaneState σ) {step : PlaneStep} (h : step.isGuarded = true) :
    ∃ calls, (d.log s.clocked (d.eventsOf s.clocked step)).Shows
        (step.answer? (d.act s step).1).toList calls ∧
      (d.act s step).2.waits.flatMap Wait.calls = s.waits.flatMap Wait.calls ++ calls := by
  have hnone : s.waits.flatMap Wait.calls = s.waits.flatMap Wait.calls ++ [] :=
    (List.append_nil _).symm
  cases step with
  | create r user => exact ⟨_, shows_operating (.create r user), hnone⟩
  | delete r user => exact ⟨_, shows_operating (.delete r user), hnone⟩
  | repair r user request => exact ⟨_, shows_operating (.repair r user request), hnone⟩
  | credential step => exact ⟨_, shows_inner (isInner_settling _), hnone⟩
  | waitForRepair r =>
    have hanswer : (PlaneStep.waitForRepair r).answer? (d.wait s r).1 = none := by
      cases (d.wait s r).1 <;> rfl
    rw [act, hanswer, waits_wait, List.flatMap_append, List.flatMap_singleton]
    exact ⟨_, shows_waiting r, rfl⟩
  | flow step =>
    cases step with
    | cancel r settles =>
      cases settles with
      | true => exact ⟨_, shows_cancel r (isInner_settling _), hnone⟩
      | false => exact ⟨_, shows_cancel r (List.forall_mem_nil _), hnone⟩
    | advance ms => exact ⟨_, shows_inner (isInner_passing _ _), hnone⟩
    | isRunning ids => exact ⟨_, shows_inner (isInner_settling _), hnone⟩
    | trigger | triggerAll | publishDeparted => cases h

structure Recorded (d : Deployment σ) (s : PlaneState σ) (log : PlaneLog) : Prop where
  kept : Kept d s.clocked log
  waits : s.waits.flatMap Wait.calls = log.waitCalls
  early : ∀ w ∈ s.waits, w.flows ≤ s.clocked.flows.jobs.length

theorem Recorded.start (d : Deployment σ) (world : σ) : Recorded d (d.start world) [] where
  kept := Kept.start d world
  waits := rfl
  early := List.forall_mem_nil _

/-- Jobs are never forgotten. -/
theorem Kept.length_jobs_le {log : PlaneLog} (h : Kept d c log) (es : List PlaneEvent) :
    c.flows.jobs.length ≤ (d.after c es).flows.jobs.length := by
  have hflows := congrArg List.length (h.run es).flows
  rw [PlaneLog.flows_append, h.flows, List.length_append, List.length_map,
    List.length_map] at hflows
  exact hflows ▸ Nat.le_add_right _ _

/-- A wait counts the jobs that are there when it begins. -/
theorem early_wait {s : PlaneState σ} {log : PlaneLog} (h : Kept d s.clocked log) (r : Resource) :
    s.clocked.settle.flows.jobs.length ≤ (d.wait s r).2.clocked.flows.jobs.length := by
  have hsettled : Kept d s.clocked.settle (log ++ d.log s.clocked (settling s.clocked)) :=
    after_settling (d := d) s.clocked ▸ h.run _
  rw [← after_waiting, waiting, after_append, after_settling]
  exact hsettled.length_jobs_le _

theorem Recorded.step {s : PlaneState σ} {log : PlaneLog} (h : Recorded d s log)
    {step : PlaneStep} (hg : step.isGuarded = true) :
    Recorded d (d.act s step).2 (log ++ d.log s.clocked (d.eventsOf s.clocked step)) := by
  have hafter := after_eventsOf (d := d) s hg
  obtain ⟨calls, hshows, hwaits⟩ := shows_eventsOf (d := d) s hg
  refine ⟨hafter ▸ h.kept.run _, ?_, fun w hw => ?_⟩
  · rw [hwaits, h.waits, PlaneLog.waitCalls_append, hshows.waitCalls]
  · have hold (hw : w ∈ s.waits) : w.flows ≤ (d.act s step).2.clocked.flows.jobs.length :=
      Nat.le_trans (h.early w hw) (hafter ▸ h.kept.length_jobs_le _)
    cases step with
    | waitForRepair r =>
      rw [act, waits_wait] at hw
      rcases List.mem_append.mp hw with hw | hw
      · exact hold hw
      · cases List.mem_singleton.mp hw
        exact early_wait h.kept r
    | _ => exact hold hw

/-- The calls of a state are those in its log. -/
theorem Recorded.calls_perm {s : PlaneState σ} {log : PlaneLog} (h : Recorded d s log) :
    s.calls.Perm log.calls := by
  have hflows : log.flows.flatMap log.callsOf =
      s.clocked.flows.jobs.flatMap (Job.calls · s.clocked.now) := by
    rw [h.kept.flows, List.flatMap_map]
    exact List.flatMap_congr fun t ht => (h.kept.follows t ht).calls
  have hlog := PlaneLog.calls_perm h.kept.distinct.of_map
    fun flow call hc => h.kept.known flow (.inr (.inr ⟨call, hc⟩))
  rw [hflows, ← h.waits] at hlog
  exact ((PlaneState.calls_perm s).trans ((PlaneState.waitCalls_perm h.early).append_left _)).trans
    hlog.symm

/-- The events of a run in guarded steps. -/
def eventsOfRun (d : Deployment σ) (s : PlaneState σ) : List PlaneStep → List PlaneEvent
  | [] => []
  | step :: rest => d.eventsOf s.clocked step ++ eventsOfRun d (d.act s step).2 rest

def answersOf (steps : List PlaneStep) (reports : List (Instant × PlaneReport × Registry)) :
    List (Operation × Except PlaneError Resource) :=
  (steps.zip reports).filterMap fun (step, _, report, _) => step.answer? report

theorem answersOf_cons (step : PlaneStep) (steps : List PlaneStep)
    (x : Instant × PlaneReport × Registry) (reports : List (Instant × PlaneReport × Registry)) :
    answersOf (step :: steps) (x :: reports) =
      (step.answer? x.2.1).toList ++ answersOf steps reports := by
  rw [answersOf, List.zip_cons_cons, List.filterMap_cons]
  dsimp only
  split
  next h => rw [h]; rfl
  next h => rw [h]; rfl

theorem Recorded.run {s : PlaneState σ} {log : PlaneLog} (h : Recorded d s log)
    {steps : List PlaneStep} (hg : ∀ step ∈ steps, step.isGuarded = true) :
    d.after s.clocked (d.eventsOfRun s steps) = (d.run s steps).2.clocked ∧
    (d.log s.clocked (d.eventsOfRun s steps)).answers = answersOf steps (d.run s steps).1 ∧
    Recorded d (d.run s steps).2 (log ++ d.log s.clocked (d.eventsOfRun s steps)) := by
  induction steps generalizing s log with
  | nil => exact ⟨rfl, rfl, by simpa [eventsOfRun, Deployment.log, Deployment.run] using h⟩
  | cons step steps ih =>
    obtain ⟨hstep, hsteps⟩ := List.forall_mem_cons.mp hg
    obtain ⟨hafter, hanswers, hrecorded⟩ := ih (h.step hstep) hsteps
    obtain ⟨calls, hshows, _⟩ := shows_eventsOf (d := d) s hstep
    have hmid := after_eventsOf (d := d) s hstep
    rw [eventsOfRun, after_append, log_append, hmid, ← List.append_assoc]
    refine ⟨hafter, ?_, hrecorded⟩
    rw [PlaneLog.answers_append, hshows.answers, hanswers, Deployment.run, answersOf_cons]

/-- A run in guarded steps is a run of events: to the same state, with the same results of its
operations, and with the same calls to the provisioner. -/
theorem run_eq_events (d : Deployment σ) (world : σ) {steps : List PlaneStep}
    (h : ∀ step ∈ steps, step.isGuarded = true) :
    let es := d.eventsOfRun (d.start world) steps
    let log := d.log (d.start world).clocked es
    let run := d.run (d.start world) steps
    d.after (d.start world).clocked es = run.2.clocked ∧
      log.answers = answersOf steps run.1 ∧ run.2.calls.Perm log.calls := by
  obtain ⟨hafter, hanswers, hrecorded⟩ := (Recorded.start d world).run h
  exact ⟨hafter, hanswers, hrecorded.calls_perm⟩

/-- The flows of a run in guarded steps are exclusive as well. The log of its events has the results
of the run's operations and the run's calls. Every call of a flow belongs to one operation that has
succeeded, whoever calls is the only open flow of its resource, and at the end the open flows are
those that are registered. -/
theorem run_exclusive (d : Deployment σ) (world : σ) {steps : List PlaneStep}
    (h : ∀ step ∈ steps, step.isGuarded = true) :
    let log := d.log (d.start world).clocked (d.eventsOfRun (d.start world) steps)
    let run := d.run (d.start world) steps
    log.answers = answersOf steps run.1 ∧ run.2.calls.Perm log.calls ∧
      log.Attributed ∧ log.Exclusive ∧ log.Timely ∧
      (∀ (a b e f : PlaneLog) flow other x y z,
        log = a ++ .called flow x :: b ++ .called other y :: e ++ .called flow z :: f →
          other.start.resource.id = flow.start.resource.id → other = flow) ∧
      ∀ resourceId, run.2.clocked.flows.isRunning resourceId = true ↔
        ∃ flow, log.Open flow ∧ flow.start.resource.id = resourceId := by
  obtain ⟨hafter, hanswers, hcalls⟩ := d.run_eq_events world h
  have hk := (Kept.start d world).run (d.eventsOfRun (d.start world) steps)
  rw [hafter] at hk
  exact ⟨hanswers, hcalls, hk.attributed, hk.sequential.exclusive, hk.sequential.timely,
    fun _ _ _ _ _ _ _ _ _ heq hid => hk.sequential.exclusive.apart heq hid, hk.isRunning_iff⟩

end Deployment

end ClusterControl
