import ClusterControl.Proofs.Flow.Cancellation

/-!
# Runs of sections

The steps of an interleaving by name. A section of a start in progress or of a job says at which
place of its list that stands. A section that has nothing to work on does not happen, so a list of
sections is a run only if every one of them happens. The runs from an initial state lead to the
reachable states.
-/

namespace ClusterControl.Flow

inductive Section where
  | arrive (s : Start) (policy : UnwiredPolicy) (waiting : Bool)
  | leave (k : Nat)
  | answer (k : Nat)
  | conclude (k : Nat)
  | cancel (resourceId : String)
  | work (i : Nat) (first : Branch) (now : Instant)
  | cleanUp (i : Nat)

namespace Interleaving

variable {σ κ : Type}

def perform (x : Interleaving σ κ) : Section → Option (Interleaving σ κ)
  | .arrive s policy waiting => some (x.arrive s policy waiting)
  | .leave k =>
    x.openings[k]?.map fun o => { x with openings := x.openings.set k o.leave }
  | .answer k =>
    x.openings[k]?.bind fun o =>
      if o.granted = none then some { x with openings := x.openings.set k o.answer } else none
  | .conclude k =>
    x.openings[k]?.bind fun o =>
      o.granted.map fun granted =>
        { x with flows := x.flows.conclude granted o.claim, openings := x.openings.eraseIdx k }
  | .cancel resourceId => some (x.cancel resourceId)
  | .work i first now =>
    x.flows.jobs[i]?.bind fun t =>
      if t.isLive then some { x with flows := x.flows.work i first now } else none
  | .cleanUp i =>
    x.flows.jobs[i]?.bind fun t =>
      if t.hasExited = true ∧ t.context.id ∉ x.cleaned then some (x.cleanUp t) else none

def performAll (x : Interleaving σ κ) (as : List Section) : Option (Interleaving σ κ) :=
  as.foldlM perform x

variable {x y : Interleaving σ κ} {k i : Nat} {first : Branch} {now : Instant} {a : Section}
  {as : List Section} {handlers : Selector → Option (Handler σ κ)} {world : σ}

theorem perform_leave : x.perform (.leave k) = some y ↔
    ∃ o, x.openings[k]? = some o ∧ y = { x with openings := x.openings.set k o.leave } := by
  simp [perform, @eq_comm _ y]

theorem perform_answer : x.perform (.answer k) = some y ↔
    ∃ o, x.openings[k]? = some o ∧ o.granted = none ∧
      y = { x with openings := x.openings.set k o.answer } := by
  simp [perform, Option.bind_eq_some_iff, @eq_comm _ y]

theorem perform_conclude : x.perform (.conclude k) = some y ↔
    ∃ o granted, x.openings[k]? = some o ∧ o.granted = some granted ∧
      y = { x with
        flows := x.flows.conclude granted o.claim
        openings := x.openings.eraseIdx k } := by
  simp [perform, Option.bind_eq_some_iff, @eq_comm _ y]

theorem perform_work : x.perform (.work i first now) = some y ↔
    ∃ t, x.flows.jobs[i]? = some t ∧ t.isLive = true ∧
      y = { x with flows := x.flows.work i first now } := by
  simp [perform, Option.bind_eq_some_iff, @eq_comm _ y]

theorem perform_cleanUp : x.perform (.cleanUp i) = some y ↔
    ∃ t, x.flows.jobs[i]? = some t ∧ (t.hasExited = true ∧ t.context.id ∉ x.cleaned) ∧
      y = x.cleanUp t := by
  simp [perform, Option.bind_eq_some_iff, @eq_comm _ y]

theorem exists_split {α : Type} {l : List α} {b : α} (h : l[k]? = some b) :
    ∃ before after, l = before ++ b :: after ∧ before.length = k := by
  obtain ⟨hk, rfl⟩ := List.getElem?_eq_some_iff.mp h
  have hlen : (l.take k).length = k := List.length_take_of_le (Nat.le_of_lt hk)
  exact ⟨l.take k, l.drop (k + 1), by rw [← List.drop_eq_getElem_cons hk, List.take_append_drop],
    hlen⟩

theorem step_of_perform (h : x.perform a = some y) : Step x y := by
  cases a with
  | arrive s policy waiting =>
    cases h
    exact .arrive s policy waiting
  | leave k =>
    obtain ⟨o, ho, rfl⟩ := perform_leave.mp h
    obtain ⟨before, after, found, rfl⟩ := exists_split ho
    have hset : before ++ o.leave :: after = x.openings.set before.length o.leave := by
      simp [found]
    exact hset ▸ .leave found
  | answer k =>
    obtain ⟨o, ho, unresolved, rfl⟩ := perform_answer.mp h
    obtain ⟨before, after, found, rfl⟩ := exists_split ho
    have hset : before ++ o.answer :: after = x.openings.set before.length o.answer := by
      simp [found]
    exact hset ▸ .answer found unresolved
  | conclude k =>
    obtain ⟨o, granted, ho, resolved, rfl⟩ := perform_conclude.mp h
    obtain ⟨before, after, found, rfl⟩ := exists_split ho
    have herase : before ++ after = x.openings.eraseIdx before.length := by
      simp [found, List.eraseIdx_append_of_length_le]
    exact herase ▸ .conclude found resolved
  | cancel resourceId =>
    cases h
    exact .cancel resourceId
  | work i first now =>
    obtain ⟨_, _, _, rfl⟩ := perform_work.mp h
    exact .work i first now
  | cleanUp i =>
    obtain ⟨t, ht, ⟨exited, once⟩, rfl⟩ := perform_cleanUp.mp h
    exact .cleanUp (List.mem_of_getElem? ht) exited once

/-- Every step is a section that happens, except for a look at no live job. -/
theorem exists_perform (s : Step x y) : y = x ∨ ∃ a, x.perform a = some y := by
  cases s with
  | arrive s policy waiting => exact .inr ⟨.arrive s policy waiting, rfl⟩
  | @leave before after o found =>
    refine .inr ⟨.leave before.length, perform_leave.mpr ⟨o, ?_, ?_⟩⟩ <;> simp [found]
  | @answer before after o found unresolved =>
    refine .inr ⟨.answer before.length, perform_answer.mpr ⟨o, ?_, unresolved, ?_⟩⟩ <;>
      simp [found]
  | @conclude before after o granted found resolved =>
    refine .inr ⟨.conclude before.length, perform_conclude.mpr ⟨o, granted, ?_, resolved, ?_⟩⟩ <;>
      simp [found, List.eraseIdx_append_of_length_le]
  | cancel resourceId => exact .inr ⟨.cancel resourceId, rfl⟩
  | work i first now =>
    rcases x.flows.live_or_over i with ⟨t, ht, hl⟩ | hover
    · exact .inr ⟨.work i first now, perform_work.mpr ⟨t, ht, hl, rfl⟩⟩
    · refine .inl ?_
      rw [Scheduler.work_over hover]
  | cleanUp spawned exited once =>
    obtain ⟨i, hi⟩ := List.mem_iff_getElem?.mp spawned
    exact .inr ⟨.cleanUp i, perform_cleanUp.mpr ⟨_, hi, ⟨exited, once⟩, rfl⟩⟩

theorem performAll_cons :
    x.performAll (a :: as) = (x.perform a).bind (performAll · as) := List.foldlM_cons

theorem performAll_append (bs : List Section) :
    x.performAll (as ++ bs) = (x.performAll as).bind (performAll · bs) := List.foldlM_append

theorem steps_of_performAll (h : x.performAll as = some y) : Steps x y := by
  induction as generalizing x with
  | nil =>
    cases h
    exact .refl
  | cons a as ih =>
    rw [performAll_cons, Option.bind_eq_some_iff] at h
    obtain ⟨z, hz, h⟩ := h
    exact (Relation.ReflTransGen.single (step_of_perform hz)).trans (ih h)

/-- The reachable states are those that runs lead to. -/
theorem reachable_iff_performAll : Reachable handlers world x ↔
    ∃ as, performAll ⟨{ handlers, world }, [], []⟩ as = some x := by
  constructor
  · intro h
    induction h with
    | initial => exact ⟨[], rfl⟩
    | @step x y _ s ih =>
      obtain ⟨as, has⟩ := ih
      rcases exists_perform s with rfl | ⟨a, ha⟩
      · exact ⟨as, has⟩
      · refine ⟨as ++ [a], ?_⟩
        rw [performAll_append, has, Option.bind_some, performAll_cons, ha]
        rfl
  · rintro ⟨as, has⟩
    exact Reachable.steps .initial (steps_of_performAll has)

end Interleaving

end ClusterControl.Flow
