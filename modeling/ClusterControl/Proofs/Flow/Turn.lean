import ClusterControl.Proofs.Flow.Admission

/-!
# Turns

A turn is one look at a job and its clean-up. When a scheduler settles, every job has its turn. Here
is also what the sections leave alone: the marks, the numbers, and the entries that they do not add.
-/

namespace ClusterControl

open ClusterControl.Flow

variable {σ κ : Type}

theorem Flow.Registry.release_subset (g : Registry) (resourceId : String) (id : Id) :
    g.release resourceId id ⊆ g := by
  unfold Registry.release
  split
  · split
    · exact List.filter_subset_self _
    · exact List.Subset.refl _
  · exact List.Subset.refl _

namespace Scheduler

variable {m : Scheduler σ κ} {t : Job κ} {first : Branch} {now : Instant} {i : Nat}

@[simp] theorem marked_claim {s : Start} : (m.claim s).2.marked = m.marked := by
  rcases claim_cases m s with ⟨_, h⟩ | ⟨_, h⟩ | ⟨_, _, h⟩ | ⟨_, _, h⟩ <;> rw [h]

@[simp] theorem marked_conclude (granted : Bool) (c : Claim) :
    (m.conclude granted c).marked = m.marked := by
  cases c <;> cases granted <;> rfl

@[simp] theorem nextId_conclude (granted : Bool) (c : Claim) :
    (m.conclude granted c).nextId = m.nextId := by
  cases c <;> cases granted <;> rfl

@[simp] theorem marked_work : (m.work i first now).marked = m.marked := by
  rcases work_cases m i first now with h | ⟨_, _, _, h⟩ <;> rw [h]

@[simp] theorem marked_cleanUp : (m.cleanUp t).marked = m.marked := by
  rw [cleanUp_eq]
  split <;> rfl

@[simp] theorem jobs_cleanUp : (m.cleanUp t).jobs = m.jobs := by
  rw [cleanUp_eq]
  split <;> rfl

@[simp] theorem nextId_cleanUp : (m.cleanUp t).nextId = m.nextId := by
  rw [cleanUp_eq]
  split <;> rfl

theorem marked_subset_cancel (resourceId : String) : m.marked ⊆ (m.cancel resourceId).marked := by
  unfold cancel
  split
  · exact List.subset_append_left _ _
  · exact List.Subset.refl _

theorem cancel_eq {resourceId : String} {e : Entry} (h : m.registry.flow? resourceId = some e) :
    m.cancel resourceId = { m with marked := m.marked ++ [e.id] } := by
  simp [cancel, h]

theorem cancel_idle {resourceId : String} (h : m.isRunning resourceId = false) :
    m.cancel resourceId = m := by
  have hn : m.registry.flow? resourceId = none := by
    simpa [isRunning, Registry.isRunning] using h
  simp [cancel, hn]

theorem registry_conclude_subset (granted : Bool) (c : Claim) :
    (m.conclude granted c).registry ⊆ m.registry := by
  cases c with
  | noHandler | busy => exact List.Subset.refl _
  | claimed c =>
    cases granted with
    | false => exact Registry.release_subset _ _ _
    | true => exact List.Subset.refl _
  | unchecked c => cases granted <;> exact List.Subset.refl _

theorem registry_cleanUp_subset : (m.cleanUp t).registry ⊆ m.registry := by
  rw [cleanUp_eq]
  split
  · exact Registry.release_subset _ _ _
  · exact List.Subset.refl _

theorem turn_live (ht : m.jobs[i]? = some t) (hl : t.isLive = true) :
    m.turn i first now = (m.work i first now).cleanUp (m.runJob first t now).1 := by
  simp [turn, ht, hl]

theorem turn_over (h : ∀ t, m.jobs[i]? = some t → t.isLive = false) :
    m.turn i first now = m := by
  unfold turn
  split
  next t ht => simp [h t ht]
  next => rfl

theorem cancel_frame (m : Scheduler σ κ) (resourceId : String) :
    m.cancel resourceId = { m with marked := (m.cancel resourceId).marked } := by
  unfold cancel
  split <;> rfl

/-- Turns of jobs at one instant, each with the side that is looked at first. -/
def turns (now : Instant) (looks : List (Nat × Branch)) : List Event :=
  looks.map fun k => .turn k.1 k.2 now

/-- To settle is to give every job its turn. -/
theorem settleJobs_eq_run (m : Scheduler σ κ) (before rest : List (Job κ)) (first : Branch)
    (now : Instant) :
    settleJobs first now m before rest =
      ({ m with jobs := before ++ rest } : Scheduler σ κ).run
        (turns now ((List.range' before.length rest.length).map (·, first))) := by
  induction rest generalizing m before with
  | nil => simp [settleJobs, turns, run]
  | cons t rest ih =>
    have ht : (before ++ t :: rest)[before.length]? = some t := by simp
    have hlen : (before ++ [t]).length = before.length + 1 := by simp
    rw [List.length_cons, List.range'_succ]
    cases hl : t.isLive with
    | false =>
      have hturn : ({ m with jobs := before ++ t :: rest } : Scheduler σ κ).turn before.length first
          now = { m with jobs := before ++ t :: rest } := by
        apply turn_over
        rintro u hu
        rw [← Option.some.inj (ht.symm.trans hu), hl]
      have hrest := ih m (before ++ [t])
      rw [hlen, List.append_assoc, List.singleton_append] at hrest
      simpa [settleJobs, hl, turns, run, step, hturn] using hrest
    | true =>
      have hturn : ({ m with jobs := before ++ t :: rest } : Scheduler σ κ).turn before.length first
          now = { ({ m with world := (m.runJob first t now).2 } : Scheduler σ κ).cleanUp
            (m.runJob first t now).1 with
              jobs := before ++ (m.runJob first t now).1 :: rest } := by
        have hrun : ({ m with jobs := before ++ t :: rest } : Scheduler σ κ).runJob first t now =
            m.runJob first t now := rfl
        rw [turn_live ht hl, work_live ht hl, hrun, cleanUp_eq, cleanUp_eq]
        simp only [List.set_append_right _ _ (Nat.le_refl _), Nat.sub_self, List.set_cons_zero]
        split <;> rfl
      have hrest := ih (({ m with world := (m.runJob first t now).2 } : Scheduler σ κ).cleanUp
        (m.runJob first t now).1) (before ++ [(m.runJob first t now).1])
      rw [List.length_append, List.length_singleton, List.append_assoc,
        List.singleton_append] at hrest
      simpa [settleJobs, hl, turns, run, step, hturn] using hrest

theorem settle_eq_run (m : Scheduler σ κ) (now : Instant) (first : Branch) :
    m.settle now first = m.run (turns now ((List.range m.jobs.length).map (·, first))) := by
  rw [settle, settleJobs_eq_run, List.range_eq_range']
  rfl

end Scheduler

end ClusterControl
