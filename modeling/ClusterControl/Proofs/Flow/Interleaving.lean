import ClusterControl.Proofs.Flow.Registry
import ClusterControl.Proofs.Flow.Scheduler

/-!
# Interleaved sections

Starts, cancellations and jobs of one scheduler run side by side. Each of them is cut into the
sections that no other thread can enter, and between two sections anything else may happen. A start
claims its resource, learns whether its requester still waits, and then spawns its job or gives the
resource back. A job runs until it has ended and cleans up in a section of its own.

`Sound` is the invariant of these steps. It accounts for the registry by the starts in progress and
the jobs that still have to clean up, and gives mutual exclusion in `interleaving_exclusive`.
-/

namespace ClusterControl.Flow

open Scheduler (Claim)

/-- A start between its first section and its last one. `granted` is what its signal told it. -/
structure Opening where
  claim : Claim
  policy : UnwiredPolicy
  waiting : Bool
  granted : Option Bool := none

namespace Opening

def leave (o : Opening) : Opening := { o with waiting := false }

def answer (o : Opening) : Opening :=
  { o with granted := some (o.claim.resolution.grants o.policy o.waiting) }

def owns (o : Opening) (e : Entry) : Bool :=
  match o.claim with
  | .claimed c => .ofContext c == e
  | _ => false

end Opening

/-- A scheduler with the starts in progress and the flows whose clean-up has run. -/
structure Interleaving (σ κ : Type) where
  flows : Scheduler σ κ
  openings : List Opening := []
  cleaned : List Id := []

namespace Interleaving

variable {σ κ : Type}

def arrive (x : Interleaving σ κ) (s : Start) (policy : UnwiredPolicy) (waiting : Bool) :
    Interleaving σ κ :=
  { x with
    flows := (x.flows.claim s).2
    openings := x.openings ++ [⟨(x.flows.claim s).1, policy, waiting, none⟩] }

def cleanUp (x : Interleaving σ κ) (t : Job κ) : Interleaving σ κ :=
  { x with flows := x.flows.cleanUp t, cleaned := t.context.id :: x.cleaned }

/-- One section. A start may arrive at any time, with or without its requester. -/
inductive Step (x : Interleaving σ κ) : Interleaving σ κ → Prop
  | arrive (s : Start) (policy : UnwiredPolicy) (waiting : Bool) :
      Step x (x.arrive s policy waiting)
  | leave {before after : List Opening} {o : Opening} (found : x.openings = before ++ o :: after) :
      Step x { x with openings := before ++ o.leave :: after }
  | answer {before after : List Opening} {o : Opening} (found : x.openings = before ++ o :: after)
      (unresolved : o.granted = none) :
      Step x { x with openings := before ++ o.answer :: after }
  | conclude {before after : List Opening} {o : Opening} {granted : Bool}
      (found : x.openings = before ++ o :: after) (resolved : o.granted = some granted) :
      Step x { x with flows := x.flows.conclude granted o.claim, openings := before ++ after }
  | cancel (resourceId : String) : Step x { x with flows := x.flows.cancel resourceId }
  | work (i : Nat) (first : Branch) (now : Instant) :
      Step x { x with flows := x.flows.work i first now }
  | cleanUp {t : Job κ} (spawned : t ∈ x.flows.jobs) (exited : t.hasExited = true)
      (once : t.context.id ∉ x.cleaned) :
      Step x (x.cleanUp t)

inductive Reachable (handlers : Selector → Option (Handler σ κ)) (world : σ) :
    Interleaving σ κ → Prop
  | initial : Reachable handlers world ⟨{ handlers, world }, [], []⟩
  | step {x y : Interleaving σ κ} : Reachable handlers world x → Step x y →
      Reachable handlers world y

def isExclusive (x : Interleaving σ κ) (c : Context) : Bool :=
  x.flows.admission? c.start.selector == some .exclusive

/-- Whether a flow has a right to its resource. -/
def holds (x : Interleaving σ κ) (c : Context) : Bool :=
  x.isExclusive c && !x.cleaned.contains c.id

def contexts (x : Interleaving σ κ) : List Context :=
  x.openings.filterMap (·.claim.context?) ++ x.flows.jobs.map Job.context

/-- The jobs under admission control that are at work or still have to clean up. -/
def active (x : Interleaving σ κ) : List (Job κ) := x.flows.jobs.filter (x.holds ·.context)

/-- Whether a claim agrees with the admission of its kind of flow. -/
def Fits (x : Interleaving σ κ) : Claim → Prop
  | .claimed c => x.isExclusive c = true
  | .unchecked c => x.isExclusive c = false
  | _ => True

/-- The registry is accounted for by the starts in progress and the jobs, and only jobs that are
over have cleaned up. -/
structure Sound (x : Interleaving σ κ) : Prop where
  accounts : x.flows.registry.Accounts x.contexts x.holds x.flows.nextId
  fits : ∀ o ∈ x.openings, x.Fits o.claim
  cleaned : ∀ id ∈ x.cleaned, ∃ t ∈ x.flows.jobs, t.context.id = id ∧ t.isLive = false

variable {x y : Interleaving σ κ}

theorem mem_contexts_of_job {t : Job κ} (ht : t ∈ x.flows.jobs) : t.context ∈ x.contexts :=
  List.mem_append_right _ (List.mem_map_of_mem ht)

theorem Sound.id_lt_of_cleaned (h : x.Sound) {id : Id} (hid : id ∈ x.cleaned) :
    id < x.flows.nextId := by
  obtain ⟨t, ht, rfl, _⟩ := h.cleaned id hid
  exact h.accounts.fresh _ (mem_contexts_of_job ht)

theorem sound_initial (handlers : Selector → Option (Handler σ κ)) (world : σ) :
    Sound (⟨{ handlers, world }, [], []⟩ : Interleaving σ κ) :=
  ⟨.nil, by simp, by simp⟩

theorem isExclusive_congr (hh : y.flows.handlers = x.flows.handlers) :
    y.isExclusive = x.isExclusive := by
  funext c
  simp [isExclusive, Scheduler.admission?, hh]

theorem holds_congr (hh : y.flows.handlers = x.flows.handlers) (hc : y.cleaned = x.cleaned) :
    y.holds = x.holds := by
  funext c
  simp [holds, isExclusive_congr hh, hc]

theorem fits_congr (hh : y.flows.handlers = x.flows.handlers) {c : Claim} (hc : x.Fits c) :
    y.Fits c := by
  cases c with
  | noHandler | busy => trivial
  | claimed c | unchecked c => simpa only [Fits, isExclusive_congr hh] using hc

theorem fits_claim (x : Interleaving σ κ) (s : Start) : x.Fits (x.flows.claim s).1 := by
  rcases Scheduler.claim_cases x.flows s with
    ⟨_, hc⟩ | ⟨ha, hc⟩ | ⟨_, _, hc⟩ | ⟨ha, _, hc⟩ <;> rw [hc]
  · trivial
  · simp [Fits, isExclusive, ha]
  · trivial
  · simp [Fits, isExclusive, ha]

/-- The first section of a start adds its flow, with an entry if it is under admission control. -/
theorem Sound.accounts_claim (h : x.Sound) (s : Start) :
    (x.flows.claim s).2.registry.Accounts ((x.flows.claim s).1.context?.toList ++ x.contexts)
      x.holds (x.flows.claim s).2.nextId := by
  have ha := h.accounts
  have hnew : x.flows.nextId ∉ x.cleaned := fun hid => Nat.lt_irrefl _ (h.id_lt_of_cleaned hid)
  have hfits := fits_claim x s
  rcases Scheduler.claim_cases x.flows s with
    ⟨_, hc⟩ | ⟨_, hc⟩ | ⟨_, _, hc⟩ | ⟨_, hr, hc⟩ <;> rw [hc] at hfits ⊢
  · exact ha
  · exact Registry.Accounts.cons (c := ⟨x.flows.nextId, s⟩) ha (by simp_all [Fits, holds])
  · exact ha.mono (Nat.le_succ _)
  · exact Registry.Accounts.claim (c := ⟨x.flows.nextId, s⟩) ha (by simp_all [Fits, holds]) hr

/-- A section keeps the handlers, so that a flow means after it what it meant before. -/
theorem sound_of_handlers (hh : y.flows.handlers = x.flows.handlers)
    (hc : y.cleaned = x.cleaned)
    (accounts : y.flows.registry.Accounts y.contexts x.holds y.flows.nextId)
    (fits : ∀ o ∈ y.openings, x.Fits o.claim)
    (cleaned : ∀ id ∈ x.cleaned, ∃ t ∈ y.flows.jobs, t.context.id = id ∧ t.isLive = false) :
    y.Sound :=
  ⟨holds_congr hh hc ▸ accounts, fun o ho => fits_congr hh (fits o ho), hc ▸ cleaned⟩

theorem Sound.arrive (h : x.Sound) (s : Start) (policy : UnwiredPolicy) (waiting : Bool) :
    (x.arrive s policy waiting).Sound := by
  refine sound_of_handlers (x := x) Scheduler.handlers_claim rfl ?_ ?_ ?_
  · apply (h.accounts_claim s).perm
    cases hc : (x.flows.claim s).1.context? <;>
      simp [contexts, Interleaving.arrive, hc, List.perm_middle.symm]
  · intro o ho
    rcases List.mem_append.mp ho with ho | ho
    · exact h.fits o ho
    · rw [List.mem_singleton.mp ho]
      exact fits_claim x s
  · simpa [Interleaving.arrive] using h.cleaned

/-- What happens to the signal of a start leaves its flow alone. -/
theorem Sound.replace (h : x.Sound) {before after : List Opening} {o p : Opening}
    (found : x.openings = before ++ o :: after) (hp : p.claim = o.claim) :
    Sound { x with openings := before ++ p :: after } := by
  have hc : contexts { x with openings := before ++ p :: after } = x.contexts := by
    simp [contexts, found, List.filterMap_cons, hp]
  refine sound_of_handlers (x := x) rfl rfl (hc ▸ h.accounts) ?_ h.cleaned
  intro q hq
  rcases List.mem_append.mp hq with hq | hq
  · exact h.fits q (by simp [found, hq])
  · rcases List.mem_cons.mp hq with rfl | hq
    · exact hp ▸ h.fits o (by simp [found])
    · exact h.fits q (by simp [found, hq])

/-- The last section of a start: its flow becomes a job, or gives its resource back. -/
theorem Sound.accounts_conclude (h : x.Sound) {before after : List Opening} {o : Opening}
    (found : x.openings = before ++ o :: after) (granted : Bool) :
    (x.flows.conclude granted o.claim).registry.Accounts
      (contexts
        { x with flows := x.flows.conclude granted o.claim, openings := before ++ after })
      x.holds (x.flows.conclude granted o.claim).nextId := by
  have hsplit : x.contexts.Perm
      (o.claim.context?.toList ++ contexts { x with openings := before ++ after }) := by
    cases hc : o.claim.context? <;> simp [contexts, found, hc, List.perm_middle]
  have ha := h.accounts.perm hsplit
  have hspawn : ∀ c : Context, (c :: contexts { x with openings := before ++ after }).Perm
      (contexts { x with flows := x.flows.spawn c, openings := before ++ after }) := by
    intro c
    simp only [contexts, Scheduler.spawn, List.map_append, ← List.append_assoc]
    exact (List.perm_append_singleton _ _).symm
  have hfits := h.fits o (by simp [found])
  cases hc : o.claim with
  | noHandler | busy =>
    rw [hc] at ha
    exact ha
  | claimed c =>
    rw [hc] at ha
    cases granted with
    | false => exact ha.release_tail
    | true => exact ha.perm (hspawn c)
  | unchecked c =>
    rw [hc] at ha hfits
    cases granted with
    | false => exact ha.tail (by simp_all [Fits, holds])
    | true => exact ha.perm (hspawn c)

theorem Sound.conclude (h : x.Sound) {before after : List Opening} {o : Opening}
    (found : x.openings = before ++ o :: after) (granted : Bool) :
    Sound { x with flows := x.flows.conclude granted o.claim, openings := before ++ after } := by
  refine sound_of_handlers (x := x) (Scheduler.handlers_conclude granted o.claim) rfl
    (h.accounts_conclude found granted) ?_ ?_
  · intro p hp
    apply h.fits p
    rw [found]
    exact ((List.sublist_cons_self o after).append_left before).mem hp
  · intro id hid
    obtain ⟨t, ht, hti⟩ := h.cleaned id hid
    exact ⟨t, Scheduler.mem_jobs_conclude ht, hti⟩

theorem Sound.cancel (h : x.Sound) (resourceId : String) :
    Sound { x with flows := x.flows.cancel resourceId } :=
  sound_of_handlers (x := x) (Scheduler.handlers_cancel resourceId) rfl
    (by simpa [contexts] using h.accounts) h.fits (by simpa using h.cleaned)

theorem Sound.work (h : x.Sound) (i : Nat) (first : Branch) (now : Instant) :
    Sound { x with flows := x.flows.work i first now } := by
  refine sound_of_handlers (x := x) Scheduler.handlers_work rfl
    (by simpa [contexts] using h.accounts) h.fits ?_
  intro id hid
  obtain ⟨t, ht, hti, hl⟩ := h.cleaned id hid
  exact ⟨t, Scheduler.mem_jobs_work ht hl, hti, hl⟩

theorem Sound.cleanUp (h : x.Sound) {t : Job κ} (spawned : t ∈ x.flows.jobs)
    (exited : t.hasExited = true) : (x.cleanUp t).Sound := by
  have hc : x.cleanUp t =
      { x with flows := x.flows.release t.context, cleaned := t.context.id :: x.cleaned } := by
    rw [Interleaving.cleanUp, Scheduler.cleanUp_eq, if_pos exited]
  rw [hc]
  refine ⟨?_, h.fits, ?_⟩
  · apply (h.accounts.release (mem_contexts_of_job spawned)).congr
    intro c _
    simp only [holds, List.contains_cons, Bool.not_or, bne, Bool.and_assoc]
    rw [Bool.and_comm (!x.cleaned.contains c.id)]
    rfl
  · intro id hid
    rcases List.mem_cons.mp hid with rfl | hid
    · exact ⟨t, spawned, rfl, Job.isLive_of_hasExited exited⟩
    · exact h.cleaned id hid

theorem Sound.step (h : x.Sound) (s : Step x y) : y.Sound := by
  cases s with
  | arrive s policy waiting => exact h.arrive s policy waiting
  | leave found => exact h.replace found rfl
  | answer found _ => exact h.replace found rfl
  | conclude found _ => exact h.conclude found _
  | cancel resourceId => exact h.cancel resourceId
  | work i first now => exact h.work i first now
  | cleanUp spawned exited _ => exact h.cleanUp spawned exited

theorem Reachable.sound {handlers : Selector → Option (Handler σ κ)} {world : σ}
    (h : Reachable handlers world x) : x.Sound := by
  induction h with
  | initial => exact sound_initial handlers world
  | step _ s ih => exact ih.step s

theorem handlers_step (s : Step x y) : y.flows.handlers = x.flows.handlers := by
  cases s with
  | cleanUp _ exited _ =>
    simp [Interleaving.cleanUp, Scheduler.cleanUp_eq, exited, Scheduler.release]
  | _ => simp [Interleaving.arrive]

theorem calm_step (hm : Calm x.flows.handlers) (h : ∀ t ∈ x.flows.jobs, t.Calm) (s : Step x y) :
    ∀ t ∈ y.flows.jobs, t.Calm := by
  cases s with
  | arrive => simpa [Interleaving.arrive] using h
  | leave | answer => exact h
  | conclude => exact Scheduler.calm_conclude h
  | cancel => simpa using h
  | work => exact Scheduler.calm_work hm h
  | cleanUp _ exited _ =>
    simpa [Interleaving.cleanUp, Scheduler.cleanUp_eq, exited, Scheduler.release] using h

theorem Reachable.calm {handlers : Selector → Option (Handler σ κ)} {world : σ}
    (hm : Calm handlers) (h : Reachable handlers world x) :
    Calm x.flows.handlers ∧ ∀ t ∈ x.flows.jobs, t.Calm := by
  induction h with
  | initial => exact ⟨hm, by simp⟩
  | step _ s ih => exact ⟨handlers_step s ▸ ih.1, calm_step ih.1 ih.2 s⟩

/-- The flow of a claim in progress has its resource. -/
theorem Sound.holds_of_claimed (h : x.Sound) {o : Opening} {c : Context} (ho : o ∈ x.openings)
    (hc : o.claim = .claimed c) : x.holds c = true := by
  have hfits : x.Fits (.claimed c) := hc ▸ h.fits o ho
  have hopen : c ∈ x.openings.filterMap (·.claim.context?) :=
    List.mem_filterMap.mpr ⟨o, ho, by simp [hc, Claim.context?]⟩
  have hnew : c.id ∉ x.cleaned := by
    intro hid
    obtain ⟨t, ht, hi, _⟩ := h.cleaned _ hid
    have hd := h.accounts.distinct
    rw [contexts, List.map_append] at hd
    exact List.disjoint_of_nodup_append hd (List.mem_map_of_mem hopen)
      (hi ▸ List.mem_map_of_mem (List.mem_map_of_mem ht))
  simpa [holds, hnew, Fits] using hfits

/-- An entry of the registry belongs to one start in progress or one active job. -/
theorem Sound.count_owners (h : x.Sound) {e : Entry} (he : e ∈ x.flows.registry) :
    x.openings.countP (·.owns e) +
      x.active.countP (fun t => Entry.ofContext t.context == e) = 1 := by
  have hone : x.flows.registry.countP (· == e) = 1 :=
    List.count_eq_one_of_mem (List.Nodup.of_map _ h.accounts.unique) he
  have hopen : x.openings.countP (·.owns e) =
      (x.openings.filterMap (·.claim.context?)).countP
        (fun c => Entry.ofContext c == e && x.holds c) := by
    rw [List.countP_filterMap]
    apply List.countP_congr
    intro o ho
    have hfits := h.fits o ho
    cases hc : o.claim with
    | noHandler | busy => simp [Opening.owns, hc, Claim.context?]
    | claimed c => simp [Opening.owns, hc, Claim.context?, h.holds_of_claimed ho hc]
    | unchecked c =>
      rw [hc] at hfits
      simp_all [Opening.owns, Claim.context?, Fits, holds]
  have hactive : x.active.countP (fun t => Entry.ofContext t.context == e) =
      (x.flows.jobs.map Job.context).countP (fun c => Entry.ofContext c == e && x.holds c) := by
    rw [active, List.countP_filter, List.countP_map]
    rfl
  rw [hopen, hactive, ← List.countP_append, ← hone, h.accounts.registered.countP_eq,
    List.countP_map, List.countP_filter]
  rfl

theorem Sound.mem_active (h : x.Sound) {t : Job κ} (ht : t ∈ x.flows.jobs)
    (hx : x.isExclusive t.context = true) (hl : t.isLive = true) : t ∈ x.active := by
  have hnew : t.context.id ∉ x.cleaned := by
    intro hid
    obtain ⟨u, hu, hi, hover⟩ := h.cleaned _ hid
    have hd := h.accounts.distinct
    rw [contexts, List.map_append, List.map_map] at hd
    have hut := List.inj_on_of_nodup_map (List.Nodup.of_append_right hd) hu ht hi
    rw [hut, hl] at hover
    cases hover
  exact List.mem_filter.mpr ⟨ht, by simp [holds, hx, hnew]⟩

theorem Sound.registered (h : x.Sound) {t : Job κ} (ht : t ∈ x.active) :
    x.flows.registry.flow? t.context.start.resource.id = some (.ofContext t.context) := by
  obtain ⟨hj, hh⟩ := List.mem_filter.mp ht
  exact h.accounts.unique.flow?_eq_some.mpr ⟨h.accounts.mem (mem_contexts_of_job hj) hh, rfl⟩

theorem Sound.active_resources (h : x.Sound) :
    (x.active.map fun t => t.context.start.resource.id).Nodup := by
  have hr := ((h.accounts.registered.map Entry.resourceId).nodup_iff.mp h.accounts.unique)
  rw [contexts, List.filter_append, List.map_append, List.map_append] at hr
  have hj := List.Nodup.of_append_right hr
  rwa [List.filter_map, List.map_map, List.map_map] at hj

/-- In every reachable state, first, the exclusive jobs that are live or still have to clean up are
of different resources; second, each of them is registered under its resource; third, each entry
belongs to one start in progress or to one of these jobs, which can still give it back; fourth, no
start that is refused and no clean-up removes an entry of another flow. -/
theorem interleaving_exclusive {handlers : Selector → Option (Handler σ κ)} {world : σ}
    (calm : Calm handlers) (h : Reachable handlers world x) :
    (∀ t ∈ x.flows.jobs, x.isExclusive t.context = true → t.isLive = true → t ∈ x.active) ∧
    (x.active.map fun t => t.context.start.resource.id).Nodup ∧
    (∀ t ∈ x.active,
      x.flows.registry.flow? t.context.start.resource.id = some (.ofContext t.context)) ∧
    (∀ e ∈ x.flows.registry,
      x.openings.countP (·.owns e) +
        x.active.countP (fun t => Entry.ofContext t.context == e) = 1) ∧
    (∀ t ∈ x.active, t.isLive = true ∨ t.hasExited = true) ∧
    (∀ o ∈ x.openings, ∀ c, o.claim.context? = some c → ∀ e ∈ x.flows.registry, e.id ≠ c.id →
      e ∈ (x.flows.conclude false o.claim).registry) ∧
    (∀ t ∈ x.flows.jobs, ∀ e ∈ x.flows.registry, e.id ≠ t.context.id →
      e ∈ (x.cleanUp t).flows.registry) := by
  have hs := h.sound
  have hu := hs.accounts.unique
  refine ⟨fun t => hs.mem_active, hs.active_resources, fun t => hs.registered,
    fun e => hs.count_owners, ?_, ?_, ?_⟩
  · intro t ht
    exact ((h.calm calm).2 t (List.mem_filter.mp ht).1).isLive_or_hasExited
  · intro o _ c hc e he hi
    cases ho : o.claim with
    | noHandler | busy | unchecked => exact he
    | claimed d =>
      rw [ho] at hc
      cases hc
      exact Registry.mem_release hu he hi
  · intro t _ e he hi
    simp only [Interleaving.cleanUp, Scheduler.cleanUp_eq]
    split
    · exact Registry.mem_release hu he hi
    · exact he

/-- The requester of a claim has left and the claim is not given back yet, when a second start finds
the resource taken. -/
def overtaken : Interleaving Unit Unit where
  flows :=
    { handlers := parked, registry := [⟨0, "17", .repair, "a"⟩], nextId := 2, world := () }
  openings :=
    [⟨.claimed ⟨0, order .repair "a"⟩, .reject, false, some false⟩, ⟨.busy, .reject, true, none⟩]

theorem overtaken_reachable : Reachable parked () overtaken := by
  have h₀ : Reachable parked () _ := .initial
  have h₁ := h₀.step (.arrive (order .repair "a") .reject true)
  have h₂ := h₁.step (.leave (show _ = [] ++ _ :: [] from rfl))
  have h₃ := h₂.step (.answer (show _ = [] ++ _ :: [] from rfl) rfl)
  exact h₃.step (.arrive (order .delete "b") .reject true)

theorem interleaving_exclusive_overtaken :
    Calm parked ∧ Reachable parked () overtaken ∧
      overtaken.openings.countP (·.owns ⟨0, "17", .repair, "a"⟩) +
        overtaken.active.countP
          (fun t => Entry.ofContext t.context == ⟨0, "17", .repair, "a"⟩) = 1 :=
  ⟨parked_calm, overtaken_reachable,
    (interleaving_exclusive parked_calm overtaken_reachable).2.2.2.1 _ List.mem_cons_self⟩

end Interleaving

end ClusterControl.Flow
