import ClusterControl.Proofs.Flow.Section
import ClusterControl.Proofs.Flow.Selection

/-!
# Projections of runs

From a run of sections, those that concern one resource are kept: its starts and cancellations, and
the sections of its jobs. What is left is a run again. Its states mirror those of the whole run: they
have the entries of the resource, and the starts and jobs that are kept.

The numbers of flows come from outside. So a kept start draws the number that it drew in the whole
run, which is not below any number that was drawn before.
-/

namespace ClusterControl

open ClusterControl.Flow

variable {σ κ : Type}

namespace Flow.Registry

variable {g : Registry} {resourceId other : String} {id : Id}

def only (g : Registry) (resourceId : String) : Registry := g.filter (·.resourceId == resourceId)

theorem flow?_only : (g.only resourceId).flow? resourceId = g.flow? resourceId := by
  simp only [only, flow?, List.find?_filter, and_self, Bool.decide_eq_true]

theorem isRunning_only : (g.only resourceId).isRunning resourceId = g.isRunning resourceId := by
  rw [isRunning, flow?_only, isRunning]

theorem only_release :
    (g.release resourceId id).only resourceId = (g.only resourceId).release resourceId id := by
  unfold release
  rw [flow?_only]
  cases g.flow? resourceId with
  | none => rfl
  | some e => by_cases hi : e.id = id <;> simp [hi, only, List.filter_filter, Bool.and_comm]

theorem only_release_of_ne (h : other ≠ resourceId) :
    (g.release other id).only resourceId = g.only resourceId := by
  unfold release
  split
  · split
    · rw [only, List.filter_filter]
      apply List.filter_congr
      intro e _
      by_cases he : e.resourceId = resourceId <;> simp [he, h.symm]
    · rfl
  · rfl

end Flow.Registry

/-- What the flows of a resource do under admission control depends on themselves alone. -/
def Flow.Independent (handlers : Selector → Option (Handler σ κ)) (resourceId : String) : Prop :=
  ∀ k h, handlers k = some h → h.admission = .exclusive →
    ∀ c : Context, c.start.resource.id = resourceId →
      ∀ now world other, (h.begin c now world).1 = (h.begin c now other).1

namespace Scheduler

variable {m n : Scheduler σ κ} {resourceId : String} {s : Start} {t : Job κ}

/-- Whether a start is kept: it is for the resource, and not outside admission control. -/
def keeps (m : Scheduler σ κ) (resourceId : String) (s : Start) : Bool :=
  s.resource.id == resourceId && m.admission? s.selector != some .unchecked

theorem keeps_iff : m.keeps resourceId s = true ↔
    s.resource.id = resourceId ∧ m.admission? s.selector ≠ some .unchecked := by
  simp [keeps]

theorem keeps_of_exclusive (h : m.admission? s.selector = some .exclusive) :
    m.keeps resourceId s = true ↔ s.resource.id = resourceId := by
  simp [keeps, h]

theorem admission?_congr (hh : n.handlers = m.handlers) (k : Selector) :
    n.admission? k = m.admission? k := by
  rw [admission?, hh, admission?]

theorem isRunning_of_only (hr : n.registry = m.registry.only resourceId)
    (hid : s.resource.id = resourceId) :
    n.registry.isRunning s.resource.id = m.registry.isRunning s.resource.id := by
  rw [hr, hid, Registry.isRunning_only]

/-- A kept claim comes to the same at a scheduler that has the entries of the resource. -/
theorem claim_of_keeps (hh : n.handlers = m.handlers)
    (hr : n.registry = m.registry.only resourceId) (hn : n.nextId = m.nextId)
    (hk : m.keeps resourceId s = true) :
    (n.claim s).1 = (m.claim s).1 ∧
      (n.claim s).2.registry = (m.claim s).2.registry.only resourceId ∧
      (n.claim s).2.nextId = (m.claim s).2.nextId := by
  obtain ⟨hid, hchecked⟩ := keeps_iff.mp hk
  have ha := admission?_congr hh s.selector
  have hrun := isRunning_of_only hr hid
  rcases claim_cases m s with ⟨hm, hc⟩ | ⟨hm, hc⟩ | ⟨hm, hbusy, hc⟩ | ⟨hm, hidle, hc⟩
  · rw [hc, claim_noHandler (ha.trans hm)]
    exact ⟨rfl, hr, hn⟩
  · exact absurd hm hchecked
  · rw [hc, claim_busy (ha.trans hm) (hrun.trans hbusy)]
    exact ⟨rfl, hr, congrArg (· + 1) hn⟩
  · rw [hc, claim_idle (ha.trans hm) (hrun.trans hidle), hn]
    refine ⟨rfl, ?_, rfl⟩
    simp [hr, Registry.only, Entry.ofContext, hid]

/-- A claim that is not kept adds no entry of the resource. -/
theorem only_claim (hk : m.keeps resourceId s = false) :
    (m.claim s).2.registry.only resourceId = m.registry.only resourceId := by
  rcases claim_cases m s with ⟨_, hc⟩ | ⟨_, hc⟩ | ⟨_, _, hc⟩ | ⟨hm, _, hc⟩ <;> rw [hc]
  have hid : s.resource.id ≠ resourceId := by
    intro hid
    rw [(keeps_of_exclusive hm).mpr hid] at hk
    cases hk
  simp [Registry.only, Entry.ofContext, hid]

/-- A requester whose start is kept hears the same. -/
theorem trigger_of_keeps (hh : n.handlers = m.handlers)
    (hr : n.registry = m.registry.only resourceId) (hk : m.keeps resourceId s = true)
    (config : DispatcherConfig) (now : Instant) :
    (n.trigger config s now).1 = (m.trigger config s now).1 := by
  have hrequest : ∀ m : Scheduler σ κ, (m.trigger config s now).1 =
      (((Request.new config s now).resolve (m.claim s).1.resolution).publicationEnds
        ((m.claim s).1.published s)).look now := fun _ => rfl
  obtain ⟨hid, hchecked⟩ := keeps_iff.mp hk
  have ha := admission?_congr hh s.selector
  have hrun := isRunning_of_only hr hid
  rw [hrequest n, hrequest m]
  rcases claim_cases m s with ⟨hm, hc⟩ | ⟨hm, hc⟩ | ⟨hm, hbusy, hc⟩ | ⟨hm, hidle, hc⟩
  · rw [hc, claim_noHandler (ha.trans hm)]
  · exact absurd hm hchecked
  · rw [hc, claim_busy (ha.trans hm) (hrun.trans hbusy)]
  · rw [hc, claim_idle (ha.trans hm) (hrun.trans hidle)]
    rfl

theorem advanceHandler_of_independent (hh : n.handlers = m.handlers)
    (hi : ∀ h, m.handlers t.context.start.selector = some h →
      ∀ now world other, (h.begin t.context now world).1 = (h.begin t.context now other).1)
    (now : Instant) : (n.advanceHandler t now).1 = (m.advanceHandler t now).1 := by
  unfold advanceHandler
  rw [hh]
  cases hp : t.phase with
  | ready =>
    cases ha : m.handlers t.context.start.selector with
    | none => rfl
    | some h =>
      dsimp only
      rw [hi h ha now n.world m.world]
  | live | ended => rfl

theorem runJob_of_independent (hh : n.handlers = m.handlers)
    (hc : n.isCancelled t.context = m.isCancelled t.context)
    (hi : ∀ h, m.handlers t.context.start.selector = some h →
      ∀ now world other, (h.begin t.context now world).1 = (h.begin t.context now other).1)
    (first : Branch) (now : Instant) :
    (n.runJob first t now).1 = (m.runJob first t now).1 := by
  have hadvance := advanceHandler_of_independent hh hi now
  unfold runJob
  rw [hc]
  split
  · cases first with
    | handler => exact congrArg (dropJob · now) hadvance
    | cancel => rfl
  · exact hadvance

end Scheduler

namespace Flow.Interleaving

open Scheduler (Claim)

variable {x y z : Interleaving σ κ} {resourceId : String} {flags : List Bool} {c : Context}
  {t : Job κ} {o p : Opening} {i j k : Nat} {first : Branch} {now : Instant} {ids whole : List Id}
  {handlers : Selector → Option (Handler σ κ)} {world : σ}

def jobFlags (x : Interleaving σ κ) (resourceId : String) : List Bool :=
  (x.flows.jobs.map Job.context).map fun c => x.flows.keeps resourceId c.start

/-- A section as it is kept, at its place among the starts and jobs that are kept. -/
def kept? (resourceId : String) (x : Interleaving σ κ) (flags : List Bool) :
    Section → Option Section
  | .arrive s policy waiting =>
    if x.flows.keeps resourceId s then some (.arrive s policy waiting) else none
  | .leave k => (place flags k).map .leave
  | .answer k => (place flags k).map .answer
  | .conclude k => (place flags k).map .conclude
  | .cancel other => if other = resourceId then some (.cancel other) else none
  | .work i first now => (place (x.jobFlags resourceId) i).map (.work · first now)
  | .cleanUp i => (place (x.jobFlags resourceId) i).map .cleanUp

def nextFlags (resourceId : String) (x : Interleaving σ κ) (flags : List Bool) :
    Section → List Bool
  | .arrive s _ _ => flags ++ [x.flows.keeps resourceId s]
  | .conclude k => flags.eraseIdx k
  | _ => flags

def flagsAfter (resourceId : String) (x : Interleaving σ κ) (flags : List Bool) :
    List Section → List Bool
  | [] => flags
  | a :: as =>
    match x.perform a with
    | some y => flagsAfter resourceId y (nextFlags resourceId x flags a) as
    | none => flags

/-- What is left of a run when the sections that do not concern the resource are deleted, each with
the number that a start would draw there. -/
def project (resourceId : String) (x : Interleaving σ κ) (flags : List Bool) :
    List Section → List (Id × Section)
  | [] => []
  | a :: as =>
    match x.perform a with
    | some y =>
      ((kept? resourceId x flags a).map (x.flows.nextId, ·)).toList ++
        project resourceId y (nextFlags resourceId x flags a) as
    | none => []

/-- A section of a run whose numbers come from outside. No number comes twice. -/
def draw (z : Interleaving σ κ) (a : Id × Section) : Option (Interleaving σ κ) :=
  if z.flows.nextId ≤ a.1 then
    perform { z with flows := { z.flows with nextId := a.1 } } a.2
  else none

def drawAll (z : Interleaving σ κ) (as : List (Id × Section)) : Option (Interleaving σ κ) :=
  as.foldlM draw z

theorem keeps_step (s : Step x y) : y.flows.keeps = x.flows.keeps := by
  funext resourceId start
  rw [Scheduler.keeps, Scheduler.admission?_congr (handlers_step s), Scheduler.keeps]

/-- The flows of a state were there before, or the last start has brought them. -/
theorem mem_contexts_of_step (s : Step x y) (hc : c ∈ y.contexts) :
    c ∈ x.contexts ∨ c.id = x.flows.nextId := by
  cases s with
  | arrive s policy waiting =>
    simp only [contexts, arrive, Scheduler.jobs_claim, List.filterMap_append, List.mem_append,
      List.filterMap_cons, List.filterMap_nil] at hc
    rcases hc with (hc | hc) | hc
    · exact .inl (List.mem_append_left _ hc)
    · cases hclaim : (x.flows.claim s).1.context? with
      | none => simp [hclaim] at hc
      | some d =>
        have hcd : c = d := by simpa [hclaim] using hc
        exact .inr (by rw [hcd, Scheduler.context?_claim hclaim])
    · exact .inl (List.mem_append_right _ hc)
  | leave found | answer found =>
    refine .inl ?_
    simpa [contexts, found, List.filterMap_cons, Opening.leave, Opening.answer] using hc
  | @conclude before after o granted found resolved =>
    refine .inl ?_
    simp only [contexts, Scheduler.jobs_conclude, List.mem_append, List.filterMap_append,
      List.map_append, List.map_map, found] at hc ⊢
    rcases hc with (hc | hc) | hc | hc
    · exact .inl (.inl hc)
    · exact .inl (.inr (List.mem_filterMap.mpr (by
        obtain ⟨q, hq, hqc⟩ := List.mem_filterMap.mp hc
        exact ⟨q, List.mem_cons_of_mem _ hq, hqc⟩)))
    · exact .inr hc
    · refine .inl (.inr (List.mem_filterMap.mpr ⟨o, List.mem_cons_self, ?_⟩))
      cases granted with
      | false => simp [Claim.spawned] at hc
      | true => simpa [Claim.spawned, Function.comp_def] using hc
  | cancel => exact .inl (by simpa [contexts] using hc)
  | work => exact .inl (by simpa [contexts] using hc)
  | cleanUp => exact .inl (by simpa [contexts, Interleaving.cleanUp] using hc)

/-- Of the numbers in `whole`, the list `ids` has those of the flows that are kept. -/
structure Restricts (x : Interleaving σ κ) (resourceId : String) (ids whole : List Id) : Prop where
  subset : ids ⊆ whole
  kept : ∀ c ∈ x.contexts, x.flows.keeps resourceId c.start = true → c.id ∈ whole → c.id ∈ ids

theorem Restricts.step (h : x.Restricts resourceId ids whole) (s : Step x y)
    (hfresh : ∀ id ∈ whole, id < x.flows.nextId) : y.Restricts resourceId ids whole where
  subset := h.subset
  kept c hc hk hid := by
    rw [keeps_step s] at hk
    rcases mem_contexts_of_step s hc with hc | hc
    · exact h.kept c hc hk hid
    · exact absurd (hfresh _ hid) (hc ▸ Nat.lt_irrefl _)

theorem Restricts.append (h : x.Restricts resourceId ids whole) (extra : List Id) :
    x.Restricts resourceId (ids ++ extra) (whole ++ extra) where
  subset := List.append_subset.mpr ⟨List.Subset.trans h.subset (List.subset_append_left _ _),
    List.subset_append_right _ _⟩
  kept c hc hk hid := by
    rcases List.mem_append.mp hid with hid | hid
    · exact List.mem_append_left _ (h.kept c hc hk hid)
    · exact List.mem_append_right _ hid

theorem Restricts.cons (h : x.Restricts resourceId ids whole) (id : Id) :
    x.Restricts resourceId (id :: ids) (id :: whole) where
  subset := List.cons_subset_cons id h.subset
  kept c hc hk hid := by
    rcases List.mem_cons.mp hid with hid | hid
    · exact hid ▸ List.mem_cons_self
    · exact List.mem_cons_of_mem _ (h.kept c hc hk hid)

/-- A flow that is not kept is nothing to those that are. -/
theorem Restricts.cons_whole (h : x.Restricts resourceId ids whole) (hs : x.Sound)
    (hc : c ∈ x.contexts) (hk : x.flows.keeps resourceId c.start = false) :
    x.Restricts resourceId ids (c.id :: whole) where
  subset := List.subset_cons_of_subset _ h.subset
  kept d hd hkd hid := by
    rcases List.mem_cons.mp hid with hid | hid
    · rw [hs.accounts.eq_of_id hd hc hid, hk] at hkd
      cases hkd
    · exact h.kept d hd hkd hid

theorem Restricts.mem_iff (h : x.Restricts resourceId ids whole) (hc : c ∈ x.contexts)
    (hk : x.flows.keeps resourceId c.start = true) : c.id ∈ ids ↔ c.id ∈ whole :=
  ⟨fun hid => h.subset hid, h.kept c hc hk⟩

theorem marked_lt_step (h : x.Sound) (hm : ∀ id ∈ x.flows.marked, id < x.flows.nextId)
    (s : Step x y) : ∀ id ∈ y.flows.marked, id < x.flows.nextId := by
  cases s with
  | cancel other =>
    intro id hid
    cases hf : x.flows.registry.flow? other with
    | none =>
      rw [Scheduler.cancel, hf] at hid
      exact hm id hid
    | some e =>
      rw [Scheduler.cancel_eq hf] at hid
      rcases List.mem_append.mp hid with hid | hid
      · exact hm id hid
      · rw [List.mem_singleton.mp hid]
        exact h.accounts.id_lt (Registry.mem_of_flow? hf).1
  | arrive => simpa [arrive] using hm
  | cleanUp => simpa [Interleaving.cleanUp] using hm
  | leave | answer => exact hm
  | conclude | work => simpa using hm

theorem cleaned_lt_step (h : x.Sound) (s : Step x y) :
    ∀ id ∈ y.cleaned, id < x.flows.nextId := by
  intro id hid
  cases s with
  | cleanUp spawned _ _ =>
    rcases List.mem_cons.mp hid with rfl | hid
    · exact h.accounts.fresh _ (mem_contexts_of_job spawned)
    · exact h.id_lt_of_cleaned hid
  | _ => exact h.id_lt_of_cleaned hid

/-- The flag of a start in progress tells whether its flow is kept. -/
def Flagged (x : Interleaving σ κ) (resourceId : String) (b : Bool) (o : Opening) : Prop :=
  ∀ c, o.claim.context? = some c → x.flows.keeps resourceId c.start = b

structure Mirrors (x : Interleaving σ κ) (resourceId : String) (flags : List Bool)
    (z : Interleaving σ κ) : Prop where
  handlers : z.flows.handlers = x.flows.handlers
  registry : z.flows.registry = x.flows.registry.only resourceId
  jobs : z.flows.jobs = select (x.jobFlags resourceId) x.flows.jobs
  openings : z.openings = select flags x.openings
  flagged : List.Forall₂ (x.Flagged resourceId) flags x.openings
  marked : x.Restricts resourceId z.flows.marked x.flows.marked
  cleaned : x.Restricts resourceId z.cleaned x.cleaned
  nextId : z.flows.nextId ≤ x.flows.nextId

structure Numbered (x : Interleaving σ κ) : Prop where
  sound : x.Sound
  marked : ∀ id ∈ x.flows.marked, id < x.flows.nextId

theorem Numbered.step (h : x.Numbered) (s : Step x y) : y.Numbered where
  sound := h.sound.step s
  marked id hid :=
    Nat.lt_of_lt_of_le (marked_lt_step h.sound h.marked s id hid) (registry_subset_step s).1

/-- What has to be checked of a section that the mirror follows, or does not see. -/
theorem Mirrors.next {w : Interleaving σ κ} {later : List Bool}
    (h : x.Mirrors resourceId flags z) (hx : x.Numbered) (s : Step x y)
    (handlers : w.flows.handlers = z.flows.handlers)
    (registry : w.flows.registry = y.flows.registry.only resourceId)
    (jobs : w.flows.jobs = select (y.jobFlags resourceId) y.flows.jobs)
    (openings : w.openings = select later y.openings)
    (flagged : List.Forall₂ (x.Flagged resourceId) later y.openings)
    (marked : x.Restricts resourceId w.flows.marked y.flows.marked)
    (cleaned : x.Restricts resourceId w.cleaned y.cleaned)
    (nextId : w.flows.nextId ≤ y.flows.nextId) : y.Mirrors resourceId later w where
  handlers := by rw [handlers, h.handlers, handlers_step s]
  registry := registry
  jobs := jobs
  openings := openings
  flagged := by
    have hflagged : y.Flagged resourceId = x.Flagged resourceId := by
      funext b o
      rw [Flagged, keeps_step s, Flagged]
    rwa [hflagged]
  marked := marked.step s (marked_lt_step hx.sound hx.marked s)
  cleaned := cleaned.step s (cleaned_lt_step hx.sound s)
  nextId := nextId

theorem Mirrors.opening (h : x.Mirrors resourceId flags z) (hj : place flags k = some j)
    (ho : x.openings[k]? = some o) : z.openings[j]? = some o := by
  rw [h.openings]
  exact getElem?_select hj ho

theorem Mirrors.job (h : x.Mirrors resourceId flags z)
    (hj : place (x.jobFlags resourceId) i = some j) (ht : x.flows.jobs[i]? = some t) :
    z.flows.jobs[j]? = some t := by
  rw [h.jobs]
  exact getElem?_select hj ht

theorem Mirrors.skip (h : x.Mirrors resourceId flags z) :
    x.Mirrors resourceId flags
      { z with flows := { z.flows with nextId := x.flows.nextId } } :=
  { h with nextId := Nat.le_refl _ }

theorem Mirrors.arrive (h : x.Mirrors resourceId flags z) (hx : x.Numbered)
    (hn : z.flows.nextId = x.flows.nextId) {s : Start}
    (hk : x.flows.keeps resourceId s = true) (policy : UnwiredPolicy) (waiting : Bool) :
    (x.arrive s policy waiting).Mirrors resourceId (flags ++ [true])
      (z.arrive s policy waiting) := by
  obtain ⟨hclaim, hreg, hnext⟩ := Scheduler.claim_of_keeps h.handlers h.registry hn hk
  have hlen := h.flagged.length_eq
  refine h.next hx (.arrive s policy waiting) (by simp [Interleaving.arrive]) hreg ?_ ?_ ?_ ?_
    h.cleaned (Nat.le_of_eq hnext)
  · simpa [Interleaving.arrive, jobFlags, Scheduler.keeps, Scheduler.admission?] using h.jobs
  · simp [Interleaving.arrive, select_append hlen, h.openings, hclaim]
  · refine forall₂_concat h.flagged fun c hc => ?_
    rw [Scheduler.context?_claim hc]
    exact hk
  · simpa [Interleaving.arrive] using h.marked

theorem Mirrors.ignore_arrive (h : x.Mirrors resourceId flags z) (hx : x.Numbered) {s : Start}
    (hk : x.flows.keeps resourceId s = false) (policy : UnwiredPolicy) (waiting : Bool) :
    (x.arrive s policy waiting).Mirrors resourceId (flags ++ [false]) z := by
  have hlen := h.flagged.length_eq
  have hstep : Step x (x.arrive s policy waiting) := .arrive s policy waiting
  refine h.next hx hstep rfl ?_ ?_ ?_ ?_ ?_ h.cleaned
    (Nat.le_trans h.nextId (registry_subset_step hstep).1)
  · exact h.registry.trans (Scheduler.only_claim hk).symm
  · simpa [Interleaving.arrive, jobFlags, Scheduler.keeps, Scheduler.admission?] using h.jobs
  · simp [Interleaving.arrive, select_append hlen, h.openings]
  · refine forall₂_concat h.flagged fun c hc => ?_
    rw [Scheduler.context?_claim hc]
    exact hk
  · simpa [Interleaving.arrive] using h.marked

/-- Whatever happens to the signal of a start, its flow stays the same. -/
theorem Mirrors.flagged_set (h : x.Mirrors resourceId flags z) (ho : x.openings[k]? = some o)
    (hp : p.claim = o.claim) :
    List.Forall₂ (x.Flagged resourceId) flags (x.openings.set k p) := by
  obtain ⟨b, hb, hflag⟩ := forall₂_getElem? h.flagged ho
  refine forall₂_set h.flagged fun d hd c hc => ?_
  rw [← Option.some.inj (hb.symm.trans hd)]
  exact hflag c (hp ▸ hc)

theorem Mirrors.replace (h : x.Mirrors resourceId flags z) (hx : x.Numbered)
    (ho : x.openings[k]? = some o) (hp : p.claim = o.claim) (hj : place flags k = some j)
    (s : Step x { x with openings := x.openings.set k p }) :
    Mirrors { x with openings := x.openings.set k p } resourceId flags
      { z with openings := z.openings.set j p } := by
  refine h.next hx s rfl h.registry h.jobs ?_ (h.flagged_set ho hp) h.marked h.cleaned h.nextId
  rw [select_set hj, h.openings]

theorem Mirrors.ignore_replace (h : x.Mirrors resourceId flags z) (hx : x.Numbered)
    (ho : x.openings[k]? = some o) (hp : p.claim = o.claim) (hj : place flags k = none)
    (s : Step x { x with openings := x.openings.set k p }) :
    Mirrors { x with openings := x.openings.set k p } resourceId flags z := by
  refine h.next hx s rfl h.registry h.jobs ?_ (h.flagged_set ho hp) h.marked h.cleaned h.nextId
  rw [select_set_none hj, h.openings]

/-- The last section of a start does nothing, spawns a job or gives a resource back. -/
theorem conclude_effect (granted : Bool) (claim : Claim) :
    (∀ m : Scheduler σ κ, m.conclude granted claim = m) ∨
    (∃ c, claim.context? = some c ∧ ∀ m : Scheduler σ κ, m.conclude granted claim = m.spawn c) ∨
    ∃ c, claim.context? = some c ∧ claim = .claimed c ∧
      ∀ m : Scheduler σ κ, m.conclude granted claim = m.release c := by
  cases claim with
  | noHandler | busy => exact .inl fun _ => rfl
  | claimed c =>
    cases granted with
    | false => exact .inr (.inr ⟨c, rfl, rfl, fun _ => rfl⟩)
    | true => exact .inr (.inl ⟨c, rfl, fun _ => rfl⟩)
  | unchecked c =>
    cases granted with
    | false => exact .inl fun _ => rfl
    | true => exact .inr (.inl ⟨c, rfl, fun _ => rfl⟩)

theorem select_spawn (x : Interleaving σ κ) (resourceId : String) (c : Context) :
    select (jobFlags { x with flows := x.flows.spawn c } resourceId) (x.flows.spawn c).jobs =
      select (x.jobFlags resourceId) x.flows.jobs ++
        if x.flows.keeps resourceId c.start then [⟨c, .ready⟩] else [] := by
  have hlen : (x.jobFlags resourceId).length = x.flows.jobs.length := by simp [jobFlags]
  rw [← select_append hlen]
  simp [jobFlags, Scheduler.spawn, Scheduler.keeps, Scheduler.admission?]

theorem Mirrors.conclude (h : x.Mirrors resourceId flags z) (hx : x.Numbered) {granted : Bool}
    (ho : x.openings[k]? = some o) (hj : place flags k = some j)
    (s : Step x { x with
      flows := x.flows.conclude granted o.claim, openings := x.openings.eraseIdx k }) :
    Mirrors
      { x with flows := x.flows.conclude granted o.claim, openings := x.openings.eraseIdx k }
      resourceId (flags.eraseIdx k)
      { z with
        flows := z.flows.conclude granted o.claim, openings := z.openings.eraseIdx j } := by
  obtain ⟨b, hb, hflag⟩ := forall₂_getElem? h.flagged ho
  obtain rfl : b = true := Option.some.inj (hb.symm.trans (getElem?_of_place hj))
  have hopen : z.openings.eraseIdx j = select (flags.eraseIdx k) (x.openings.eraseIdx k) := by
    rw [select_eraseIdx hj, h.openings]
  refine h.next hx s (by simp) ?_ ?_ hopen (forall₂_eraseIdx h.flagged k) (by simpa using h.marked)
    h.cleaned (by simpa using h.nextId)
  · dsimp only
    rcases conclude_effect (σ := σ) (κ := κ) granted o.claim with
      he | ⟨c, _, he⟩ | ⟨c, hc, _, he⟩ <;> rw [he, he]
    · exact h.registry
    · exact h.registry
    · have hid := (Scheduler.keeps_iff.mp (hflag c hc)).1
      simp only [Scheduler.release, hid, h.registry, Registry.only_release]
  · dsimp only
    rcases conclude_effect (σ := σ) (κ := κ) granted o.claim with
      he | ⟨c, hc, he⟩ | ⟨c, _, _, he⟩ <;> rw [he, he]
    · exact h.jobs
    · have hspawn := select_spawn x resourceId c
      rw [hflag c hc, if_pos rfl, ← h.jobs] at hspawn
      exact hspawn.symm
    · exact h.jobs

theorem Mirrors.ignore_conclude (h : x.Mirrors resourceId flags z) (hx : x.Numbered)
    {granted : Bool} (ho : x.openings[k]? = some o) (hj : place flags k = none)
    (s : Step x { x with
      flows := x.flows.conclude granted o.claim, openings := x.openings.eraseIdx k }) :
    Mirrors
      { x with flows := x.flows.conclude granted o.claim, openings := x.openings.eraseIdx k }
      resourceId (flags.eraseIdx k) z := by
  obtain ⟨b, hb, hflag⟩ := forall₂_getElem? h.flagged ho
  obtain rfl : b = false := by
    cases b with
    | false => rfl
    | true => exact absurd hb (place_eq_none.mp hj)
  have hopen : z.openings = select (flags.eraseIdx k) (x.openings.eraseIdx k) := by
    rw [select_eraseIdx_none hj, h.openings]
  refine h.next hx s rfl ?_ ?_ hopen (forall₂_eraseIdx h.flagged k) (by simpa using h.marked)
    h.cleaned (by simpa using h.nextId)
  · dsimp only
    rcases conclude_effect (σ := σ) (κ := κ) granted o.claim with
      he | ⟨c, _, he⟩ | ⟨c, hc, hclaim, he⟩ <;> rw [he]
    · exact h.registry
    · exact h.registry
    · -- The resource that is given back is another one, or else its flow would be kept.
      have hx' : x.isExclusive c = true := by
        have hfits := hx.sound.fits o (List.mem_of_getElem? ho)
        rwa [hclaim] at hfits
      have hne : c.start.resource.id ≠ resourceId := by
        intro hid
        have hk := (Scheduler.keeps_of_exclusive (by simpa [isExclusive] using hx')).mpr hid
        rw [hflag c hc] at hk
        cases hk
      exact h.registry.trans (Registry.only_release_of_ne hne).symm
  · dsimp only
    rcases conclude_effect (σ := σ) (κ := κ) granted o.claim with
      he | ⟨c, hc, he⟩ | ⟨c, _, _, he⟩ <;> rw [he]
    · exact h.jobs
    · have hspawn := select_spawn x resourceId c
      rw [hflag c hc, if_neg Bool.false_ne_true, List.append_nil, ← h.jobs] at hspawn
      exact hspawn.symm
    · exact h.jobs

theorem Mirrors.cancel (h : x.Mirrors resourceId flags z) (hx : x.Numbered) :
    (x.cancel resourceId).Mirrors resourceId flags (z.cancel resourceId) := by
  have hflow : z.flows.registry.flow? resourceId = x.flows.registry.flow? resourceId := by
    rw [h.registry, Registry.flow?_only]
  refine h.next hx (.cancel resourceId) (by simp) (by simpa using h.registry) ?_ h.openings
    h.flagged ?_ h.cleaned (by simpa using h.nextId)
  · simpa [jobFlags, Scheduler.keeps, Scheduler.admission?] using h.jobs
  · cases hf : x.flows.registry.flow? resourceId with
    | none => simpa [Scheduler.cancel, hflow, hf] using h.marked
    | some e => simpa [Scheduler.cancel, hflow, hf] using h.marked.append [e.id]

theorem Mirrors.ignore_cancel (h : x.Mirrors resourceId flags z) (hx : x.Numbered) {other : String}
    (hne : other ≠ resourceId) : (x.cancel other).Mirrors resourceId flags z := by
  refine h.next hx (.cancel other) rfl (by simpa using h.registry) ?_ h.openings h.flagged
    ⟨?_, ?_⟩ h.cleaned (by simpa using h.nextId)
  · simpa [jobFlags, Scheduler.keeps, Scheduler.admission?] using h.jobs
  · exact List.Subset.trans h.marked.subset (Scheduler.marked_subset_cancel other)
  · -- No kept flow gets the mark, since all of them are flows of the resource.
    intro c hc hk hid
    have hcr : c.start.resource.id ≠ other := by
      rw [(Scheduler.keeps_iff.mp hk).1]
      exact hne.symm
    have hlater : (x.flows.cancel other).isCancelled c = true := by
      simpa [Scheduler.isCancelled] using hid
    rw [hx.sound.isCancelled_cancel hc (.inl hcr)] at hlater
    exact h.marked.kept c hc hk (by simpa [Scheduler.isCancelled] using hlater)

theorem Mirrors.isCancelled_eq (h : x.Mirrors resourceId flags z) (hc : c ∈ x.contexts)
    (hk : x.flows.keeps resourceId c.start = true) :
    z.flows.isCancelled c = x.flows.isCancelled c := by
  rw [Bool.eq_iff_iff]
  simpa [Scheduler.isCancelled] using h.marked.mem_iff hc hk

theorem getElem?_jobFlags (ht : x.flows.jobs[i]? = some t) :
    (x.jobFlags resourceId)[i]? = some (x.flows.keeps resourceId t.context.start) := by
  simp [jobFlags, ht]

theorem keeps_of_place (ht : x.flows.jobs[i]? = some t)
    (hj : place (x.jobFlags resourceId) i = some j) :
    x.flows.keeps resourceId t.context.start = true :=
  Option.some.inj ((getElem?_jobFlags ht).symm.trans (getElem?_of_place hj))

theorem not_keeps_of_place (ht : x.flows.jobs[i]? = some t)
    (hj : place (x.jobFlags resourceId) i = none) :
    x.flows.keeps resourceId t.context.start = false := by
  have hflag := place_eq_none.mp hj
  rw [getElem?_jobFlags ht] at hflag
  simpa using hflag

theorem jobFlags_work : jobFlags { x with flows := x.flows.work i first now } resourceId =
    x.jobFlags resourceId := by
  simp [jobFlags, -List.map_map, Scheduler.keeps, Scheduler.admission?]

theorem Mirrors.work (h : x.Mirrors resourceId flags z) (hx : x.Numbered)
    (hi : Independent x.flows.handlers resourceId) (ht : x.flows.jobs[i]? = some t)
    (hl : t.isLive = true) (hj : place (x.jobFlags resourceId) i = some j) :
    z.flows.jobs[j]? = some t ∧
      Mirrors { x with flows := x.flows.work i first now } resourceId flags
        { z with flows := z.flows.work j first now } := by
  have hz := h.job hj ht
  obtain ⟨hid, hchecked⟩ := Scheduler.keeps_iff.mp (keeps_of_place ht hj)
  have hcontext : t.context ∈ x.contexts := mem_contexts_of_job (List.mem_of_getElem? ht)
  have hown : ∀ a, x.flows.handlers t.context.start.selector = some a →
      ∀ now world other, (a.begin t.context now world).1 = (a.begin t.context now other).1 := by
    intro a ha
    have hexclusive : a.admission = .exclusive := by
      cases hadm : a.admission with
      | exclusive => rfl
      | unchecked => exact absurd (by simp [Scheduler.admission?, ha, hadm]) hchecked
    exact hi _ a ha hexclusive t.context hid
  have hjob := Scheduler.runJob_of_independent h.handlers
    (h.isCancelled_eq hcontext (keeps_of_place ht hj)) hown first now
  refine ⟨hz, h.next hx (.work i first now) (by simp) (by simpa using h.registry) ?_ h.openings
    h.flagged (by simpa using h.marked) h.cleaned (by simpa using h.nextId)⟩
  rw [jobFlags_work]
  dsimp only
  rw [Scheduler.work_live hz hl, Scheduler.work_live ht hl, select_set hj, hjob, h.jobs]

theorem Mirrors.ignore_work (h : x.Mirrors resourceId flags z) (hx : x.Numbered)
    (ht : x.flows.jobs[i]? = some t) (hl : t.isLive = true)
    (hj : place (x.jobFlags resourceId) i = none) :
    Mirrors { x with flows := x.flows.work i first now } resourceId flags z := by
  refine h.next hx (.work i first now) rfl (by simpa using h.registry) ?_ h.openings
    h.flagged (by simpa using h.marked) h.cleaned (by simpa using h.nextId)
  rw [jobFlags_work]
  dsimp only
  rw [Scheduler.work_live ht hl, select_set_none hj, h.jobs]

/-- The clean-up of a flow outside admission control removes nothing. -/
theorem Sound.release_of_unchecked (h : x.Sound) (hc : c ∈ x.contexts)
    (hx : x.isExclusive c = false) :
    x.flows.registry.release c.start.resource.id c.id = x.flows.registry := by
  unfold Registry.release
  split
  next e hf =>
    split
    next hi =>
      obtain ⟨d, hd, hh, rfl⟩ := h.accounts.mem_iff.mp (Registry.mem_of_flow? hf).1
      have hcd : d = c := h.accounts.eq_of_id hd hc hi
      have hexclusive : x.isExclusive c = true := hcd ▸ (Bool.and_eq_true_iff.mp hh).1
      rw [hx] at hexclusive
      cases hexclusive
    next => rfl
  next => rfl

theorem registry_cleanUp (he : t.hasExited = true) : (x.cleanUp t).flows.registry =
    x.flows.registry.release t.context.start.resource.id t.context.id := by
  rw [Interleaving.cleanUp, Scheduler.cleanUp_eq, if_pos he]
  rfl

theorem handlers_cleanUp : (x.cleanUp t).flows.handlers = x.flows.handlers := by
  rw [Interleaving.cleanUp, Scheduler.cleanUp_eq]
  split <;> rfl

theorem jobFlags_cleanUp : (x.cleanUp t).jobFlags resourceId = x.jobFlags resourceId := by
  have hh : (x.flows.cleanUp t).handlers = x.flows.handlers := handlers_cleanUp
  simp [jobFlags, Interleaving.cleanUp, Scheduler.keeps, Scheduler.admission?, hh]

theorem Mirrors.cleanUp (h : x.Mirrors resourceId flags z) (hx : x.Numbered)
    (ht : x.flows.jobs[i]? = some t) (he : t.hasExited = true) (hn : t.context.id ∉ x.cleaned)
    (hj : place (x.jobFlags resourceId) i = some j) :
    z.flows.jobs[j]? = some t ∧ t.context.id ∉ z.cleaned ∧
      (x.cleanUp t).Mirrors resourceId flags (z.cleanUp t) := by
  have hz := h.job hj ht
  have hid := (Scheduler.keeps_iff.mp (keeps_of_place ht hj)).1
  refine ⟨hz, fun hid => hn (h.cleaned.subset hid),
    h.next hx (.cleanUp (List.mem_of_getElem? ht) he hn) handlers_cleanUp ?_ ?_ h.openings
      h.flagged (by simpa [Interleaving.cleanUp] using h.marked) (h.cleaned.cons _)
      (by simpa [Interleaving.cleanUp] using h.nextId)⟩
  · rw [registry_cleanUp he, registry_cleanUp he, hid, h.registry, Registry.only_release]
  · rw [jobFlags_cleanUp]
    simpa [Interleaving.cleanUp] using h.jobs

theorem Mirrors.ignore_cleanUp (h : x.Mirrors resourceId flags z) (hx : x.Numbered)
    (ht : x.flows.jobs[i]? = some t) (he : t.hasExited = true) (hn : t.context.id ∉ x.cleaned)
    (hj : place (x.jobFlags resourceId) i = none) :
    (x.cleanUp t).Mirrors resourceId flags z := by
  have hk := not_keeps_of_place ht hj
  have hcontext : t.context ∈ x.contexts := mem_contexts_of_job (List.mem_of_getElem? ht)
  refine h.next hx (.cleanUp (List.mem_of_getElem? ht) he hn) rfl ?_ ?_ h.openings
    h.flagged (by simpa [Interleaving.cleanUp] using h.marked)
    (h.cleaned.cons_whole hx.sound hcontext hk) (by simpa [Interleaving.cleanUp] using h.nextId)
  · rw [registry_cleanUp he]
    by_cases hid : t.context.start.resource.id = resourceId
    · -- A job of the resource that is not kept has no entry to remove.
      have hunchecked : x.isExclusive t.context = false := by
        rw [← Bool.not_eq_true]
        intro hexclusive
        rw [(Scheduler.keeps_of_exclusive (by simpa [isExclusive] using hexclusive)).mpr hid] at hk
        cases hk
      rw [hx.sound.release_of_unchecked hcontext hunchecked, h.registry]
    · rw [Registry.only_release_of_ne hid, h.registry]
  · rw [jobFlags_cleanUp]
    simpa [Interleaving.cleanUp] using h.jobs

theorem drawAll_cons (z : Interleaving σ κ) (a : Id × Section) (as : List (Id × Section)) :
    z.drawAll (a :: as) = (z.draw a).bind (drawAll · as) := List.foldlM_cons

theorem drawAll_append (z : Interleaving σ κ) (as bs : List (Id × Section)) :
    z.drawAll (as ++ bs) = (z.drawAll as).bind (drawAll · bs) := List.foldlM_append

theorem drawAll_singleton {w : Interleaving σ κ} {id : Id} {a : Section}
    (hle : z.flows.nextId ≤ id)
    (ha : perform { z with flows := { z.flows with nextId := id } } a = some w) :
    z.drawAll [(id, a)] = some w := by
  rw [drawAll_cons, draw, if_pos hle, ha]
  rfl

/-- Every section of the whole run is followed by the mirror or ignored. -/
theorem Mirrors.perform (h : x.Mirrors resourceId flags z) (hx : x.Numbered)
    (hi : Independent x.flows.handlers resourceId) {a : Section} (ha : x.perform a = some y) :
    ∃ w, z.drawAll ((kept? resourceId x flags a).map (x.flows.nextId, ·)).toList = some w ∧
      y.Mirrors resourceId (nextFlags resourceId x flags a) w := by
  have hz := h.skip
  have hs := step_of_perform ha
  cases a with
  | arrive s policy waiting =>
    cases ha
    cases hk : x.flows.keeps resourceId s with
    | false => exact ⟨z, by simp [kept?, hk, drawAll], by
        simpa [nextFlags, hk] using h.ignore_arrive hx hk policy waiting⟩
    | true =>
      refine ⟨_, ?_, by simpa [nextFlags, hk] using hz.arrive hx rfl hk policy waiting⟩
      simpa [kept?, hk] using drawAll_singleton h.nextId rfl
  | leave k =>
    obtain ⟨o, ho, rfl⟩ := perform_leave.mp ha
    cases hj : place flags k with
    | none => exact ⟨z, by simp [kept?, hj, drawAll], h.ignore_replace hx ho rfl hj hs⟩
    | some j =>
      have hzo := h.opening hj ho
      refine ⟨_, ?_, hz.replace hx ho rfl hj hs⟩
      simpa [kept?, hj] using drawAll_singleton h.nextId (perform_leave.mpr ⟨o, hzo, rfl⟩)
  | answer k =>
    obtain ⟨o, ho, unresolved, rfl⟩ := perform_answer.mp ha
    cases hj : place flags k with
    | none => exact ⟨z, by simp [kept?, hj, drawAll], h.ignore_replace hx ho rfl hj hs⟩
    | some j =>
      have hzo := h.opening hj ho
      refine ⟨_, ?_, hz.replace hx ho rfl hj hs⟩
      simpa [kept?, hj] using
        drawAll_singleton h.nextId (perform_answer.mpr ⟨o, hzo, unresolved, rfl⟩)
  | conclude k =>
    obtain ⟨o, granted, ho, resolved, rfl⟩ := perform_conclude.mp ha
    cases hj : place flags k with
    | none => exact ⟨z, by simp [kept?, hj, drawAll], h.ignore_conclude hx ho hj hs⟩
    | some j =>
      have hzo := h.opening hj ho
      refine ⟨_, ?_, hz.conclude hx ho hj hs⟩
      simpa [kept?, hj] using
        drawAll_singleton h.nextId (perform_conclude.mpr ⟨o, granted, hzo, resolved, rfl⟩)
  | cancel other =>
    cases ha
    by_cases hr : other = resourceId
    · subst hr
      refine ⟨_, ?_, hz.cancel hx⟩
      simpa [kept?] using drawAll_singleton h.nextId rfl
    · exact ⟨z, by simp [kept?, hr, drawAll], h.ignore_cancel hx hr⟩
  | work i first now =>
    obtain ⟨t, ht, hl, rfl⟩ := perform_work.mp ha
    cases hj : place (x.jobFlags resourceId) i with
    | none => exact ⟨z, by simp [kept?, hj, drawAll], h.ignore_work hx ht hl hj⟩
    | some j =>
      obtain ⟨hzt, hm⟩ := hz.work hx hi ht hl hj
      refine ⟨_, ?_, hm⟩
      simpa [kept?, hj] using drawAll_singleton h.nextId (perform_work.mpr ⟨t, hzt, hl, rfl⟩)
  | cleanUp i =>
    obtain ⟨t, ht, ⟨he, hn⟩, rfl⟩ := perform_cleanUp.mp ha
    cases hj : place (x.jobFlags resourceId) i with
    | none => exact ⟨z, by simp [kept?, hj, drawAll], h.ignore_cleanUp hx ht he hn hj⟩
    | some j =>
      obtain ⟨hzt, hnz, hm⟩ := hz.cleanUp hx ht he hn hj
      refine ⟨_, ?_, hm⟩
      simpa [kept?, hj] using
        drawAll_singleton h.nextId (perform_cleanUp.mpr ⟨t, hzt, ⟨he, hnz⟩, rfl⟩)

theorem Mirrors.performAll (h : x.Mirrors resourceId flags z) (hx : x.Numbered)
    (hi : Independent x.flows.handlers resourceId) {as : List Section}
    (ha : x.performAll as = some y) :
    ∃ w, z.drawAll (project resourceId x flags as) = some w ∧
      y.Mirrors resourceId (flagsAfter resourceId x flags as) w := by
  induction as generalizing x flags z with
  | nil =>
    cases ha
    exact ⟨z, rfl, h⟩
  | cons a as ih =>
    rw [performAll_cons, Option.bind_eq_some_iff] at ha
    obtain ⟨v, hv, ha⟩ := ha
    have hs := step_of_perform hv
    obtain ⟨u, hu, hm⟩ := h.perform hx hi hv
    obtain ⟨w, hw, hlast⟩ := ih hm (hx.step hs) (by rwa [handlers_step hs]) ha
    refine ⟨w, ?_, by simpa [flagsAfter, hv] using hlast⟩
    rw [project, hv]
    dsimp only
    rw [drawAll_append, hu]
    exact hw

theorem project_append (x : Interleaving σ κ) (resourceId : String) (flags : List Bool)
    {as : List Section} (ha : x.performAll as = some y) (bs : List Section) :
    project resourceId x flags (as ++ bs) =
      project resourceId x flags as ++
        project resourceId y (flagsAfter resourceId x flags as) bs := by
  induction as generalizing x flags with
  | nil =>
    cases ha
    rfl
  | cons a as ih =>
    rw [performAll_cons, Option.bind_eq_some_iff] at ha
    obtain ⟨v, hv, ha⟩ := ha
    simp [project, flagsAfter, hv, ih v _ ha]

theorem numbered_initial (handlers : Selector → Option (Handler σ κ)) (world : σ) :
    Numbered (⟨{ handlers, world }, [], []⟩ : Interleaving σ κ) :=
  ⟨sound_initial handlers world, by simp⟩

theorem mirrors_initial (handlers : Selector → Option (Handler σ κ)) (world other : σ)
    (resourceId : String) :
    Mirrors ⟨{ handlers, world }, [], []⟩ resourceId [] ⟨{ handlers, world := other }, [], []⟩ where
  handlers := rfl
  registry := rfl
  jobs := rfl
  openings := rfl
  flagged := .nil
  marked := ⟨List.Subset.refl _, by simp⟩
  cleaned := ⟨List.Subset.refl _, by simp⟩
  nextId := Nat.le_refl _

end Flow.Interleaving

end ClusterControl
