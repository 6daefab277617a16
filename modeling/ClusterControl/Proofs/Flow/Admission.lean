import ClusterControl.Proofs.Flow.Interleaving
import ClusterControl.Proofs.Flow.Request

/-!
# Admission, message by message

Here a scheduler takes one message, or lets one job run, as a single step. The history of a run is
the list of the flows that were accepted and of the clean-ups of jobs. It determines the registry:
the entries are those of the accepted flows that have not cleaned up, in the order of their
acceptance. So it also determines the answer to every further start.
-/

namespace ClusterControl.Scheduler

open ClusterControl.Flow

variable {σ κ : Type}

/-- Job number `i` runs at an instant and cleans up once it has ended. -/
def turn (m : Scheduler σ κ) (i : Nat) (first : Branch) (now : Instant) : Scheduler σ κ :=
  match m.jobs[i]? with
  | some t => if t.isLive then (m.work i first now).cleanUp (m.runJob first t now).1 else m
  | none => m

inductive Event where
  | start (start : Start) (config : DispatcherConfig) (now : Instant) (waiting : Bool)
  | cancel (resourceId : String)
  | turn (i : Nat) (first : Branch) (now : Instant)

def step (m : Scheduler σ κ) : Event → Scheduler σ κ
  | .start s config _ waiting => (m.start s config.unwired waiting).2
  | .cancel resourceId => m.cancel resourceId
  | .turn i first now => m.turn i first now

def run (m : Scheduler σ κ) (es : List Event) : Scheduler σ κ := es.foldl step m

inductive Record where
  | accepted (c : Context)
  | cleaned (c : Context)
deriving DecidableEq, Repr

def records (m : Scheduler σ κ) : Event → List Record
  | .start s _ _ waiting =>
    match (m.claim s).1 with
    | .claimed c => if waiting then [.accepted c] else []
    | _ => []
  | .cancel _ => []
  | .turn i first now =>
    match m.jobs[i]? with
    | some t =>
      if t.isLive && (m.runJob first t now).1.hasExited then [.cleaned t.context] else []
    | none => []

def history (m : Scheduler σ κ) : List Event → List Record
  | [] => []
  | e :: es => m.records e ++ history (m.step e) es

/-- The accepted flows that have not cleaned up, after one more record. -/
def note (cs : List Context) : Record → List Context
  | .accepted c => cs ++ [c]
  | .cleaned c => cs.filter (· != c)

/-- The accepted flows of a history that have not cleaned up, in the order of their acceptance. -/
def outstanding (rs : List Record) : List Context := rs.foldl note []

/-- A scheduler between two messages: no start is in progress, the jobs are in the order of their
numbers, and `cs` are the flows that have their resources. -/
structure Tidy (m : Scheduler σ κ) (cleaned : List Id) (cs : List Context) : Prop where
  sound : Interleaving.Sound ⟨m, [], cleaned⟩
  ordered : (m.jobs.map Job.context).Pairwise (·.id < ·.id)
  outstanding : cs = (m.jobs.map Job.context).filter (Interleaving.holds ⟨m, [], cleaned⟩)

variable {m : Scheduler σ κ} {cleaned : List Id} {cs : List Context} {s : Start}
  {i : Nat} {first : Branch} {now : Instant}

theorem tidy_initial (handlers : Selector → Option (Handler σ κ)) (world : σ) :
    Tidy ({ handlers, world } : Scheduler σ κ) [] [] :=
  ⟨Interleaving.sound_initial handlers world, .nil, rfl⟩

/-- The registry lists the flows that have their resources, in the order of their numbers. -/
theorem Tidy.registry_eq (h : Tidy m cleaned cs) : m.registry = cs.map Entry.ofContext := by
  have ha := h.sound.accounts
  have hsorted : (cs.map Entry.ofContext).Pairwise (·.id < ·.id) := by
    rw [h.outstanding, List.pairwise_map]
    exact h.ordered.filter _
  have hperm : m.registry.Perm (cs.map Entry.ofContext) := by
    rw [h.outstanding]
    exact ha.registered
  exact hperm.eq_of_pairwise (fun a b _ _ hab hba => absurd hab (Nat.lt_asymm hba))
    ha.ordered hsorted

theorem Tidy.isRunning_iff (h : Tidy m cleaned cs) (resourceId : String) :
    m.isRunning resourceId = true ↔ ∃ c ∈ cs, c.start.resource.id = resourceId := by
  rw [Scheduler.isRunning, Registry.isRunning_iff, h.registry_eq]
  simp [Entry.ofContext]

theorem Tidy.unique (h : Tidy m cleaned cs) : (cs.map (·.start.resource.id)).Nodup := by
  have hu : (m.registry.map Entry.resourceId).Nodup := h.sound.accounts.unique
  rwa [h.registry_eq, List.map_map] at hu

/-- A whole start is its three sections in a row. -/
theorem sound_start (h : Interleaving.Sound ⟨m, [], cleaned⟩) (s : Start)
    (policy : UnwiredPolicy) (waiting : Bool) :
    Interleaving.Sound ⟨(m.start s policy waiting).2, [], cleaned⟩ :=
  ((h.arrive s policy waiting).replace (show _ = [] ++ _ :: [] from rfl) rfl).conclude
    (show _ = [] ++ _ :: [] from rfl) _

theorem holds_quiet {n : Scheduler σ κ} (hh : n.handlers = m.handlers) :
    Interleaving.holds ⟨n, [], cleaned⟩ = Interleaving.holds ⟨m, [], cleaned⟩ :=
  Interleaving.holds_congr hh rfl

theorem Tidy.holds_new (h : Tidy m cleaned cs) (s : Start) :
    Interleaving.holds ⟨m, [], cleaned⟩ ⟨m.nextId, s⟩ =
      (m.admission? s.selector == some .exclusive) := by
  have hnew : m.nextId ∉ cleaned := fun hid => Nat.lt_irrefl _ (h.sound.id_lt_of_cleaned hid)
  simp [Interleaving.holds, Interleaving.isExclusive, hnew]

/-- A start is recorded when it spawns a flow under admission control. -/
theorem Tidy.note_start (h : Tidy m cleaned cs) (s : Start) (config : DispatcherConfig)
    (now : Instant) (waiting : Bool) :
    (m.records (.start s config now waiting)).foldl note cs =
      cs ++ ((m.claim s).1.spawned (m.granted s config.unwired waiting)).filter
        (Interleaving.holds ⟨m, [], cleaned⟩) := by
  rcases claim_cases m s with ⟨_, hc⟩ | ⟨ha, hc⟩ | ⟨_, _, hc⟩ | ⟨ha, _, hc⟩
  · simp [records, hc, Claim.spawned, Claim.context?]
  · cases hg : m.granted s config.unwired waiting <;>
      simp [records, hc, Claim.spawned, Claim.context?, h.holds_new, ha]
  · simp [records, hc, Claim.spawned, Claim.context?]
  · cases waiting <;>
      simp [records, hc, granted, Claim.spawned, Claim.context?, Claim.resolution,
        Resolution.grants, h.holds_new, ha, note]

theorem Tidy.start (h : Tidy m cleaned cs) (s : Start) (config : DispatcherConfig)
    (now : Instant) (waiting : Bool) :
    Tidy (m.start s config.unwired waiting).2 cleaned
      ((m.records (.start s config now waiting)).foldl note cs) := by
  refine ⟨sound_start h.sound s config.unwired waiting, ?_, ?_⟩
  · rw [contexts_start]
    rcases spawned_cases m s (m.granted s config.unwired waiting) with hs | hs <;> rw [hs]
    · simpa using h.ordered
    · refine List.pairwise_append.mpr ⟨h.ordered, List.pairwise_singleton _ _, ?_⟩
      intro c hc d hd
      rw [List.mem_singleton.mp hd]
      exact h.sound.accounts.fresh c hc
  · rw [h.note_start, contexts_start, holds_quiet (handlers_start _ _), List.filter_append,
      ← h.outstanding]

/-- A job runs to its end and cleans up, or goes on, or there is nothing to run. -/
theorem turn_cases (m : Scheduler σ κ) (i : Nat) (first : Branch) (now : Instant) :
    (m.turn i first now = m.work i first now ∧ m.records (.turn i first now) = []) ∨
    ∃ t u, t ∈ m.jobs ∧ u ∈ (m.work i first now).jobs ∧ u.context = t.context ∧
      u.hasExited = true ∧ m.turn i first now = (m.work i first now).release t.context ∧
      m.records (.turn i first now) = [.cleaned t.context] := by
  cases ht : m.jobs[i]? with
  | none => exact .inl (by simp [turn, work, records, ht])
  | some t =>
    cases hl : t.isLive with
    | false => exact .inl (by simp [turn, work, records, ht, hl])
    | true =>
      cases he : (m.runJob first t now).1.hasExited with
      | false => exact .inl (by simp [turn, records, ht, hl, cleanUp_eq, he])
      | true =>
        obtain ⟨hi, _⟩ := List.getElem?_eq_some_iff.mp ht
        refine .inr ⟨t, (m.runJob first t now).1, List.mem_of_getElem? ht, ?_,
          context_runJob first t now, he, ?_, ?_⟩
        · rw [work_live ht hl]
          exact List.mem_set hi _
        · simp [turn, ht, hl, cleanUp_eq, he]
        · simp [records, ht, hl, he]

theorem Tidy.turn (h : Tidy m cleaned cs) (i : Nat) (first : Branch) (now : Instant) :
    ∃ later, Tidy (m.turn i first now) later ((m.records (.turn i first now)).foldl note cs) := by
  have hw := h.sound.work i first now
  rcases turn_cases m i first now with ⟨ht, hr⟩ | ⟨t, u, hj, hu, hc, he, ht, hr⟩ <;> rw [ht, hr]
  · refine ⟨cleaned, hw, by simpa using h.ordered, ?_⟩
    rw [contexts_work, holds_quiet handlers_work]
    exact h.outstanding
  · have hs := hw.cleanUp hu he
    rw [Interleaving.cleanUp, cleanUp_eq, if_pos he, hc] at hs
    have hjobs : ((m.work i first now).release t.context).jobs.map Job.context =
        m.jobs.map Job.context := contexts_work
    refine ⟨t.context.id :: cleaned, hs, by rw [hjobs]; exact h.ordered, ?_⟩
    rw [hjobs]
    simp only [List.foldl_cons, List.foldl_nil, note]
    rw [h.outstanding, List.filter_filter]
    apply List.filter_congr
    intro c hmem
    have hid : c = t.context ↔ c.id = t.context.id := by
      refine ⟨fun hct => hct ▸ rfl, ?_⟩
      exact h.sound.accounts.eq_of_id hmem (List.mem_map_of_mem hj)
    by_cases hct : c.id = t.context.id <;>
      simp [Interleaving.holds, Interleaving.isExclusive, admission?, Scheduler.release, hid, hct]

theorem Tidy.step (h : Tidy m cleaned cs) (e : Event) :
    ∃ later, Tidy (m.step e) later ((m.records e).foldl note cs) := by
  cases e with
  | start s config now waiting => exact ⟨cleaned, h.start s config now waiting⟩
  | cancel resourceId =>
    refine ⟨cleaned, h.sound.cancel resourceId, by simpa [Scheduler.step] using h.ordered, ?_⟩
    simpa [Scheduler.step, records, holds_quiet (handlers_cancel (m := m) resourceId)]
      using h.outstanding
  | turn i first now => exact h.turn i first now

theorem Tidy.run (h : Tidy m cleaned cs) (es : List Event) :
    ∃ later, Tidy (m.run es) later ((m.history es).foldl note cs) := by
  induction es generalizing m cleaned cs with
  | nil => exact ⟨cleaned, h⟩
  | cons e es ih =>
    obtain ⟨later, hs⟩ := h.step e
    simpa [Scheduler.run, history, List.foldl_append] using ih hs

@[simp] theorem handlers_step (e : Event) : (m.step e).handlers = m.handlers := by
  cases e with
  | start s config now waiting => exact handlers_start config.unwired waiting
  | cancel resourceId => exact handlers_cancel resourceId
  | turn i first now =>
    rcases turn_cases m i first now with ⟨ht, _⟩ | ⟨_, _, _, _, _, _, ht, _⟩ <;>
      simp [step, ht, release]

/-- Whether an event is a start of a kind under admission control for a resource, whose requester
still waits. -/
def asks (m : Scheduler σ κ) (resourceId : String) : Event → Bool
  | .start s _ _ waiting =>
    waiting && (s.resource.id == resourceId && m.admission? s.selector == some .exclusive)
  | _ => false

theorem asks_step (e : Event) : (m.step e).asks = m.asks := by
  funext resourceId f
  cases f <;> simp [asks, admission?]

def reply? (m : Scheduler σ κ) : Event → Option (Except FlowError Unit)
  | .start s config now _ => (m.trigger config s now).1.result.map (·.2)
  | _ => none

def replies (m : Scheduler σ κ) (resourceId : String) : List Event → List (Except FlowError Unit)
  | [] => []
  | e :: es =>
    (if m.asks resourceId e then (m.reply? e).toList else []) ++
      (m.step e).replies resourceId es

theorem claim_of_asks {resourceId : String} {e : Event} (h : m.asks resourceId e = true) :
    ∃ s config now, e = .start s config now true ∧ s.resource.id = resourceId ∧
      m.admission? s.selector = some .exclusive := by
  cases e with
  | start s config now waiting =>
    cases waiting with
    | false => cases h
    | true => exact ⟨s, config, now, rfl, by simpa [asks] using h⟩
  | cancel | turn => cases h

/-- The answer to a requester depends on whether its resource has a flow. -/
theorem reply?_of_asks {resourceId : String} {e : Event} (h : m.asks resourceId e = true) :
    m.reply? e = some (if m.isRunning resourceId then .error (.admissionRejected resourceId)
      else .ok ()) := by
  obtain ⟨s, config, now, rfl, rfl, hx⟩ := claim_of_asks h
  cases hr : m.registry.isRunning s.resource.id with
  | true => simp [reply?, trigger_result, claim_busy hx hr, Claim.verdict, Scheduler.isRunning, hr]
  | false => simp [reply?, trigger_result, claim_idle hx hr, Claim.verdict, Scheduler.isRunning, hr]

/-- Without a clean-up of its flow a resource stays taken, and an idle resource becomes taken by
the next requester. -/
theorem Tidy.isRunning_step (h : Tidy m cleaned cs) {resourceId : String} {e : Event}
    (hn : ∀ c, .cleaned c ∈ m.records e → c.start.resource.id ≠ resourceId) :
    (m.step e).isRunning resourceId = (m.isRunning resourceId || m.asks resourceId e) := by
  obtain ⟨later, hs⟩ := h.step e
  rw [Bool.eq_iff_iff, Bool.or_eq_true, hs.isRunning_iff, h.isRunning_iff]
  cases e with
  | start s config now waiting =>
    rcases claim_cases m s with ⟨ha, hc⟩ | ⟨ha, hc⟩ | ⟨ha, hr, hc⟩ | ⟨ha, hr, hc⟩
    · simp [records, hc, asks, ha]
    · simp [records, hc, asks, ha]
    · have hb := (h.isRunning_iff s.resource.id).mp hr
      simp only [records, hc, List.foldl_nil, iff_self_or]
      intro hx
      obtain ⟨_, _, _, he, hid, _⟩ := claim_of_asks hx
      cases he
      exact hid ▸ hb
    · cases waiting <;> simp [records, hc, asks, ha, note, or_and_right, exists_or]
  | cancel => simp [records, asks]
  | turn i first now =>
    rcases turn_cases m i first now with ⟨_, hr⟩ | ⟨t, _, _, _, _, _, _, hr⟩
    · simp [hr, asks]
    · have ht := hn t.context (by simp [hr])
      simp only [hr, List.foldl_cons, List.foldl_nil, note, asks, Bool.false_eq_true, or_false,
        List.mem_filter, bne_iff_ne]
      constructor
      · rintro ⟨c, ⟨hc, _⟩, hid⟩
        exact ⟨c, hc, hid⟩
      · rintro ⟨c, hc, hid⟩
        exact ⟨c, ⟨hc, fun hct => ht (hct ▸ hid)⟩, hid⟩

/-- While its flow has not cleaned up, a resource turns every requester away. -/
theorem Tidy.replies_taken (h : Tidy m cleaned cs) {resourceId : String} {es : List Event}
    (hr : m.isRunning resourceId = true)
    (hn : ∀ c, .cleaned c ∈ m.history es → c.start.resource.id ≠ resourceId) :
    m.replies resourceId es =
      .replicate (es.countP (m.asks resourceId)) (.error (.admissionRejected resourceId)) := by
  induction es generalizing m cleaned cs with
  | nil => rfl
  | cons e es ih =>
    simp only [history, List.mem_append] at hn
    obtain ⟨later, hs⟩ := h.step e
    have hstep := h.isRunning_step (e := e) fun c hc => hn c (.inl hc)
    have hrest := ih hs (by simp [hstep, hr]) fun c hc => hn c (.inr hc)
    rw [replies, hrest, asks_step]
    cases ha : m.asks resourceId e with
    | false => simp [ha]
    | true => simp [ha, reply?_of_asks ha, hr, List.replicate_succ]

/-- Of the requesters of an idle resource the first is admitted, and it alone. -/
theorem Tidy.replies_idle (h : Tidy m cleaned cs) {resourceId : String} {es : List Event}
    {n : Nat} (hr : m.isRunning resourceId = false)
    (hn : ∀ c, .cleaned c ∈ m.history es → c.start.resource.id ≠ resourceId)
    (hcount : es.countP (m.asks resourceId) = n + 1) :
    m.replies resourceId es =
      .ok () :: .replicate n (.error (.admissionRejected resourceId)) := by
  induction es generalizing m cleaned cs with
  | nil => cases hcount
  | cons e es ih =>
    simp only [history, List.mem_append] at hn
    obtain ⟨later, hs⟩ := h.step e
    have hstep := h.isRunning_step (e := e) fun c hc => hn c (.inl hc)
    have hlater := fun c hc => hn c (.inr hc)
    rw [replies]
    cases ha : m.asks resourceId e with
    | false =>
      rw [ih hs (by simp [hstep, hr, ha]) hlater (by simpa [asks_step, ha] using hcount)]
      simp
    | true =>
      have hc : es.countP (m.asks resourceId) = n := by simpa [ha] using hcount
      rw [hs.replies_taken (by simp [hstep, ha]) hlater, asks_step, hc, reply?_of_asks ha, hr]
      simp

example :
    let config : DispatcherConfig := ⟨.ofSecs 10, .reject⟩
    ({ handlers := parked, world := () } : Scheduler Unit Unit).replies "17"
        [.start (order .create "a") config 0 true, .cancel "17",
          .start (order .repair "b") config 0 false, .start (order .delete "c") config 1 true] =
      [.ok (), .error (.admissionRejected "17")] := rfl

/-- What a requester hears when its message is handled while it waits, whether it publishes to the
scheduler itself or a relay has taken the message over. -/
def Hears (m : Scheduler σ κ) (s : Start) (config : DispatcherConfig) (now : Instant)
    (result : Except FlowError Unit) : Prop :=
  (m.trigger config s now).1.result = some (now, result) ∧
  ∀ r : Request, r.start = s → r.config = config → r.result = none → r.resolved = none →
    r.published = some (.ok ()) →
    ((r.resolve (m.start s config.unwired true).1.resolution).look now).result =
      some (now, result)

structure Exact (m : Scheduler σ κ) (cs : List Context) : Prop where
  listed : m.registry = cs.map Entry.ofContext
  unique : (cs.map (·.start.resource.id)).Nodup
  running : ∀ resourceId, m.isRunning resourceId = true ↔
    ∃ c ∈ cs, c.start.resource.id = resourceId
  idle : ∀ s config now, m.admission? s.selector = some .exclusive →
    (∀ c ∈ cs, c.start.resource.id ≠ s.resource.id) →
    (m.start s config.unwired true).1.resolution = .accept ∧ m.Hears s config now (.ok ())
  taken : ∀ s config now, m.admission? s.selector = some .exclusive →
    (∃ c ∈ cs, c.start.resource.id = s.resource.id) →
    (m.start s config.unwired true).1.resolution = .reject ∧
      m.Hears s config now (.error (.admissionRejected s.resource.id)) ∧
      (m.trigger config s now).2.registry = m.registry
  unknown : ∀ s config now, m.admission? s.selector = none →
    (m.trigger config s now).1.result =
      some (now, .error (.handlerNotFound s.selector.event)) ∧
      (m.trigger config s now).2.registry = m.registry
  /-- Any number of requesters of an idle resource, whatever else happens between them. -/
  rush : ∀ resourceId es n, m.isRunning resourceId = false →
    (∀ c, .cleaned c ∈ m.history es → c.start.resource.id ≠ resourceId) →
    es.countP (m.asks resourceId) = n + 1 →
    m.replies resourceId es =
      .ok () :: .replicate n (.error (.admissionRejected resourceId))

theorem Tidy.exact (h : Tidy m cleaned cs) : m.Exact cs where
  listed := h.registry_eq
  unique := h.unique
  running := h.isRunning_iff
  idle s config now hx hi := by
    have hr : m.registry.isRunning s.resource.id = false := by
      rw [← Bool.not_eq_true]
      intro hr
      obtain ⟨c, hc, hid⟩ := (h.isRunning_iff s.resource.id).mp hr
      exact hi c hc hid
    refine ⟨by rw [start_eq, claim_idle hx hr]; rfl, ?_, ?_⟩
    · rw [trigger_result, claim_idle hx hr]
      rfl
    · intro r _ _ hw hn hp
      rw [Request.look_resolve hw hn hp, start_eq, claim_idle hx hr]
      rfl
  taken s config now hx ht := by
    have hr : m.registry.isRunning s.resource.id = true := (h.isRunning_iff _).mpr ht
    refine ⟨by rw [start_eq, claim_busy hx hr]; rfl, ⟨?_, ?_⟩, ?_⟩
    · rw [trigger_result, claim_busy hx hr]
      rfl
    · rintro r rfl _ hw hn hp
      rw [Request.look_resolve hw hn hp, start_eq, claim_busy hx hr]
      rfl
    · rw [trigger_snd, start_eq, claim_busy hx hr]
      rfl
  unknown s config now hx := by
    rw [trigger_result, trigger_snd, start_eq, claim_noHandler hx]
    exact ⟨rfl, rfl⟩
  rush _ _ _ := h.replies_idle

/-- After every run the history of the run determines the registry, and the answer to every start
whose requester still waits. -/
theorem admission_exact (handlers : Selector → Option (Handler σ κ)) (world : σ)
    (es : List Event) :
    Exact (({ handlers, world } : Scheduler σ κ).run es)
      (outstanding (({ handlers, world } : Scheduler σ κ).history es)) := by
  obtain ⟨_, h⟩ := (tidy_initial handlers world).run es
  exact h.exact

end ClusterControl.Scheduler
