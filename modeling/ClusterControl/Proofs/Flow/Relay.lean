import ClusterControl.Proofs.Flow.Request
import ClusterControl.Proofs.Flow.Scheduler

/-!
# Requesters behind a relay

A requester publishes to the scheduler itself, or to a relay that takes its message over and
delivers it later, in any order, or never. Here each delivery and each look of a requester is one
step. A request and the flow that was started for it agree after every run: a flow is started for
the requests that come to a good end, and for no other.
-/

namespace ClusterControl

open ClusterControl.Flow

structure Call where
  request : Request
  held : Bool

structure Relay (σ κ : Type) where
  flows : Scheduler σ κ
  now : Instant := 0
  calls : List Call := []
  /-- The flows that were started, each with the number of its call. -/
  started : List (Nat × Context) := []

namespace Relay

variable {σ κ : Type}

/-- The flows of the jobs that a scheduler has and an earlier one had not. -/
def spawned (earlier later : Scheduler σ κ) : List Context :=
  (later.jobs.drop earlier.jobs.length).map Job.context

def ask (x : Relay σ κ) (s : Start) (config : DispatcherConfig) : Relay σ κ :=
  let (r, flows) := x.flows.trigger config s x.now
  { x with
    flows
    calls := x.calls ++ [⟨r, false⟩]
    started := x.started ++ (spawned x.flows flows).map (x.calls.length, ·) }

/-- A requester publishes to the relay and begins to wait. -/
def post (x : Relay σ κ) (s : Start) (config : DispatcherConfig) : Relay σ κ :=
  let r := Request.new config s x.now
  { x with calls := x.calls ++ [⟨(r.publicationEnds (.ok ())).look x.now, true⟩] }

/-- The scheduler handles the message of a call, if the relay still holds it. -/
def deliver (x : Relay σ κ) (i : Nat) : Relay σ κ :=
  match x.calls[i]? with
  | some ⟨r, true⟩ =>
    let (claim, flows) := x.flows.start r.start r.config.unwired r.waiting
    { x with
      flows
      calls := x.calls.set i ⟨r.resolve claim.resolution, false⟩
      started := x.started ++ (spawned x.flows flows).map (i, ·) }
  | _ => x

/-- The relay drops the message of a call, and its signal with it. -/
def lose (x : Relay σ κ) (i : Nat) : Relay σ κ :=
  match x.calls[i]? with
  | some ⟨r, true⟩ => { x with calls := x.calls.set i ⟨r.resolve .drop, false⟩ }
  | _ => x

def look (x : Relay σ κ) (i : Nat) : Relay σ κ :=
  match x.calls[i]? with
  | some ⟨r, held⟩ => { x with calls := x.calls.set i ⟨r.look x.now, held⟩ }
  | none => x

inductive Event where
  | ask (start : Start) (config : DispatcherConfig)
  | post (start : Start) (config : DispatcherConfig)
  | deliver (i : Nat)
  | lose (i : Nat)
  | look (i : Nat)
  | wait (ms : Nat)
  | cancel (resourceId : String)
  | work (i : Nat) (first : Branch)
  | cleanUp (i : Nat)

def step (x : Relay σ κ) : Event → Relay σ κ
  | .ask s config => x.ask s config
  | .post s config => x.post s config
  | .deliver i => x.deliver i
  | .lose i => x.lose i
  | .look i => x.look i
  | .wait ms => { x with now := x.now + ms }
  | .cancel resourceId => { x with flows := x.flows.cancel resourceId }
  | .work i first => { x with flows := x.flows.work i first x.now }
  | .cleanUp i =>
    match x.flows.jobs[i]? with
    | some t => { x with flows := x.flows.cleanUp t }
    | none => x

def run (x : Relay σ κ) (es : List Event) : Relay σ κ := es.foldl step x

def Event.asked? : Event → Option (Start × DispatcherConfig)
  | .ask s config | .post s config => some (s, config)
  | _ => none

def asked (es : List Event) : List (Start × DispatcherConfig) := es.filterMap Event.asked?

/-- The flows that were started for a call. -/
def startedFor (x : Relay σ κ) (i : Nat) : List Context :=
  (x.started.filter (·.1 == i)).map (·.2)

def result? (x : Relay σ κ) (i : Nat) : Option (Instant × Except FlowError Unit) :=
  x.calls[i]?.bind (·.request.result)

variable {x y : Relay σ κ} {i : Nat}

theorem spawned_start (m : Scheduler σ κ) (s : Start) (policy : UnwiredPolicy) (waiting : Bool) :
    spawned m (m.start s policy waiting).2 =
      (m.claim s).1.spawned (m.granted s policy waiting) := by
  simp [spawned, List.map_drop, Scheduler.contexts_start]

theorem ask_eq (x : Relay σ κ) (s : Start) (config : DispatcherConfig) :
    x.ask s config =
      { x with
        flows := (x.flows.trigger config s x.now).2
        calls := x.calls ++ [⟨(x.flows.trigger config s x.now).1, false⟩]
        started := x.started ++ ((x.flows.claim s).1.spawned
          (x.flows.granted s config.unwired true)).map (x.calls.length, ·) } := by
  rw [← spawned_start]
  rfl

theorem deliver_cases (x : Relay σ κ) (i : Nat) :
    x.deliver i = x ∨ ∃ r, x.calls[i]? = some ⟨r, true⟩ ∧ x.deliver i =
      { x with
        flows := (x.flows.start r.start r.config.unwired r.waiting).2
        calls := x.calls.set i ⟨r.resolve (x.flows.claim r.start).1.resolution, false⟩
        started := x.started ++ ((x.flows.claim r.start).1.spawned
          (x.flows.granted r.start r.config.unwired r.waiting)).map (i, ·) } := by
  unfold deliver
  split
  next r hc =>
    refine .inr ⟨r, hc, ?_⟩
    rw [← spawned_start]
    rfl
  next => exact .inl rfl

theorem lose_cases (x : Relay σ κ) (i : Nat) :
    x.lose i = x ∨ ∃ r, x.calls[i]? = some ⟨r, true⟩ ∧
      x.lose i = { x with calls := x.calls.set i ⟨r.resolve .drop, false⟩ } := by
  unfold lose
  split
  next r hc => exact .inr ⟨r, hc, rfl⟩
  next => exact .inl rfl

theorem look_cases (x : Relay σ κ) (i : Nat) :
    x.look i = x ∨ ∃ r held, x.calls[i]? = some ⟨r, held⟩ ∧
      x.look i = { x with calls := x.calls.set i ⟨r.look x.now, held⟩ } := by
  unfold look
  split
  next r held hc => exact .inr ⟨r, held, hc, rfl⟩
  next => exact .inl rfl

structure Agrees (call : Call) (cs : List Context) : Prop where
  own : cs = [] ∨ ∃ c, cs = [c] ∧ c.start = call.request.start
  outcome : call.request.outcome? = some (.ok ()) ↔ cs ≠ []
  held : call.held = true →
    cs = [] ∧ call.request.published = some (.ok ()) ∧ call.request.resolved = none

/-- Every call agrees with its flows, and every job is the flow of a call. -/
structure Sound (x : Relay σ κ) : Prop where
  calls : ∀ i call, x.calls[i]? = some call → Agrees call (x.startedFor i)
  numbered : ∀ p ∈ x.started, p.1 < x.calls.length
  jobs : x.flows.jobs.map Job.context = x.started.map (·.2)

theorem sound_initial (handlers : Selector → Option (Handler σ κ)) (world : σ) :
    Sound { flows := { handlers, world } } :=
  ⟨by simp, by simp, rfl⟩

theorem spawned_ne_nil (m : Scheduler σ κ) (s : Start) (policy : UnwiredPolicy)
    (waiting : Bool) :
    (m.claim s).1.spawned (m.granted s policy waiting) ≠ [] ↔
      m.granted s policy waiting = true := by
  rcases Scheduler.claim_cases m s with ⟨_, h⟩ | ⟨_, h⟩ | ⟨_, _, h⟩ | ⟨_, _, h⟩ <;>
    simp [Scheduler.granted, h, Scheduler.Claim.spawned, Scheduler.Claim.context?,
      Scheduler.Claim.resolution, Resolution.grants]

theorem own_spawned (m : Scheduler σ κ) (s : Start) (granted : Bool) :
    (m.claim s).1.spawned granted = [] ∨
      ∃ c, (m.claim s).1.spawned granted = [c] ∧ c.start = s := by
  rcases Scheduler.spawned_cases m s granted with h | h
  · exact .inl h
  · exact .inr ⟨_, h, rfl⟩

theorem agrees_ask (x : Relay σ κ) (s : Start) (config : DispatcherConfig) :
    Agrees ⟨(x.flows.trigger config s x.now).1, false⟩
      ((x.flows.claim s).1.spawned (x.flows.granted s config.unwired true)) where
  own := by simpa using own_spawned x.flows s _
  outcome := by
    rw [Request.outcome?_of_result (Scheduler.trigger_result config x.now), spawned_ne_nil,
      Option.some.injEq]
    exact Scheduler.Claim.verdict_eq_ok_iff config.unwired (x.flows.claim s).1
  held := by simp

theorem agrees_post (s : Start) (config : DispatcherConfig) (now : Instant) :
    Agrees ⟨((Request.new config s now).publicationEnds (.ok ())).look now, true⟩ [] where
  own := .inl rfl
  outcome := by
    rw [Request.outcome?_look]
    simp [Request.outcome?, Request.work?, Request.publicationEnds, Request.new, Request.waiting]
  held := by simp [Request.publicationEnds, Request.new, Request.waiting]

theorem Agrees.deliver {r : Request} {cs : List Context} (h : Agrees ⟨r, true⟩ cs)
    (m : Scheduler σ κ) :
    Agrees ⟨r.resolve (m.claim r.start).1.resolution, false⟩
      (cs ++ (m.claim r.start).1.spawned (m.granted r.start r.config.unwired r.waiting)) := by
  obtain ⟨rfl, hp, hr⟩ := h.held rfl
  have hn : r.outcome? ≠ some (.ok ()) := by simp [h.outcome]
  refine ⟨?_, ?_, by simp⟩
  · simpa using own_spawned m r.start _
  · rw [List.nil_append, Request.outcome?_resolve hp hr hn, spawned_ne_nil]
    rfl

theorem Agrees.lose {r : Request} {cs : List Context} (h : Agrees ⟨r, true⟩ cs) :
    Agrees ⟨r.resolve .drop, false⟩ cs := by
  obtain ⟨rfl, hp, hr⟩ := h.held rfl
  have hn : r.outcome? ≠ some (.ok ()) := by simp [h.outcome]
  refine ⟨.inl rfl, ?_, by simp⟩
  rw [Request.outcome?_resolve hp hr hn]
  simp [Resolution.grants]

theorem Agrees.look {r : Request} {held : Bool} {cs : List Context} (h : Agrees ⟨r, held⟩ cs)
    (now : Instant) : Agrees ⟨r.look now, held⟩ cs where
  own := by simpa using h.own
  outcome := Request.outcome?_look.trans h.outcome
  held := by simpa using h.held

/-- The flows of one call more lead to no other call. -/
theorem startedFor_append (x : Relay σ κ) (flows : Scheduler σ κ) (calls : List Call)
    (cs : List Context) (i j : Nat) :
    startedFor { x with flows, calls, started := x.started ++ cs.map (i, ·) } j =
      x.startedFor j ++ if i = j then cs else [] := by
  by_cases h : i = j <;>
    simp [startedFor, List.filter_map, Function.comp_def, h]

structure Extends (x y : Relay σ κ) (as : List (Start × DispatcherConfig)) : Prop where
  started : ∀ i, x.startedFor i <+: y.startedFor i
  result : ∀ i v, x.result? i = some v → y.result? i = some v
  asked : y.calls.map (fun c => (c.request.start, c.request.config)) =
    x.calls.map (fun c => (c.request.start, c.request.config)) ++ as

theorem Extends.refl (x : Relay σ κ) : Extends x x [] :=
  ⟨fun _ => List.prefix_rfl, fun _ _ h => h, by simp⟩

theorem Extends.trans {z : Relay σ κ} {as bs : List (Start × DispatcherConfig)}
    (h : Extends x y as) (k : Extends y z bs) : Extends x z (as ++ bs) where
  started i := (h.started i).trans (k.started i)
  result i v hv := k.result i v (h.result i v hv)
  asked := by rw [k.asked, h.asked, List.append_assoc]

section Add

variable {later : Call} (flows : Scheduler σ κ) (cs : List Context)

theorem Sound.startedFor_length (h : x.Sound) : x.startedFor x.calls.length = [] := by
  have hn : ∀ p ∈ x.started, p.1 ≠ x.calls.length := fun p hp => Nat.ne_of_lt (h.numbered p hp)
  simpa [startedFor] using hn

theorem Sound.add (h : x.Sound) (hl : Agrees later cs)
    (hj : flows.jobs.map Job.context = x.flows.jobs.map Job.context ++ cs) :
    Sound { x with
      flows
      calls := x.calls ++ [later]
      started := x.started ++ cs.map (x.calls.length, ·) } where
  calls i call hc := by
    rw [startedFor_append]
    rcases Nat.lt_trichotomy i x.calls.length with hi | rfl | hi
    · rw [List.getElem?_append_left hi] at hc
      simpa [Nat.ne_of_gt hi] using h.calls i call hc
    · simp only [List.getElem?_concat_length, Option.some.injEq] at hc
      simpa [h.startedFor_length, hc] using hl
    · rw [List.getElem?_eq_none (by rw [List.length_append]; exact hi)] at hc
      cases hc
  numbered p hp := by
    simp only [List.mem_append, List.mem_map] at hp
    rw [List.length_append, List.length_singleton, Nat.lt_succ_iff]
    rcases hp with hp | ⟨c, _, rfl⟩
    · exact Nat.le_of_lt (h.numbered p hp)
    · exact Nat.le_refl _
  jobs := by simp [hj, h.jobs, Function.comp_def]

theorem extends_add (later : Call) {s : Start} {config : DispatcherConfig}
    (hs : later.request.start = s) (hg : later.request.config = config) :
    Extends x
      { x with
        flows
        calls := x.calls ++ [later]
        started := x.started ++ cs.map (x.calls.length, ·) }
      [(s, config)] where
  started i := by
    rw [startedFor_append]
    exact List.prefix_append _ _
  result i v hv := by
    obtain ⟨call, hc, hr⟩ := Option.bind_eq_some_iff.mp hv
    obtain ⟨hi, _⟩ := List.getElem?_eq_some_iff.mp hc
    simp [result?, List.getElem?_append_left hi, hc, hr]
  asked := by simp [hs, hg]

end Add

section Set

variable {call later : Call} (flows : Scheduler σ κ) (cs : List Context)

theorem Sound.set (h : x.Sound) (hc : x.calls[i]? = some call)
    (hl : Agrees later (x.startedFor i ++ cs))
    (hj : flows.jobs.map Job.context = x.flows.jobs.map Job.context ++ cs) :
    Sound { x with
      flows
      calls := x.calls.set i later
      started := x.started ++ cs.map (i, ·) } where
  calls j c hj := by
    obtain ⟨hi, _⟩ := List.getElem?_eq_some_iff.mp hc
    rw [startedFor_append]
    by_cases hij : i = j
    · subst hij
      simp only [List.getElem?_set_self hi, Option.some.injEq] at hj
      simpa [hj] using hl
    · rw [List.getElem?_set_ne hij] at hj
      simpa [hij] using h.calls j c hj
  numbered p hp := by
    obtain ⟨hi, _⟩ := List.getElem?_eq_some_iff.mp hc
    simp only [List.mem_append, List.mem_map] at hp
    rw [List.length_set]
    rcases hp with hp | ⟨c, _, rfl⟩
    · exact h.numbered p hp
    · exact hi
  jobs := by simp [hj, h.jobs, Function.comp_def]

theorem extends_set (later : Call) (hc : x.calls[i]? = some call)
    (hs : later.request.start = call.request.start)
    (hg : later.request.config = call.request.config)
    (hr : ∀ v, call.request.result = some v → later.request.result = some v) :
    Extends x
      { x with
        flows
        calls := x.calls.set i later
        started := x.started ++ cs.map (i, ·) } [] where
  started j := by
    rw [startedFor_append]
    exact List.prefix_append _ _
  result j v hv := by
    obtain ⟨hi, _⟩ := List.getElem?_eq_some_iff.mp hc
    by_cases hij : i = j
    · subst hij
      simp only [result?, hc, Option.bind_some] at hv
      simp [result?, hi, hr v hv]
    · simpa [result?, List.getElem?_set_ne hij] using hv
  asked := by
    rw [List.append_nil]
    exact map_set_of_eq hc (by rw [hs, hg])

end Set

theorem Sound.ask (h : x.Sound) (s : Start) (config : DispatcherConfig) :
    (x.ask s config).Sound ∧ Extends x (x.ask s config) [(s, config)] := by
  rw [ask_eq]
  refine ⟨h.add _ _ (agrees_ask x s config) ?_, extends_add _ _ _ (by simp) (by simp)⟩
  rw [Scheduler.trigger_snd, Scheduler.contexts_start]

theorem Sound.post (h : x.Sound) (s : Start) (config : DispatcherConfig) :
    (x.post s config).Sound ∧ Extends x (x.post s config) [(s, config)] := by
  have hadd := h.add x.flows [] (agrees_post s config x.now) (by simp)
  have hext : Extends x _ [(s, config)] := extends_add x.flows []
    ⟨((Request.new config s x.now).publicationEnds (.ok ())).look x.now, true⟩
    (by simp [Request.new]) (by simp [Request.new])
  simp only [List.map_nil, List.append_nil] at hadd hext
  exact ⟨hadd, hext⟩

theorem Sound.deliver (h : x.Sound) (i : Nat) :
    (x.deliver i).Sound ∧ Extends x (x.deliver i) [] := by
  rcases deliver_cases x i with hd | ⟨r, hc, hd⟩ <;> rw [hd]
  · exact ⟨h, .refl x⟩
  · refine ⟨h.set _ _ hc ((h.calls i _ hc).deliver x.flows) ?_, ?_⟩
    · exact Scheduler.contexts_start _ _ _ _
    · exact extends_set _ _ _ hc (by simp) (by simp) (by simp)

/-- A request goes on without the scheduler. -/
theorem Sound.replace (h : x.Sound) {call later : Call} (hc : x.calls[i]? = some call)
    (hl : Agrees later (x.startedFor i)) (hs : later.request.start = call.request.start)
    (hg : later.request.config = call.request.config)
    (hr : ∀ v, call.request.result = some v → later.request.result = some v) :
    Sound { x with calls := x.calls.set i later } ∧
      Extends x { x with calls := x.calls.set i later } [] := by
  have hset := h.set x.flows [] hc (by simpa using hl) (by simp)
  have hext := extends_set x.flows [] later hc hs hg hr
  simp only [List.map_nil, List.append_nil] at hset hext
  exact ⟨hset, hext⟩

theorem Sound.lose (h : x.Sound) (i : Nat) : (x.lose i).Sound ∧ Extends x (x.lose i) [] := by
  rcases lose_cases x i with hd | ⟨r, hc, hd⟩ <;> rw [hd]
  · exact ⟨h, .refl x⟩
  · exact h.replace hc (h.calls i _ hc).lose (by simp) (by simp) (by simp)

theorem Sound.look (h : x.Sound) (i : Nat) : (x.look i).Sound ∧ Extends x (x.look i) [] := by
  rcases look_cases x i with hd | ⟨r, held, hc, hd⟩ <;> rw [hd]
  · exact ⟨h, .refl x⟩
  · refine h.replace hc ((h.calls i _ hc).look x.now) (by simp) (by simp) fun v hv => ?_
    rw [Request.look_of_result hv]
    exact hv

/-- Whatever keeps the flows of the jobs is nothing to the requesters. -/
theorem Sound.quiet (h : x.Sound) {flows : Scheduler σ κ} (now : Instant)
    (hj : flows.jobs.map Job.context = x.flows.jobs.map Job.context) :
    Sound { x with flows, now } ∧ Extends x { x with flows, now } [] :=
  ⟨⟨h.calls, h.numbered, hj.trans h.jobs⟩, fun _ => List.prefix_rfl, fun _ _ hv => hv, by simp⟩

theorem Sound.step (h : x.Sound) (e : Event) :
    (x.step e).Sound ∧ Extends x (x.step e) e.asked?.toList := by
  cases e with
  | ask s config => exact h.ask s config
  | post s config => exact h.post s config
  | deliver i => exact h.deliver i
  | lose i => exact h.lose i
  | look i => exact h.look i
  | wait ms => exact h.quiet (x.now + ms) rfl
  | cancel resourceId => exact h.quiet x.now (by simp)
  | work i first => exact h.quiet x.now Scheduler.contexts_work
  | cleanUp i =>
    simp only [Relay.step]
    split
    next t ht =>
      refine h.quiet x.now ?_
      rw [Scheduler.cleanUp_eq]
      split <;> rfl
    next => exact ⟨h, .refl x⟩

theorem Sound.run (h : x.Sound) (es : List Event) :
    (x.run es).Sound ∧ Extends x (x.run es) (asked es) := by
  induction es generalizing x with
  | nil => exact ⟨h, .refl x⟩
  | cons e es ih =>
    obtain ⟨hs, he⟩ := h.step e
    obtain ⟨hr, hes⟩ := ih hs
    have hasked : asked (e :: es) = e.asked?.toList ++ asked es := by
      cases ha : e.asked? <;> simp [asked, ha]
    exact ⟨hr, hasked ▸ he.trans hes⟩

/-- A call goes on, and asks for what it asked for. -/
theorem Extends.call? {as : List (Start × DispatcherConfig)} (h : Extends x y as) {call : Call}
    (hc : x.calls[i]? = some call) :
    ∃ later, y.calls[i]? = some later ∧ later.request.start = call.request.start := by
  have hi : i < (x.calls.map fun c => (c.request.start, c.request.config)).length := by
    simpa using (List.getElem?_eq_some_iff.mp hc).1
  have hm := congrArg (·[i]?) h.asked
  rw [List.getElem?_append_left hi] at hm
  simp only [List.getElem?_map, hc, Option.map_some, Option.map_eq_some_iff] at hm
  obtain ⟨later, hl, he⟩ := hm
  exact ⟨later, hl, congrArg Prod.fst he⟩

theorem Agrees.of_prefix {call : Call} {cs : List Context} {c : Context} (h : Agrees call cs)
    (hp : [c] <+: cs) : cs = [c] := by
  rcases h.own with rfl | ⟨d, rfl, _⟩
  · cases List.prefix_nil.mp hp
  · rw [List.singleton_prefix_cons_iff.mp hp]

/-- A requester that hears that all is well has one flow, of its own start, now and later. A
requester that has a flow hears no error, now or later, and hears that all is well when it looks
next. A requester that hears an error has no flow, now or later. Every job is the flow of a
requester. -/
theorem requester_agrees {handlers : Selector → Option (Handler σ κ)} {world : σ}
    {es fs : List Event} {s : Start} {config : DispatcherConfig}
    (hx : x = run { flows := { handlers, world } } es) (hy : y = x.run fs)
    (called : (asked es)[i]? = some (s, config)) :
    (∀ v, x.result? i = some v → y.result? i = some v) ∧
    (∀ t, x.result? i = some (t, .ok ()) →
      ∃ c, c.start = s ∧ x.startedFor i = [c] ∧ y.startedFor i = [c]) ∧
    (x.startedFor i ≠ [] →
      (∀ t e, y.result? i ≠ some (t, .error e)) ∧ ∃ t, (y.look i).result? i = some (t, .ok ())) ∧
    (∀ t e, x.result? i = some (t, .error e) → y.startedFor i = []) ∧
    y.flows.jobs.map Job.context = y.started.map (·.2) := by
  obtain ⟨hsx, hex⟩ : x.Sound ∧ Extends _ x (asked es) :=
    hx ▸ (sound_initial handlers world).run es
  obtain ⟨hsy, hey⟩ : y.Sound ∧ Extends x y (asked fs) := hy ▸ hsx.run fs
  obtain ⟨call, hc, hcs⟩ : ∃ call, x.calls[i]? = some call ∧ call.request.start = s := by
    have hm := congrArg (·[i]?) hex.asked
    simp only [List.map_nil, List.nil_append, List.getElem?_map, called,
      Option.map_eq_some_iff] at hm
    obtain ⟨call, hc, he⟩ := hm
    exact ⟨call, hc, congrArg Prod.fst he⟩
  obtain ⟨later, hl, hls⟩ := hey.call? hc
  have hx := hsx.calls i call hc
  have hy := hsy.calls i later hl
  have hresult : ∀ v, y.result? i = some v → later.request.outcome? = some v.2 := by
    intro v hv
    exact Request.outcome?_of_result (by simpa [result?, hl] using hv)
  refine ⟨hey.result i, ?_, ?_, ?_, hsy.jobs⟩
  · intro t ht
    have ho : call.request.outcome? = some (.ok ()) :=
      Request.outcome?_of_result (by simpa [result?, hc] using ht)
    rcases hx.own with hn | ⟨c, hd, hs⟩
    · exact absurd hn (hx.outcome.mp ho)
    · exact ⟨c, hs.trans hcs, hd, hy.of_prefix (hd ▸ hey.started i)⟩
  · intro hn
    have ho : later.request.outcome? = some (.ok ()) := by
      refine hy.outcome.mpr fun hnil => hn ?_
      exact List.prefix_nil.mp (hnil ▸ hey.started i)
    refine ⟨fun t e he => ?_, ?_⟩
    · have he := hresult _ he
      rw [ho] at he
      cases he
    · obtain ⟨t, ht⟩ : ∃ t, (later.request.look y.now).result = some (t, .ok ()) :=
        Request.look_of_outcome ho
      obtain ⟨hi, _⟩ := List.getElem?_eq_some_iff.mp hl
      exact ⟨t, by simp only [result?, look, hl, List.getElem?_set_self hi, Option.bind_some, ht]⟩
  · intro t e he
    have ho := hresult _ (hey.result i _ he)
    rcases hy.own with hn | ⟨c, hd, _⟩
    · exact hn
    · rw [hy.outcome.mpr (by simp [hd])] at ho
      cases ho

/-- A message comes to a requester that is gone, and another one in time. -/
def late : List Event :=
  [.post (order .repair "a") ⟨.ofSecs 10, .reject⟩, .wait 10000, .look 0,
    .post (order .delete "b") ⟨.ofSecs 10, .reject⟩, .deliver 0, .deliver 1]

def lateRelay : Relay Unit Unit := run { flows := { handlers := parked, world := () } } late

theorem requester_agrees_late :
    (asked late)[1]? = some (order .delete "b", ⟨.ofSecs 10, .reject⟩) ∧
      lateRelay.startedFor 1 = [⟨1, order .delete "b"⟩] ∧
      ∃ t, (lateRelay.look 1).result? 1 = some (t, .ok ()) := by
  have asked : (asked late)[1]? = some (order .delete "b", ⟨.ofSecs 10, .reject⟩) := rfl
  have started : lateRelay.startedFor 1 = [⟨1, order .delete "b"⟩] := rfl
  have rest (x : Relay Unit Unit) : x = x.run [] := rfl
  have agrees := requester_agrees (x := lateRelay) rfl (rest lateRelay) asked
  exact ⟨asked, started, (agrees.2.2.1 (by simp [started])).2⟩

end Relay

end ClusterControl
