import ClusterControl.Proofs.Flow.Bus
import Mathlib.Data.List.Forall2

/-!
# Answers and the requesters that they reach

A signal is one end of a channel for a single answer, and its requester holds the other end until
it returns. Here requesters call, each with settings of its own, and whoever has taken over their
signals resolves these in any order and at any time, each once. Channels and requests come to the
same results and the same reports.
-/

namespace ClusterControl

/-- A channel for one answer. Each end is given up once. -/
structure Channel where
  sent : Option Acceptance := none
  sender : Bool := true
  receiver : Bool := true

namespace Channel

/-- Uses up the sender. An answer is delivered if the receiver is still held. -/
def resolve (c : Channel) (a : Resolution) : Bool × Channel :=
  match a.answer? with
  | some answer =>
    (c.receiver, { c with sent := if c.receiver then some answer else none, sender := false })
  | none => (false, { c with sender := false })

/-- What the receiver finds: an answer, or that none will come, or nothing so far. -/
def receive? (c : Channel) : Option (Option Acceptance) :=
  match c.sent with
  | some answer => some (some answer)
  | none => if c.sender then none else some none

end Channel

/-- A call of a requester, with the channel that it has made for its answer. -/
structure Waiter where
  start : Start
  config : DispatcherConfig
  called : Instant
  channel : Channel := {}
  published : Option (Except FlowError Unit) := none
  result : Option (Instant × Except FlowError Unit) := none

namespace Waiter

def deadline (k : Waiter) : Instant := k.called + k.config.timeout.ceilMillis

def verdict (k : Waiter) : Option Acceptance → Except FlowError Unit
  | some .accepted => .ok ()
  | some .rejected => .error (.admissionRejected k.start.resource.id)
  | some .unwired =>
    match k.config.unwired with
    | .accept => .ok ()
    | .reject => .error (.admissionRejected k.start.resource.id)
  | none =>
    .error (.dispatchFailed ("acceptance wait for resource " ++ k.start.resource.id ++
      " was interrupted"))

/-- The result of the call's work: it waits for the end of the publication, then for an answer. -/
def work? (k : Waiter) : Option (Except FlowError Unit) :=
  match k.published with
  | none => none
  | some (.error e) => some (.error e)
  | some (.ok _) => k.channel.receive?.map k.verdict

def finish (k : Waiter) (now : Instant) (result : Except FlowError Unit) : Waiter :=
  { k with result := some (now, result), channel := { k.channel with receiver := false } }

/-- The publication ends, unless it was dropped with the rest of the work. -/
def hear (k : Waiter) (ended : Option (Except FlowError Unit)) : Waiter :=
  if k.result.isNone then { k with published := ended.or k.published } else k

def look (k : Waiter) (now : Instant) : Waiter :=
  match k.result, k.work? with
  | some _, _ => k
  | none, some result => k.finish now result
  | none, none =>
    if k.deadline ≤ now then
      k.finish now (.error (.acceptanceTimeout k.start.resource.id k.config.timeout))
    else k

def poll (k : Waiter) (now : Instant) (ended : Option (Except FlowError Unit)) : Waiter :=
  (k.hear ended).look now

/-- The signal is resolved, if that was not done before. -/
def resolve (k : Waiter) (a : Resolution) : Waiter :=
  if k.channel.sender then { k with channel := (k.channel.resolve a).2 } else k

def report? (k : Waiter) (a : Resolution) : Option Bool :=
  if k.channel.sender then a.report? k.config.unwired (k.channel.resolve a).1 else none

end Waiter

/-- A request goes on at an instant, at which its publication may end. -/
def Request.poll (r : Request) (now : Instant) : Option (Except FlowError Unit) → Request
  | some v => (r.publicationEnds v).look now
  | none => r.look now

namespace Waiter

variable {k : Waiter} {r : Request} {now : Instant} {ended : Option (Except FlowError Unit)}
  {a : Resolution}

@[simp] theorem hear_none : k.hear none = k := by
  unfold hear
  split <;> rfl

@[simp] theorem result_hear : (k.hear ended).result = k.result := by
  unfold hear
  split <;> rfl

@[simp] theorem channel_hear : (k.hear ended).channel = k.channel := by
  unfold hear
  split <;> rfl

theorem hear_of_result (h : k.result ≠ none) : k.hear ended = k := by
  simp [hear, h]

theorem hear_of_waiting (h : k.result = none) :
    k.hear ended = { k with published := ended.or k.published } := by
  simp [hear, h]

theorem look_of_result (h : k.result ≠ none) : k.look now = k := by
  obtain ⟨x, hx⟩ := Option.ne_none_iff_exists'.mp h
  simp [look, hx]

theorem look_of_work {v : Except FlowError Unit} (h : k.result = none) (hv : k.work? = some v) :
    k.look now = k.finish now v := by
  simp [look, h, hv]

theorem look_of_idle (h : k.result = none) (hv : k.work? = none) :
    k.look now = if k.deadline ≤ now then
      k.finish now (.error (.acceptanceTimeout k.start.resource.id k.config.timeout)) else k := by
  simp [look, h, hv]

theorem resolve_used (h : k.channel.sender = false) : k.resolve a = k := by
  simp [resolve, h]

theorem resolve_open (h : k.channel.sender = true) :
    k.resolve a = { k with channel := (k.channel.resolve a).2 } := by
  simp [resolve, h]

@[simp] theorem result_resolve : (k.resolve a).result = k.result := by
  unfold resolve
  split <;> rfl

@[simp] theorem published_resolve : (k.resolve a).published = k.published := by
  unfold resolve
  split <;> rfl

@[simp] theorem receiver_resolve : (k.resolve a).channel.receiver = k.channel.receiver := by
  unfold resolve Channel.resolve
  split
  next => cases a.answer? <;> rfl
  next => rfl

structure Mirrors (k : Waiter) (r : Request) : Prop where
  start : k.start = r.start
  config : k.config = r.config
  called : k.called = r.called
  result : k.result = r.result
  receiver : k.channel.receiver = r.result.isNone
  published : r.result = none → k.published = r.published
  sender : r.result = none → k.channel.sender = r.resolved.isNone
  sent : r.result = none → k.channel.sent = r.resolved.bind Resolution.answer?

namespace Mirrors

theorem deadline_eq (h : Mirrors k r) : k.deadline = r.deadline := by
  simp only [deadline, Request.deadline, h.called, h.config]

theorem verdict_eq (h : Mirrors k r) (a : Resolution) : k.verdict a.answer? = r.verdict a := by
  cases a <;> cases hu : r.config.unwired <;>
    simp [Resolution.answer?, verdict, Request.verdict, h.start, h.config, hu]

/-- A resolution without an answer shows as a sender that is gone. -/
theorem receive?_eq (h : Mirrors k r) (hr : r.result = none) :
    k.channel.receive? = r.resolved.map Resolution.answer? := by
  have hsender := h.sender hr
  have hsent := h.sent hr
  cases ha : r.resolved with
  | none => simp [Channel.receive?, hsent, hsender, ha]
  | some a => cases hanswer : a.answer? <;> simp [Channel.receive?, hsent, hsender, ha, hanswer]

theorem work?_eq (h : Mirrors k r) (hr : r.result = none) : k.work? = r.work? := by
  have hverdict : k.channel.receive?.map k.verdict = r.resolved.map r.verdict := by
    rw [h.receive?_eq hr, Option.map_map]
    congr 1
    funext a
    exact h.verdict_eq a
  unfold work? Request.work?
  rw [h.published hr]
  cases r.published with
  | none => rfl
  | some v =>
    cases v with
    | error e => rfl
    | ok _ => exact hverdict

theorem finish {v : Except FlowError Unit} (h : Mirrors k r) :
    Mirrors (k.finish now v) { r with result := some (now, v) } where
  start := h.start
  config := h.config
  called := h.called
  result := rfl
  receiver := rfl
  published := by simp
  sender := by simp
  sent := by simp

theorem look (h : Mirrors k r) : Mirrors (k.look now) (r.look now) := by
  cases hr : r.result with
  | some x =>
    rw [Request.look_of_result hr, look_of_result (by simp [h.result, hr])]
    exact h
  | none =>
    have hk : k.result = none := h.result.trans hr
    cases hw : r.work? with
    | some v =>
      rw [look_of_work hk ((h.work?_eq hr).trans hw)]
      simpa only [Request.look, hr, hw] using h.finish
    | none =>
      rw [look_of_idle hk ((h.work?_eq hr).trans hw), h.deadline_eq, h.start, h.config]
      by_cases hd : r.deadline ≤ now
      · simpa only [Request.look, hr, hw, hd, if_true] using h.finish
      · simpa only [Request.look, hr, hw, hd, if_false] using h

theorem poll (h : Mirrors k r) : Mirrors (k.poll now ended) (r.poll now ended) := by
  have hends : ∀ v, Mirrors (k.hear (some v)) (r.publicationEnds v) := by
    intro v
    cases hr : r.result with
    | some x =>
      have hstay : r.publicationEnds v = r := by
        simp [Request.publicationEnds, Request.waiting, hr]
      rw [hear_of_result (by simp [h.result, hr]), hstay]
      exact h
    | none =>
      have hset : r.publicationEnds v = { r with published := some v } := by
        simp [Request.publicationEnds, Request.waiting, hr]
      rw [hear_of_waiting (h.result.trans hr), hset]
      exact { h with published := fun _ => rfl }
  cases ended with
  | some v => exact (hends v).look
  | none => rw [Waiter.poll, hear_none]; exact h.look

theorem resolve (h : Mirrors k r) (a : Resolution) : Mirrors (k.resolve a) (r.resolve a) := by
  cases hr : r.result with
  | some x =>
    have hstay : r.resolve a = r := by simp [Request.resolve, Request.waiting, hr]
    have hreceiver := h.receiver
    rw [hstay]
    unfold Waiter.resolve
    split
    next =>
      refine { h with receiver := ?_, published := by simp [hr], sender := by simp [hr],
                      sent := by simp [hr] }
      rw [← hreceiver]
      unfold Channel.resolve
      cases a.answer? <;> rfl
    next => exact h
  | none =>
    have hsender := h.sender hr
    have hsent := h.sent hr
    have hreceiver := h.receiver
    rw [hr] at hreceiver
    cases hres : r.resolved with
    | some b =>
      have hstay : (r.resolve a).resolved = r.resolved := by
        simp [Request.resolve, Request.waiting, hr, hres]
      rw [resolve_used (by simp [hsender, hres]), Request.resolve_eq, hstay]
      exact h
    | none =>
      have hset : r.resolve a = { r with resolved := some a } := by
        simp [Request.resolve, Request.waiting, hr, hres]
      rw [resolve_open (by simp [hsender, hres]), hset]
      rw [hres] at hsent
      refine { h with receiver := ?_, sender := fun _ => ?_, sent := fun _ => ?_ } <;>
        cases ha : a.answer? <;> simp_all [Channel.resolve]

theorem report?_eq (h : Mirrors k r) (hs : k.channel.sender = true) :
    k.report? a = r.report? a := by
  have hr : k.channel.receiver = r.waiting := h.receiver
  cases a <;>
    simp [Waiter.report?, hs, Request.report?, Resolution.report?, Resolution.grants,
      Channel.resolve, Resolution.answer?, hr, h.config]

end Mirrors

/-! ### Runs -/

inductive Event where
  | call (start : Start) (config : DispatcherConfig) (now : Instant)
  | poll (i : Nat) (now : Instant) (ended : Option (Except FlowError Unit))
  | resolve (i : Nat) (a : Resolution)

def step (ks : List Waiter) : Event → List Waiter
  | .call start config now => ks ++ [{ start, config, called := now }]
  | .poll i now ended => ks.modify i (·.poll now ended)
  | .resolve i a => ks.modify i (·.resolve a)

def run (ks : List Waiter) (es : List Event) : List Waiter := es.foldl step ks

def ask (rs : List Request) : Event → List Request
  | .call start config now => rs ++ [Request.new config start now]
  | .poll i now ended => rs.modify i (·.poll now ended)
  | .resolve i a => rs.modify i (·.resolve a)

def requests (rs : List Request) (es : List Event) : List Request := es.foldl ask rs

theorem run_append (ks : List Waiter) (es fs : List Event) :
    run ks (es ++ fs) = run (run ks es) fs :=
  List.foldl_append

section Lists

variable {α β : Type} {R : α → β → Prop} {f : α → α} {g : β → β}

theorem forall₂_modify (hfg : ∀ x y, R x y → R (f x) (g y)) {xs : List α} {ys : List β}
    (h : List.Forall₂ R xs ys) (i : Nat) : List.Forall₂ R (xs.modify i f) (ys.modify i g) := by
  induction h generalizing i with
  | nil => simp
  | cons hxy hrest ih =>
    cases i with
    | zero => simpa using ⟨hfg _ _ hxy, hrest⟩
    | succ i => simpa using ⟨hxy, ih i⟩

end Lists

/-- Calls and requests keep step. -/
theorem mirrors_run (es : List Event) {ks : List Waiter} {rs : List Request}
    (h : List.Forall₂ Mirrors ks rs) : List.Forall₂ Mirrors (run ks es) (requests rs es) := by
  induction es generalizing ks rs with
  | nil => exact h
  | cons e es ih =>
    refine ih ?_
    cases e with
    | call start config now =>
      refine List.rel_append h (.cons ?_ .nil)
      exact ⟨rfl, rfl, rfl, rfl, rfl, fun _ => rfl, fun _ => rfl, fun _ => rfl⟩
    | poll i now ended => exact forall₂_modify (fun _ _ => Mirrors.poll) h i
    | resolve i a => exact forall₂_modify (fun _ _ hkr => hkr.resolve a) h i

section Kept

variable {P : Waiter → Prop} {ks : List Waiter} {i : Nat}

theorem exists_modify {f : Waiter → Waiter} (hf : ∀ k, P k → P (f k)) (j : Nat)
    (h : ∃ k, ks[i]? = some k ∧ P k) : ∃ l, (ks.modify j f)[i]? = some l ∧ P l := by
  obtain ⟨k, hk, hP⟩ := h
  rw [List.getElem?_modify, hk]
  by_cases hij : j = i
  · exact ⟨f k, by simp [hij], hf k hP⟩
  · exact ⟨k, by simp [hij], hP⟩

/-- What neither a poll nor a resolution spoils holds of a call from then on. -/
theorem exists_run (hpoll : ∀ k now ended, P k → P (k.poll now ended))
    (hresolve : ∀ k a, P k → P (k.resolve a)) (es : List Event)
    (h : ∃ k, ks[i]? = some k ∧ P k) : ∃ l, (run ks es)[i]? = some l ∧ P l := by
  induction es generalizing ks with
  | nil => exact h
  | cons e es ih =>
    refine ih ?_
    cases e with
    | call start config now =>
      obtain ⟨k, hk, hP⟩ := h
      refine ⟨k, ?_, hP⟩
      rw [step, List.getElem?_append_left (List.getElem?_eq_some_iff.mp hk).1]
      exact hk
    | poll j now ended => exact exists_modify (fun k => hpoll k now ended) j h
    | resolve j a => exact exists_modify (fun k => hresolve k a) j h

theorem forall_mem_modify {f : Waiter → Waiter} (hf : ∀ k, P k → P (f k)) (i : Nat)
    (h : ∀ k ∈ ks, P k) : ∀ k ∈ ks.modify i f, P k := by
  intro k hk
  obtain ⟨j, hj⟩ := List.getElem?_of_mem hk
  rw [List.getElem?_modify] at hj
  obtain ⟨l, hl, hkl⟩ := Option.map_eq_some_iff.mp hj
  have hPl := h l (List.mem_of_getElem? hl)
  split at hkl <;> cases hkl
  · exact hf l hPl
  · exact hPl

/-- What holds of a new call holds of every call from its beginning. -/
theorem forall_run (hnew : ∀ start config now, P { start, config, called := now })
    (hpoll : ∀ k now ended, P k → P (k.poll now ended))
    (hresolve : ∀ k a, P k → P (k.resolve a)) (es : List Event) (h : ∀ k ∈ ks, P k) :
    ∀ k ∈ run ks es, P k := by
  induction es generalizing ks with
  | nil => exact h
  | cons e es ih =>
    refine ih ?_
    cases e with
    | call start config now =>
      intro k hk
      rcases List.mem_append.mp hk with hk | hk
      · exact h k hk
      · cases List.mem_singleton.mp hk
        exact hnew start config now
    | poll i now ended => exact forall_mem_modify (fun k => hpoll k now ended) i h
    | resolve i a => exact forall_mem_modify (fun k => hresolve k a) i h

end Kept

/-! ### What a call keeps to -/

theorem look_cases (k : Waiter) (now : Instant) :
    k.look now = k ∨ ∃ v, k.look now = k.finish now v := by
  unfold look
  split
  next => exact .inl rfl
  next => exact .inr ⟨_, rfl⟩
  next =>
    split
    · exact .inr ⟨_, rfl⟩
    · exact .inl rfl

/-- A look gives a result and lets go of the receiver, and does nothing else. -/
theorem look_frame (k : Waiter) (now : Instant) :
    (k.look now).start = k.start ∧ (k.look now).config = k.config ∧
      (k.look now).called = k.called ∧ (k.look now).published = k.published ∧
      (k.look now).channel.sent = k.channel.sent ∧
      (k.look now).channel.sender = k.channel.sender := by
  rcases look_cases k now with h | ⟨v, h⟩ <;> rw [h]
  · exact ⟨rfl, rfl, rfl, rfl, rfl, rfl⟩
  · exact ⟨rfl, rfl, rfl, rfl, rfl, rfl⟩

/-- What a waiting requester whose signal was accepted decides, by the end of its publication and
the clock alone. -/
def decision? (k : Waiter) (published : Option (Except FlowError Unit)) (now : Instant) :
    Option (Instant × Except FlowError Unit) :=
  match published with
  | some (.ok _) => some (now, .ok ())
  | some (.error e) => some (now, .error e)
  | none =>
    if k.deadline ≤ now then
      some (now, .error (.acceptanceTimeout k.start.resource.id k.config.timeout))
    else none

theorem result_look_of_accepted (hr : k.result = none) (hs : k.channel.sent = some .accepted) :
    (k.look now).result = k.decision? k.published now := by
  cases hp : k.published with
  | none =>
    rw [look_of_idle hr (by simp [work?, hp])]
    by_cases hd : k.deadline ≤ now <;> simp [decision?, hd, finish, hr]
  | some v =>
    cases v with
    | error e =>
      have hv : k.work? = some (.error e) := by simp only [work?, hp]
      rw [look_of_work hr hv]
      rfl
    | ok _ =>
      have hv : k.work? = some (.ok ()) := by simp [work?, hp, Channel.receive?, hs, verdict]
      rw [look_of_work hr hv]
      rfl

/-- Whoever still waits after a look has heard of no failure. -/
theorem unfailed_look (hr : (k.look now).result = none) (e : FlowError) :
    (k.look now).published ≠ some (.error e) := by
  rw [(look_frame k now).2.2.2.1]
  intro hp
  have hk : k.result = none := by
    rcases look_cases k now with h | ⟨v, h⟩ <;> rw [h] at hr
    · exact hr
    · cases hr
  have hw : k.work? = some (.error e) := by simp only [work?, hp]
  rw [look_of_work hk hw] at hr
  cases hr

structure Sound (k : Waiter) : Prop where
  receiver : k.channel.receiver = k.result.isNone
  unfailed : k.result = none → ∀ e, k.published ≠ some (.error e)

namespace Sound

theorem new (start : Start) (config : DispatcherConfig) (now : Instant) :
    Sound { start, config, called := now } :=
  ⟨rfl, fun _ _ => by simp⟩

theorem poll (h : Sound k) (now : Instant) (ended : Option (Except FlowError Unit)) :
    Sound (k.poll now ended) := by
  refine ⟨?_, unfailed_look⟩
  have hheard : (k.hear ended).channel.receiver = (k.hear ended).result.isNone := by
    rw [channel_hear, result_hear]
    exact h.receiver
  rcases look_cases (k.hear ended) now with hl | ⟨v, hl⟩ <;> rw [Waiter.poll, hl]
  · exact hheard
  · rfl

theorem resolve (h : Sound k) (a : Resolution) : Sound (k.resolve a) := by
  refine ⟨by simpa using h.receiver, ?_⟩
  rw [result_resolve, published_resolve]
  exact h.unfailed

end Sound

/-- What a resolving side learns is whether the requester still waits. -/
theorem report?_of_held (h : Sound k) (hs : k.channel.sender = true) :
    k.report? .accept = some k.result.isNone ∧
      k.report? .unwired = some (k.result.isNone && k.config.unwired == .accept) := by
  simp [report?, hs, Resolution.report?, Resolution.grants, Channel.resolve, Resolution.answer?,
    h.receiver]

theorem report?_of_result (h : Sound k) (hr : k.result ≠ none) : k.report? a ≠ some true := by
  have hreceiver : k.channel.receiver = false := by
    rw [h.receiver, Option.isNone_eq_false_iff]
    exact Option.isSome_iff_ne_none.mpr hr
  cases hs : k.channel.sender with
  | false => simp [report?, hs]
  | true =>
    cases a <;>
      simp [report?, hs, Resolution.report?, Resolution.grants, Channel.resolve,
        Resolution.answer?, hreceiver]

theorem held_of_told (h : Sound k) (htold : k.report? .accept = some true) :
    k.channel.sender = true ∧ k.result = none := by
  have hs : k.channel.sender = true := by
    cases hs : k.channel.sender with
    | true => rfl
    | false => simp [report?, hs] at htold
  refine ⟨hs, ?_⟩
  rw [(report?_of_held h hs).1] at htold
  simpa using htold

theorem sound_run (es : List Event) : ∀ k ∈ run [] es, Sound k :=
  forall_run (P := Sound) Sound.new (fun _ now ended h => h.poll now ended)
    (fun _ a h => h.resolve a) es (List.forall_mem_nil _)

/-- A result stays. -/
theorem exists_result {ks : List Waiter} {i : Nat} {x : Instant × Except FlowError Unit}
    (hk : ks[i]? = some k) (hx : k.result = some x) (es : List Event) :
    ∃ l, (run ks es)[i]? = some l ∧ l.result = some x := by
  refine exists_run (P := fun l => l.result = some x) ?_ ?_ es ⟨k, hk, hx⟩
  · intro l now ended hl
    have hne : l.result ≠ none := by simp [hl]
    rw [poll, hear_of_result hne, look_of_result hne, hl]
  · intro l a hl
    rw [result_resolve, hl]

/-- The later states of a call whose resolving side has learnt that the flow may start. -/
structure Granted (k l : Waiter) : Prop where
  start : l.start = k.start
  config : l.config = k.config
  called : l.called = k.called
  sent : l.channel.sent = some .accepted
  used : l.channel.sender = false
  kept : ∀ t v, l.result = some (t, v) →
    v = .ok () ∨ (∃ e, l.published = some (.error e) ∧ v = .error e) ∨
      (l.published = none ∧ k.deadline ≤ t ∧
        v = .error (.acceptanceTimeout k.start.resource.id k.config.timeout))

namespace Granted

variable {l : Waiter}

theorem deadline_eq (h : Granted k l) : l.deadline = k.deadline := by
  simp only [deadline, h.called, h.config]

theorem accept (hs : k.channel.sender = true) (hr : k.result = none)
    (hreceiver : k.channel.receiver = true) : Granted k (k.resolve .accept) := by
  rw [resolve_open hs]
  refine ⟨rfl, rfl, rfl, ?_, rfl, ?_⟩
  · simp [Channel.resolve, Resolution.answer?, hreceiver]
  · simp [hr]

theorem hear (h : Granted k l) (ended : Option (Except FlowError Unit)) :
    Granted k (l.hear ended) := by
  cases hr : l.result with
  | some x =>
    rw [hear_of_result (by simp [hr])]
    exact h
  | none =>
    rw [hear_of_waiting hr]
    exact ⟨h.start, h.config, h.called, h.sent, h.used, by simp [hr]⟩

theorem result_look (h : Granted k l) (hr : l.result = none) :
    (l.look now).result = k.decision? l.published now := by
  rw [result_look_of_accepted hr h.sent]
  simp only [decision?, h.deadline_eq, h.start, h.config]

theorem look (h : Granted k l) (now : Instant) : Granted k (l.look now) := by
  cases hr : l.result with
  | some x =>
    rw [look_of_result (by simp [hr])]
    exact h
  | none =>
    obtain ⟨hstart, hconfig, hcalled, hpublished, hsent, hsender⟩ := look_frame l now
    refine ⟨hstart.trans h.start, hconfig.trans h.config, hcalled.trans h.called,
      hsent.trans h.sent, hsender.trans h.used, fun t v hv => ?_⟩
    rw [h.result_look hr] at hv
    rw [hpublished]
    cases hp : l.published with
    | none =>
      simp only [decision?, hp] at hv
      split at hv
      next hle => cases hv; exact .inr (.inr ⟨rfl, hle, rfl⟩)
      next => cases hv
    | some w =>
      simp only [decision?, hp] at hv
      cases w with
      | ok _ => cases hv; exact .inl rfl
      | error e => cases hv; exact .inr (.inl ⟨e, rfl, rfl⟩)

theorem poll (h : Granted k l) (now : Instant) (ended : Option (Except FlowError Unit)) :
    Granted k (l.poll now ended) :=
  (h.hear ended).look now

theorem resolve (h : Granted k l) (a : Resolution) : Granted k (l.resolve a) := by
  rw [resolve_used h.used]
  exact h

theorem result_poll (h : Granted k l) (hr : l.result = none) :
    (l.poll now ended).result = k.decision? (ended.or l.published) now := by
  have hheard : (l.hear ended).result = none := by rw [result_hear, hr]
  rw [Waiter.poll, (h.hear ended).result_look hheard, hear_of_waiting hr]

end Granted

theorem exists_granted {ks : List Waiter} {i : Nat} (hk : ks[i]? = some k) (h : Sound k)
    (htold : k.report? .accept = some true) (es : List Event) :
    ∃ l, (run ks (.resolve i .accept :: es))[i]? = some l ∧ Granted k l := by
  obtain ⟨hs, hr⟩ := held_of_told h htold
  have hreceiver : k.channel.receiver = true := by rw [h.receiver, hr]; rfl
  have hstep : (step ks (.resolve i .accept))[i]? = some (k.resolve .accept) := by
    simp [step, hk]
  exact exists_run (P := Granted k) (fun _ now ended hl => hl.poll now ended)
    (fun _ a hl => hl.resolve a) es ⟨_, hstep, Granted.accept hs hr hreceiver⟩

/-! ### Requests on a bus -/

section Played

open Request (Moment)

variable {ms : List Moment}

/-- Every end of a publication has a look after it. -/
def Heard (ms : List Moment) : Prop :=
  ∀ before m after result, ms = before ++ m :: after → m.event = .publicationEnds result →
    ∃ x ∈ after, x.event = .look

theorem heard_schedule (publication : Option (Instant × Except FlowError Unit))
    (answer : Option Request.Answer) : Heard (r.schedule publication answer) := by
  intro before m after result hms hm
  have hmem : m ∈ r.schedule publication answer := by
    rw [hms]
    simp
  rcases Request.mem_schedule.mp hmem with ⟨t, v, hp, rfl | rfl⟩ | ⟨a, _, rfl | rfl⟩ | rfl <;>
    cases hm
  have hlook : ⟨t, .requester, .look⟩ ∈ r.schedule publication answer :=
    Request.mem_schedule.mpr (.inl ⟨t, _, hp, .inr rfl⟩)
  have hsorted : (r.schedule publication answer).Pairwise (·.notAfter ·) :=
    Request.pairwise_schedule
  rw [hms, List.pairwise_append] at hsorted
  rw [hms, List.mem_append, List.mem_cons] at hlook
  rcases hlook with hbefore | hm | hafter
  · have hle := hsorted.2.2 _ hbefore _ List.mem_cons_self
    simp [Moment.notAfter, Request.Turn.rank] at hle
  · cases hm
  · exact ⟨_, hafter, rfl⟩

theorem publicationEnds_twice (v w : Except FlowError Unit) :
    (r.publicationEnds v).publicationEnds w = r.publicationEnds w := by
  cases hr : r.result <;> simp [Request.publicationEnds, Request.waiting, hr]

theorem resolve_publicationEnds (v : Except FlowError Unit) (a : Resolution) :
    (r.publicationEnds v).resolve a = (r.resolve a).publicationEnds v := by
  cases hr : r.result <;> simp [Request.publicationEnds, Request.resolve, Request.waiting, hr]

/-- Whatever moments a request goes through, polls and resolutions bring it there. The end of a
publication is put off to the look that hears of it. -/
theorem exists_requests (hms : Heard ms) (ended : Option (Except FlowError Unit))
    (hended : ended ≠ none → ∃ x ∈ ms, x.event = .look) :
    ∃ es, requests [r] es = [(ended.elim r r.publicationEnds).play ms] := by
  induction ms generalizing r ended with
  | nil =>
    cases ended with
    | none => exact ⟨[], rfl⟩
    | some v => simpa using hended (by simp)
  | cons m ms ih =>
    have hrest : Heard ms := fun before x after v h => hms (m :: before) x after v (by rw [h]; rfl)
    have hstep : (ended.elim r r.publicationEnds).play (m :: ms) =
      ((ended.elim r r.publicationEnds).step m.time m.event).play ms := rfl
    rw [hstep]
    cases hm : m.event with
    | publicationEnds v =>
      have hend : (ended.elim r r.publicationEnds).publicationEnds v = r.publicationEnds v := by
        cases ended with
        | none => rfl
        | some w => exact publicationEnds_twice w v
      obtain ⟨es, hes⟩ := ih (r := r) hrest (some v) fun _ => hms [] m ms v rfl hm
      exact ⟨es, by rw [hes, Request.step, hend]; rfl⟩
    | resolved a =>
      have hput : (ended.elim r r.publicationEnds).resolve a =
          ended.elim (r.resolve a) (r.resolve a).publicationEnds := by
        cases ended with
        | none => rfl
        | some w => exact resolve_publicationEnds w a
      have hleft : ended ≠ none → ∃ x ∈ ms, x.event = .look := by
        intro hne
        obtain ⟨x, hx, hlook⟩ := hended hne
        rcases List.mem_cons.mp hx with rfl | hx
        · cases hm.symm.trans hlook
        · exact ⟨x, hx, hlook⟩
      obtain ⟨es, hes⟩ := ih (r := r.resolve a) hrest ended hleft
      exact ⟨.resolve 0 a :: es, by rw [Request.step, hput, ← hes]; rfl⟩
    | look =>
      have hpoll : (ended.elim r r.publicationEnds).look m.time = r.poll m.time ended := by
        cases ended <;> rfl
      obtain ⟨es, hes⟩ := ih (r := r.poll m.time ended) hrest none (absurd rfl)
      exact ⟨.poll 0 m.time ended :: es, by rw [Request.step, hpoll]; exact hes⟩

theorem exists_requests_trigger {β : Type} (bus : Bus β) (config : DispatcherConfig) (state : β)
    (s : Start) (now : Instant) :
    ∃ es, requests [] (.call s config now :: es) = [(bus.trigger config state s now).1] :=
  exists_requests (heard_schedule _ _) none (absurd rfl)

end Played

/-- The requesters of any buses and their signals. On whatever bus a message is published, its
request is one of those of a run, and calls and requests come to the same. A resolving side that
answers learns just whether the requester still waits and takes such a flow. A requester that has
returned keeps its result, and nobody is told after that that its flow may start. After an
acceptance that was told so, the requester returns well as soon as its publication ends well; it
fails only with its publication, or at its deadline when that has not ended. -/
theorem answers_reach_waiting {β : Type} (bus : Bus β) (config : DispatcherConfig) (state : β)
    (s : Start) (now : Instant) (es fs : List Event) :
    (∃ own, requests [] (.call s config now :: own) = [(bus.trigger config state s now).1]) ∧
    List.Forall₂ (fun k r => k.start = r.start ∧ k.config = r.config ∧ k.called = r.called ∧
        k.result = r.result ∧ (k.channel.sender = true → ∀ a, k.report? a = r.report? a))
      (run [] es) (requests [] es) ∧
    ∀ i k, (run [] es)[i]? = some k →
      (k.channel.sender = true →
        k.report? .accept = some k.result.isNone ∧
        k.report? .unwired = some (k.result.isNone && k.config.unwired == .accept)) ∧
      (∀ x, k.result = some x → ∃ l, (run [] (es ++ fs))[i]? = some l ∧ l.result = some x ∧
        ∀ a, l.report? a ≠ some true) ∧
      (k.report? .accept = some true → (∀ e, k.published ≠ some (.error e)) ∧
        ∃ l, (run [] (es ++ .resolve i .accept :: fs))[i]? = some l ∧
          (∀ t v, l.result = some (t, v) →
            v = .ok () ∨ (∃ e, l.published = some (.error e) ∧ v = .error e) ∨
              (l.published = none ∧ k.deadline ≤ t ∧
                v = .error (.acceptanceTimeout k.start.resource.id k.config.timeout))) ∧
          (l.result = none → ∀ t ended,
            (l.poll t ended).result = k.decision? (ended.or l.published) t)) := by
  refine ⟨exists_requests_trigger bus config state s now, ?_, fun i k hk => ?_⟩
  · refine (mirrors_run es .nil).imp fun k r h => ?_
    exact ⟨h.start, h.config, h.called, h.result, fun hs a => h.report?_eq hs⟩
  have hsound : Sound k := sound_run es k (List.mem_of_getElem? hk)
  refine ⟨report?_of_held hsound, fun x hx => ?_, fun htold => ?_⟩
  · obtain ⟨l, hl, hlx⟩ := exists_result hk hx fs
    rw [← run_append] at hl
    refine ⟨l, hl, hlx, fun a => ?_⟩
    exact report?_of_result (sound_run _ l (List.mem_of_getElem? hl)) (by simp [hlx])
  · obtain ⟨hs, hr⟩ := held_of_told hsound htold
    obtain ⟨l, hl, hgranted⟩ := exists_granted hk hsound htold fs
    rw [← run_append] at hl
    exact ⟨hsound.unfailed hr, l, hl, hgranted.kept, fun hnone _ _ => hgranted.result_poll hnone⟩

/-- Two calls of requesters with different settings. The first has run out of time. -/
def outlasted : List Event :=
  [.call (Flow.order .repair "a") ⟨.ofSecs 10, .reject⟩ 0,
    .call (Flow.order .delete "b") ⟨.ofSecs 10, .accept⟩ 2, .poll 0 10000 none]

theorem answers_reach_waiting_outlasted :
    ∃ k l m, (run [] outlasted)[0]? = some k ∧
      k.result = some (10000, .error (.acceptanceTimeout "17" (.ofSecs 10))) ∧
      k.report? .accept = some false ∧
      (run [] outlasted)[1]? = some l ∧ l.report? .accept = some true ∧
      l.report? .unwired = some true ∧
      (run [] (outlasted ++ [.resolve 1 .accept]))[1]? = some m ∧
      (m.poll 10001 (some (.ok ()))).result = some (10001, .ok ()) := by
  obtain ⟨-, -, hall⟩ := answers_reach_waiting Bus.counting ⟨.ofSecs 10, .reject⟩ 0
    (Flow.order .repair "a") 0 outlasted []
  obtain ⟨hlate, -, -⟩ := hall 0 _ rfl
  obtain ⟨hheld, -, htold⟩ := hall 1 _ rfl
  obtain ⟨-, m, hm, -, hnext⟩ := htold (hheld rfl).1
  have hpending : m.result = none := by
    cases hm
    rfl
  exact ⟨_, _, m, rfl, rfl, (hlate rfl).1, rfl, (hheld rfl).1, (hheld rfl).2, hm,
    hnext hpending 10001 (some (.ok ()))⟩

end Waiter

end ClusterControl
