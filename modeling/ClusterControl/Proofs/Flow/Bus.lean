import ClusterControl.Flow.Bus
import ClusterControl.Proofs.Flow.Request
import ClusterControl.Proofs.Flow.Scheduler

/-!
# Requests on any bus

The moments of a request are played in their order, and the first look that can decide gives the
result. By then the requester has seen whatever comes before that look, and no look before it had
seen enough. So the result follows from three times alone: the end of the publication, the
resolution of the signal, and the deadline. A cancellation has no deadline and is as long as its
publication.
-/

namespace ClusterControl

namespace Request

open Moment (notAfter)

variable {r : Request} {ms before : List Moment} {m k : Moment} {now : Instant}
  {publication : Option (Instant × Except FlowError Unit)} {answer : Option Answer}

theorem notAfter_iff {a b : Moment} :
    a.notAfter b = true ↔
      LT.lt (α := Nat) a.time b.time ∨
        Eq (α := Nat) a.time b.time ∧ a.turn.rank ≤ b.turn.rank := by
  simp [notAfter]

theorem notAfter_eq_false {a b : Moment} :
    a.notAfter b = false ↔
      LT.lt (α := Nat) b.time a.time ∨
        Eq (α := Nat) b.time a.time ∧ b.turn.rank < a.turn.rank := by
  rw [← Bool.not_eq_true, notAfter_iff]
  omega

/-- The moments of a schedule come in order. -/
theorem pairwise_schedule : (r.schedule publication answer).Pairwise (·.notAfter ·) := by
  refine List.pairwise_mergeSort ?_ ?_ _
  · intro a b c hab hbc
    rw [notAfter_iff] at *
    omega
  · intro a b
    rw [Bool.or_eq_true, notAfter_iff, notAfter_iff]
    omega

theorem play_append (a b : List Moment) : r.play (a ++ b) = (r.play a).play b :=
  List.foldl_append

theorem play_concat : r.play (ms ++ [m]) = (r.play ms).step m.time m.event := play_append _ _

/-- A result stays to the end. -/
theorem result_play {x : Instant × Except FlowError Unit} (h : r.result = some x) :
    (r.play ms).result = some x := by
  induction ms generalizing r with
  | nil => exact h
  | cons m ms ih => exact ih (result_step h m.time m.event)

/-- Whoever waits at the end has waited all along. -/
theorem waiting_of_append {a b : List Moment} (h : (r.play (a ++ b)).result = none) :
    (r.play a).result = none := by
  cases ha : (r.play a).result with
  | none => rfl
  | some x => rw [play_append, result_play ha] at h; cases h

/-- Nothing that happens to a request changes what was asked for. -/
theorem step_frame (e : Event) :
    (r.step now e).start = r.start ∧ (r.step now e).config = r.config ∧
      (r.step now e).called = r.called := by
  cases e with
  | publicationEnds | resolved =>
    simp only [step, publicationEnds, resolve]
    split <;> exact ⟨rfl, rfl, rfl⟩
  | look =>
    rw [step, look_eq]
    exact ⟨rfl, rfl, rfl⟩

theorem play_frame :
    (r.play ms).start = r.start ∧ (r.play ms).config = r.config ∧
      (r.play ms).called = r.called := by
  induction ms generalizing r with
  | nil => exact ⟨rfl, rfl, rfl⟩
  | cons m ms ih =>
    obtain ⟨hs, hc, hd⟩ := ih (r := r.step m.time m.event)
    obtain ⟨hs', hc', hd'⟩ := @step_frame r m.time m.event
    exact ⟨hs.trans hs', hc.trans hc', hd.trans hd'⟩

@[simp] theorem deadline_play : (r.play ms).deadline = r.deadline := by
  simp [deadline, play_frame]

@[simp] theorem verdict_play (a : Resolution) : (r.play ms).verdict a = r.verdict a := by
  simp [verdict, play_frame]

/-- What a waiting requester decides when it looks. -/
def decision? (r : Request) (now : Instant) : Option (Except FlowError Unit) :=
  r.work?.or
    (if r.deadline ≤ now then
      some (.error (.acceptanceTimeout r.start.resource.id r.config.timeout))
    else none)

theorem result_look (h : r.result = none) :
    (r.look now).result = (r.decision? now).map (now, ·) := by
  cases hv : r.work? with
  | some v => simp [look, decision?, h, hv]
  | none =>
    by_cases hd : r.deadline ≤ now <;> simp [look, decision?, h, hv, hd]

/-- Without its work done a requester can only run out of time. -/
theorem decision?_of_idle {v : Except FlowError Unit} (hw : r.work? = none) :
    r.decision? now = some v ↔ r.deadline ≤ now ∧
      v = .error (.acceptanceTimeout r.start.resource.id r.config.timeout) := by
  simp [decision?, hw, eq_comm]

/-- A look that decides has the decision as its result, and nothing else gives a result. -/
theorem step_eq_some {x : Instant × Except FlowError Unit} (hr : r.result = none) :
    (r.step m.time m.event).result = some x ↔
      m.event = .look ∧ ∃ v, r.decision? m.time = some v ∧ x = (m.time, v) := by
  cases m.event with
  | publicationEnds | resolved => simp [step, publicationEnds, resolve, waiting, hr]
  | look => simp [step, result_look hr, Option.map_eq_some_iff, eq_comm (a := x)]

/-- A result is the decision of the first look that decides. -/
theorem exists_decisive {x : Instant × Except FlowError Unit} (hr : r.result = none)
    (h : (r.play ms).result = some x) :
    ∃ before m after v, ms = before ++ m :: after ∧ m.event = .look ∧
      (r.play before).result = none ∧ (r.play before).decision? m.time = some v ∧
      x = (m.time, v) := by
  induction ms generalizing r with
  | nil => exact absurd (hr.symm.trans h) (by simp)
  | cons m ms ih =>
    cases hs : (r.step m.time m.event).result with
    | none =>
      obtain ⟨before, k, after, v, rfl, hk, hw, hd, hx⟩ := ih hs h
      exact ⟨m :: before, k, after, v, rfl, hk, hw, hd, hx⟩
    | some y =>
      obtain ⟨hlook, v, hv, rfl⟩ := (step_eq_some hr).mp hs
      have hfirst : ((r.step m.time m.event).play ms).result = some (m.time, v) := result_play hs
      exact ⟨[], m, ms, v, rfl, hlook, hr, hv, Option.some.inj (h.symm.trans hfirst)⟩

/-- A look that did not decide had seen too little, and came before the deadline. -/
theorem undecided_of_mem (hw : (r.play ms).result = none) (hk : k ∈ ms) (hlook : k.event = .look) :
    ∃ a b, ms = a ++ k :: b ∧ (r.play a).result = none ∧ (r.play a).work? = none ∧
      LT.lt (α := Nat) k.time r.deadline := by
  obtain ⟨a, b, rfl⟩ := List.append_of_mem hk
  have hak : (r.play (a ++ [k])).result = none := by
    apply waiting_of_append (b := b)
    simpa using hw
  have ha := waiting_of_append hak
  rw [play_concat, hlook, step, result_look ha, Option.map_eq_none_iff, decision?,
    Option.or_eq_none_iff] at hak
  refine ⟨a, b, rfl, ha, hak.1, ?_⟩
  simpa using hak.2

/-- A requester that looks at its deadline comes to a result. -/
theorem exists_result (hk : k ∈ ms) (hlook : k.event = .look) (hd : r.deadline ≤ k.time) :
    ∃ x, (r.play ms).result = some x := by
  cases hw : (r.play ms).result with
  | some x => exact ⟨x, rfl⟩
  | none =>
    obtain ⟨_, _, _, _, _, hlt⟩ := undecided_of_mem hw hk hlook
    exact absurd hd (Nat.not_le.mpr hlt)

def Event.published? : Event → Option (Except FlowError Unit)
  | .publicationEnds result => some result
  | _ => none

def Event.resolved? : Event → Option Resolution
  | .resolved a => some a
  | _ => none

/-- A requester that still waits has seen all that has happened: the last end of publication and
the first resolution. -/
theorem seen_play (hw : (r.play ms).result = none) :
    (r.play ms).published = (ms.filterMap (·.event.published?)).getLast?.or r.published ∧
    (r.play ms).resolved = r.resolved.or (ms.filterMap (·.event.resolved?)).head? := by
  induction ms generalizing r with
  | nil => simp [play]
  | cons m ms ih =>
    have hr : r.result = none := waiting_of_append (a := []) (b := m :: ms) hw
    obtain ⟨hp, ha⟩ := ih (r := r.step m.time m.event) hw
    refine ⟨hp.trans ?_, ha.trans ?_⟩ <;> cases he : m.event
    all_goals simp [he, step, publicationEnds, resolve, waiting, hr, Event.published?,
      Event.resolved?, List.getLast?_cons]

namespace Answer

def moment (a : Answer) : Moment :=
  ⟨a.time, if a.inside then .inside else .outside, .resolved a.resolution⟩

def look (a : Answer) : Moment := ⟨a.time, if a.inside then .requester else .afterwards, .look⟩

end Answer

theorem mem_schedule : m ∈ r.schedule publication answer ↔
    (∃ t result, publication = some (t, result) ∧
      (m = ⟨t, .publication, .publicationEnds result⟩ ∨ m = ⟨t, .requester, .look⟩)) ∨
    (∃ a, answer = some a ∧ (m = a.moment ∨ m = a.look)) ∨
    m = ⟨r.deadline, .requester, .look⟩ := by
  unfold schedule
  rw [List.mem_mergeSort, List.mem_append, List.mem_append, or_assoc]
  refine or_congr ?_ (or_congr ?_ ?_)
  · cases publication with
    | none => simp
    | some x =>
      obtain ⟨t, result⟩ := x
      simp only [List.mem_cons, List.not_mem_nil, or_false, Option.some.injEq, Prod.mk.injEq]
      constructor
      · exact fun h => ⟨t, result, ⟨rfl, rfl⟩, h⟩
      · rintro ⟨_, _, ⟨rfl, rfl⟩, h⟩
        exact h
  · cases answer with
    | none => simp
    | some a => cases h : a.inside <;> simp [Answer.moment, Answer.look, h]
  · simp

/-- What some moments of a schedule add up to for the requester: a failed publication, or a
publication that went well and an answer. -/
inductive Work (r : Request) (publication : Option (Instant × Except FlowError Unit))
    (answer : Option Answer) (ms : List Moment) : Except FlowError Unit → Prop
  | failed {t : Instant} {e : FlowError} (ends : publication = some (t, .error e))
      (seen : ⟨t, .publication, .publicationEnds (.error e)⟩ ∈ ms) :
      Work r publication answer ms (.error e)
  | answered {t : Instant} {a : Answer} (ends : publication = some (t, .ok ()))
      (resolves : answer = some a) (seen : ⟨t, .publication, .publicationEnds (.ok ())⟩ ∈ ms)
      (heard : a.moment ∈ ms) :
      Work r publication answer ms (r.verdict a.resolution)

theorem Work.mono {v : Except FlowError Unit} {ls : List Moment}
    (h : Work r publication answer ms v) (hsub : ms ⊆ ls) : Work r publication answer ls v := by
  cases h with
  | failed ends seen => exact .failed ends (hsub seen)
  | answered ends resolves seen heard => exact .answered ends resolves (hsub seen) (hsub heard)

section Scheduled

variable {config : DispatcherConfig} {s : Start} {result : Except FlowError Unit}

/-- A requester that still waits has seen the end of the publication just when that was among its
moments. -/
theorem published_play (hs : ms ⊆ (Request.new config s now).schedule publication answer)
    (hw : ((Request.new config s now).play ms).result = none) :
    ((Request.new config s now).play ms).published = some result ↔
      ∃ t, publication = some (t, result) ∧
        ⟨t, .publication, .publicationEnds result⟩ ∈ ms := by
  have hp := (seen_play hw).1
  rw [show (Request.new config s now).published = none from rfl, Option.or_none] at hp
  have hsound : ∀ y, ((Request.new config s now).play ms).published = some y →
      ∃ t, publication = some (t, y) ∧ ⟨t, .publication, .publicationEnds y⟩ ∈ ms := by
    intro y hy
    obtain ⟨k, hk, he⟩ := List.mem_filterMap.mp (List.mem_of_getLast? (hp ▸ hy))
    rcases mem_schedule.mp (hs hk) with ⟨t, z, hz, rfl | rfl⟩ | ⟨_, _, rfl | rfl⟩ | rfl <;> cases he
    exact ⟨t, hz, hk⟩
  refine ⟨hsound result, ?_⟩
  rintro ⟨t, ht, hm⟩
  cases hy : ((Request.new config s now).play ms).published with
  | some y =>
    obtain ⟨u, hu, _⟩ := hsound y hy
    cases ht.symm.trans hu
    rfl
  | none =>
    rw [hp, List.getLast?_eq_none_iff] at hy
    cases List.filterMap_eq_nil_iff.mp hy _ hm

theorem resolved_play {resolution : Resolution}
    (hs : ms ⊆ (Request.new config s now).schedule publication answer)
    (hw : ((Request.new config s now).play ms).result = none) :
    ((Request.new config s now).play ms).resolved = some resolution ↔
      ∃ a, answer = some a ∧ a.resolution = resolution ∧ a.moment ∈ ms := by
  have ha := (seen_play hw).2
  rw [show (Request.new config s now).resolved = none from rfl, Option.none_or] at ha
  have hsound : ∀ y, ((Request.new config s now).play ms).resolved = some y →
      ∃ a, answer = some a ∧ a.resolution = y ∧ a.moment ∈ ms := by
    intro y hy
    obtain ⟨k, hk, he⟩ := List.mem_filterMap.mp (List.mem_of_head? (ha ▸ hy))
    rcases mem_schedule.mp (hs hk) with ⟨_, _, _, rfl | rfl⟩ | ⟨a, hx, rfl | rfl⟩ | rfl <;> cases he
    exact ⟨a, hx, rfl, hk⟩
  refine ⟨hsound resolution, ?_⟩
  rintro ⟨a, hx, rfl, hm⟩
  cases hy : ((Request.new config s now).play ms).resolved with
  | some y =>
    obtain ⟨b, hb, rfl, _⟩ := hsound y hy
    cases hx.symm.trans hb
    rfl
  | none =>
    rw [ha, List.head?_eq_none_iff] at hy
    cases List.filterMap_eq_nil_iff.mp hy _ hm

/-- A waiting requester has done the work that its moments add up to. -/
theorem work_play (hs : ms ⊆ (Request.new config s now).schedule publication answer)
    (hw : ((Request.new config s now).play ms).result = none) :
    ((Request.new config s now).play ms).work? = some result ↔
      Work (Request.new config s now) publication answer ms result := by
  constructor
  · intro h
    unfold work? at h
    split at h
    next => cases h
    next e he =>
      cases h
      obtain ⟨t, ht, hm⟩ := (published_play hs hw).mp he
      exact .failed ht hm
    next _ he =>
      obtain ⟨resolution, hr, rfl⟩ := Option.map_eq_some_iff.mp h
      obtain ⟨t, ht, hm⟩ := (published_play hs hw).mp he
      obtain ⟨a, ha, rfl, hma⟩ := (resolved_play hs hw).mp hr
      rw [verdict_play]
      exact .answered ht ha hm hma
  · intro h
    cases h with
    | failed ends seen => simp [work?, (published_play hs hw).mpr ⟨_, ends, seen⟩]
    | answered ends resolves seen heard =>
      simp [work?, (published_play hs hw).mpr ⟨_, ends, seen⟩,
        (resolved_play hs hw).mpr ⟨_, resolves, rfl, heard⟩]

/-- The look that decides, the moments before it, and those after it. -/
structure Cut (r : Request) (publication : Option (Instant × Except FlowError Unit))
    (answer : Option Answer) (before : List Moment) (m : Moment) (after : List Moment) : Prop where
  parts : r.schedule publication answer = before ++ m :: after
  look : m.event = .look
  waits : (r.play before).result = none

namespace Cut

variable {after : List Moment}

theorem sorted (c : Cut r publication answer before m after) :
    (before ++ m :: after).Pairwise (·.notAfter ·) :=
  c.parts ▸ pairwise_schedule

theorem subset (c : Cut r publication answer before m after) :
    before ⊆ r.schedule publication answer :=
  c.parts ▸ List.subset_append_left _ _

theorem notAfter_of_mem (c : Cut r publication answer before m after) (hk : k ∈ before) :
    k.notAfter m = true :=
  (List.pairwise_append.mp c.sorted).2.2 k hk m List.mem_cons_self

/-- Whatever comes before the deciding look is among the moments before it. -/
theorem mem_before (c : Cut r publication answer before m after)
    (hk : k ∈ r.schedule publication answer) (hn : m.notAfter k = false) : k ∈ before := by
  rw [c.parts, List.mem_append, List.mem_cons] at hk
  rcases hk with hk | rfl | hk
  · exact hk
  · simp [notAfter] at hn
  · rw [(List.pairwise_cons.mp (List.pairwise_append.mp c.sorted).2.1).1 k hk] at hn
    cases hn

theorem mem_earlier {k x : Moment} (hx : x ∈ ms)
    (h : LT.lt (α := Nat) x.time k.time ∨
      Eq (α := Nat) x.time k.time ∧ x.turn.rank < k.turn.rank) :
    x ∈ ms.filter fun x => !k.notAfter x :=
  List.mem_filter.mpr ⟨hx, by rw [notAfter_eq_false.mpr h]; rfl⟩

/-- The deciding look is not after any look that can decide. -/
theorem notAfter_look (c : Cut (Request.new config s now) publication answer before m after)
    (hk : k ∈ (Request.new config s now).schedule publication answer) (hlook : k.event = .look)
    (hd : (Request.new config s now).deadline ≤ k.time ∨
      ∃ result, Work (Request.new config s now) publication answer
        (before.filter fun x => !k.notAfter x) result) :
    m.notAfter k = true := by
  cases hn : m.notAfter k with
  | true => rfl
  | false =>
    obtain ⟨a, b, hab, ha, hnone, hlt⟩ := undecided_of_mem c.waits (c.mem_before hk hn) hlook
    rcases hd with hd | ⟨_, hwork⟩
    · exact absurd hd (Nat.not_le.mpr hlt)
    · have hsub : (before.filter fun x => !k.notAfter x) ⊆ a := by
        intro x hx
        obtain ⟨hxb, hkx⟩ := List.mem_filter.mp hx
        have hsorted := (List.pairwise_append.mp c.sorted).1
        rw [hab, List.pairwise_append, List.pairwise_cons] at hsorted
        rw [hab, List.mem_append, List.mem_cons] at hxb
        rcases hxb with hxa | rfl | hxb
        · exact hxa
        · simp [notAfter] at hkx
        · rw [hsorted.2.1.1 x hxb] at hkx
          cases hkx
      have hs : a ⊆ (Request.new config s now).schedule publication answer :=
        fun x hx => c.subset (hab ▸ List.mem_append_left _ hx)
      rw [(work_play hs ha).mpr (hwork.mono hsub)] at hnone
      cases hnone

theorem le_deadline
    (c : Cut (Request.new config s now) publication answer before m after) :
    LE.le (α := Nat) m.time (Request.new config s now).deadline := by
  have h := c.notAfter_look (k := ⟨_, .requester, .look⟩)
    (mem_schedule.mpr (.inr (.inr rfl))) rfl (.inl (Nat.le_refl _))
  rw [notAfter_iff] at h
  simp only at h
  omega

/-- A deciding look that knows of a failed publication comes with its end. -/
theorem time_of_failed (c : Cut (Request.new config s now) publication answer before m after)
    {t : Instant} {e : FlowError} (ends : publication = some (t, .error e))
    (seen : ⟨t, .publication, .publicationEnds (.error e)⟩ ∈ before) : m.time = t := by
  have hlow := c.notAfter_of_mem seen
  have hhigh := c.notAfter_look (k := ⟨t, .requester, .look⟩)
    (mem_schedule.mpr (.inl ⟨t, _, ends, .inr rfl⟩)) rfl
    (.inr ⟨_, .failed ends (mem_earlier seen (.inr ⟨rfl, Nat.lt_succ_self 1⟩))⟩)
  rw [notAfter_iff] at hlow hhigh
  simp only at hlow hhigh
  exact Nat.le_antisymm (by omega) (by omega)

/-- A deciding look that knows of an answer comes with the later of the answer and the end of the
publication. -/
theorem time_of_answered (c : Cut (Request.new config s now) publication answer before m after)
    {t : Instant} {a : Answer} (ends : publication = some (t, .ok ())) (resolves : answer = some a)
    (seen : ⟨t, .publication, .publicationEnds (.ok ())⟩ ∈ before) (heard : a.moment ∈ before) :
    m.time = max t a.time := by
  have hseen := c.notAfter_of_mem seen
  have hheard := c.notAfter_of_mem heard
  rw [notAfter_iff] at hseen hheard
  simp only [Answer.moment] at hseen hheard
  have hhigh : LE.le (α := Nat) m.time (max (α := Nat) t a.time) := by
    rcases Nat.lt_or_ge a.time t with hlt | hge
    · have h := c.notAfter_look (k := ⟨t, .requester, .look⟩)
        (mem_schedule.mpr (.inl ⟨t, _, ends, .inr rfl⟩)) rfl
        (.inr ⟨_, .answered ends resolves (mem_earlier seen (.inr ⟨rfl, Nat.lt_succ_self 1⟩))
          (mem_earlier heard (.inl hlt))⟩)
      rw [notAfter_iff] at h
      simp only at h
      omega
    · have hrank : 1 < a.look.turn.rank ∧ a.moment.turn.rank < a.look.turn.rank := by
        cases hi : a.inside <;> simp [Answer.look, Answer.moment, hi, Turn.rank]
      have h := c.notAfter_look (k := a.look)
        (mem_schedule.mpr (.inr (.inl ⟨a, resolves, .inr rfl⟩))) rfl
        (.inr ⟨_, .answered ends resolves
          (mem_earlier seen ((Nat.lt_or_eq_of_le hge).imp id fun ht => ⟨ht, hrank.1⟩))
          (mem_earlier heard (.inr ⟨rfl, hrank.2⟩))⟩)
      rw [notAfter_iff] at h
      simp only [Answer.look] at h
      omega
  exact Nat.le_antisymm hhigh (by omega)

/-- Whatever happens by the deadline is seen by a look at the deadline, except for answers from
elsewhere at the very deadline. -/
theorem seen_of_late (c : Cut (Request.new config s now) publication answer before m after)
    (hlate : m.time = (Request.new config s now).deadline)
    (hk : k ∈ (Request.new config s now).schedule publication answer)
    (hn : LT.lt (α := Nat) k.time (Request.new config s now).deadline ∨
      Eq (α := Nat) k.time (Request.new config s now).deadline ∧ k.turn.rank < 2) :
    k ∈ before := by
  apply c.mem_before hk
  have hrank : 2 ≤ m.turn.rank := by
    have hm : m ∈ (Request.new config s now).schedule publication answer := by
      rw [c.parts]
      simp
    have hlook := c.look
    rcases mem_schedule.mp hm with ⟨_, _, _, rfl | rfl⟩ | ⟨a, _, rfl | rfl⟩ | rfl
    · cases hlook
    · simp [Turn.rank]
    · cases hlook
    · cases hi : a.inside <;> simp [Answer.look, hi, Turn.rank]
    · simp [Turn.rank]
  rw [notAfter_eq_false, hlate]
  omega

end Cut

/-- Some look decides, at the deadline at the latest. -/
theorem exists_cut (config : DispatcherConfig) (s : Start) (now : Instant)
    (publication : Option (Instant × Except FlowError Unit)) (answer : Option Answer) :
    let r := Request.new config s now
    ∃ before m after v, Cut r publication answer before m after ∧
      (r.play before).decision? m.time = some v ∧
      (r.play (r.schedule publication answer)).result = some (m.time, v) := by
  intro r
  obtain ⟨x, hx⟩ : ∃ x, (r.play (r.schedule publication answer)).result = some x :=
    exists_result (mem_schedule.mpr (.inr (.inr rfl))) rfl (Nat.le_refl _)
  obtain ⟨before, m, after, v, hl, hlook, hw, hd, rfl⟩ := exists_decisive rfl hx
  exact ⟨before, m, after, v, ⟨hl, hlook, hw⟩, hd, hx⟩

/-- The three ways in which a request ends. -/
theorem result_schedule
    (apart : ∀ a, answer = some a → a.inside = false →
      a.time ≠ (Request.new config s now).deadline) :
    let r := Request.new config s now
    ∃ t v, (r.play (r.schedule publication answer)).result = some (t, v) ∧
      ((∃ e, publication = some (t, .error e) ∧ t ≤ r.deadline ∧ v = .error e) ∨
        (∃ p a, publication = some (p, .ok ()) ∧ answer = some a ∧ t = max p a.time ∧
          t ≤ r.deadline ∧ v = r.verdict a.resolution) ∨
        ((∀ p e, publication = some (p, .error e) → r.deadline < p) ∧
          (∀ p a, publication = some (p, .ok ()) → answer = some a →
            r.deadline < max p a.time) ∧
          t = r.deadline ∧ v = .error (.acceptanceTimeout s.resource.id config.timeout))) := by
  intro r
  obtain ⟨before, m, after, v, c, hd, hx⟩ := exists_cut config s now publication answer
  replace hd : (r.play before).decision? m.time = some v := hd
  have hw : (r.play before).result = none := c.waits
  refine ⟨m.time, v, hx, ?_⟩
  cases hwork : (r.play before).work? with
  | some u =>
    have hu : u = v := by simpa [decision?, hwork] using hd
    subst hu
    cases (work_play c.subset hw).mp hwork with
    | failed ends seen =>
      obtain rfl := c.time_of_failed ends seen
      exact .inl ⟨_, ends, c.le_deadline, rfl⟩
    | answered ends resolves seen heard =>
      have ht := c.time_of_answered ends resolves seen heard
      exact .inr (.inl ⟨_, _, ends, resolves, ht, c.le_deadline, rfl⟩)
  | none =>
    have hlate : r.deadline ≤ m.time ∧
        v = .error (.acceptanceTimeout s.resource.id config.timeout) := by
      rw [decision?_of_idle hwork, deadline_play, play_frame.1, play_frame.2.1] at hd
      exact hd
    obtain ⟨hge, rfl⟩ := hlate
    have ht : m.time = r.deadline := Nat.le_antisymm c.le_deadline hge
    have hnone : ∀ u, ¬ Work r publication answer before u := by
      intro u hu
      rw [(work_play c.subset hw).mpr hu] at hwork
      cases hwork
    have hpub : ∀ p result, publication = some (p, result) → LE.le (α := Nat) p r.deadline →
        ⟨p, .publication, .publicationEnds result⟩ ∈ before := by
      intro p result hp hle
      refine c.seen_of_late ht (mem_schedule.mpr (.inl ⟨p, _, hp, .inl rfl⟩)) ?_
      exact (Nat.lt_or_eq_of_le hle).imp id fun h => ⟨h, Nat.lt_succ_self 1⟩
    refine .inr (.inr ⟨?_, ?_, ht, rfl⟩)
    · intro p e hp
      refine Nat.lt_of_not_le fun hle => hnone _ (.failed hp (hpub p _ hp hle))
    · intro p a hp ha
      refine Nat.lt_of_not_le fun hle => ?_
      have hpa := Nat.max_le.mp hle
      refine hnone _ (.answered hp ha (hpub p _ hp hpa.1) ?_)
      refine c.seen_of_late ht (mem_schedule.mpr (.inr (.inl ⟨a, ha, .inl rfl⟩))) ?_
      cases hi : a.inside with
      | true =>
        refine (Nat.lt_or_eq_of_le hpa.2).imp id fun h => ⟨h, ?_⟩
        simp [Answer.moment, hi, Turn.rank]
      | false => exact .inl (Nat.lt_of_le_of_ne hpa.2 (apart a ha hi))

end Scheduled

end Request

namespace Bus

variable {β : Type}

/-- A bus that counts its messages. Its signals are resolved from elsewhere, as those of flows
without admission control, while the publication still goes on. -/
def counting : Bus Nat where
  publish n now _ := (⟨some (now + 5, .ok ()), some ⟨now + 3, false, .unwired⟩⟩, n + 1)

/-- Three and a half milliseconds, which a clock of whole milliseconds shows as four. -/
def brief : Duration where
  secs := 0
  nanos := 3500000

theorem apart_counting {d : Instant} (h : (10 : Nat) ≠ d) :
    ∀ a, some (Request.Answer.mk 10 false .unwired) = some a → a.inside = false → a.time ≠ d := by
  rintro a ⟨⟩ _
  exact h

/-- A start holds its requester up until the deadline and no longer, on any bus. A cancellation has
no deadline: it holds its requester up as long as its publication goes on, so it returns within a
limit, the timeout or any other, only if that ends within the limit. -/
theorem return_times (bus : Bus β) (config : DispatcherConfig) (state : β) (now : Instant) :
    (∀ s, ∃ t v, (bus.trigger config state s now).1.result = some (t, v) ∧
      t ≤ now + config.timeout.ceilMillis) ∧
    ∀ resourceId user limit,
      ((∃ t, (bus.cancel state resourceId user now).1 = some t ∧ t ≤ limit) ↔
        ∃ t result,
          (bus.publish state now (.cancel resourceId user)).1.publication = some (t, result) ∧
            t ≤ limit) := by
  refine ⟨fun s => ?_, fun resourceId user limit => ?_⟩
  · obtain ⟨_, m, _, v, hcut, -, hresult⟩ := Request.exists_cut config s now
      (bus.publish state now (.start s)).1.publication (bus.publish state now (.start s)).1.answer
    exact ⟨m.time, v, hresult, hcut.le_deadline⟩
  have hcancel : (bus.cancel state resourceId user now).1 =
      (bus.publish state now (.cancel resourceId user)).1.publication.map (·.1) := rfl
  rw [hcancel]
  constructor
  · rintro ⟨t, ht, hle⟩
    obtain ⟨⟨_, result⟩, hp, rfl⟩ := Option.map_eq_some_iff.mp ht
    exact ⟨_, result, hp, hle⟩
  · rintro ⟨t, result, hp, hle⟩
    exact ⟨t, by rw [hp]; rfl, hle⟩

/-- A bus that takes its time for every message, or for ever, and answers none. -/
def stalled (delay : Option Nat) : Bus Unit where
  publish _ now _ := (⟨delay.map fun d => (now + d, .ok ()), none⟩, ())

/-- A requester with a timeout of a tenth of a second cancels. One bus holds it up for a minute,
another for ever. -/
theorem cancel_outlasts_timeout :
    (¬ ∀ (bus : Bus Unit) (config : DispatcherConfig) (resourceId user : String) (now : Instant),
      ∃ t, (bus.cancel () resourceId user now).1 = some t ∧ t ≤ now + config.timeout.ceilMillis) ∧
    ((stalled none).cancel () "17" "crn:user:1" 0).1 = none := by
  refine ⟨fun hbounded => ?_, rfl⟩
  obtain ⟨t, ht, hle⟩ :=
    hbounded (stalled (some 60000)) ⟨.ofMillis 100, .reject⟩ "17" "crn:user:1" 0
  have hlate : ((stalled (some 60000)).cancel () "17" "crn:user:1" 0).1 = some 60000 := rfl
  rw [hlate] at ht
  cases ht
  revert hle
  decide

end Bus

namespace Scheduler

variable {σ κ : Type}

/-- A scheduler as a bus for requesters of one policy: it answers from inside, and at once. -/
def toBus (policy : UnwiredPolicy) : Bus (Scheduler σ κ) where
  publish m now
    | .start s =>
      (⟨some (now, (m.claim s).1.published s), some ⟨now, true, (m.claim s).1.resolution⟩⟩,
        (m.start s policy true).2)
    | .cancel resourceId _ => (⟨some (now, .ok ()), none⟩, m.cancel resourceId)

/-- To publish to a scheduler is to publish on its bus. -/
theorem trigger_toBus (m : Scheduler σ κ) (config : DispatcherConfig) (s : Start)
    (now : Instant) :
    ((toBus config.unwired).trigger config m s now).1.result = (m.trigger config s now).1.result ∧
      ((toBus config.unwired).trigger config m s now).2 = (m.trigger config s now).2 := by
  refine ⟨?_, rfl⟩
  have hdeadline : LE.le (α := Nat) now (Request.new config s now).deadline :=
    Nat.le_add_right now config.timeout.ceilMillis
  obtain ⟨t, v, hresult, hends⟩ := @Request.result_schedule now
    (some (now, (m.claim s).1.published s)) (some ⟨now, true, (m.claim s).1.resolution⟩) config s
    (by rintro a ⟨⟩ ⟨⟩)
  rw [trigger_result]
  refine hresult.trans ?_
  rcases hends with ⟨e, he, _, rfl⟩ | ⟨p, a, hp, ha, rfl, _, rfl⟩ | ⟨hfailed, hanswered, _⟩
  · cases hc : (m.claim s).1 <;> simp_all [Claim.published, Claim.verdict]
  · cases ha
    cases hc : (m.claim s).1 <;> cases hu : config.unwired <;>
      simp_all [Claim.published, Claim.verdict, Claim.resolution, Request.verdict, Request.new]
  · exfalso
    cases hpub : (m.claim s).1.published s with
    | error e => exact absurd hdeadline (Nat.not_le.mpr (hfailed now e (by rw [hpub])))
    | ok =>
      have h := hanswered now _ (by rw [hpub]) rfl
      rw [Nat.max_self] at h
      exact absurd hdeadline (Nat.not_le.mpr h)

end Scheduler

end ClusterControl
