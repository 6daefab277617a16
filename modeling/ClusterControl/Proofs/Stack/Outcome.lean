import ClusterControl.Proofs.Poll.Bounds

/-!
# What a flow makes of a stack

A flow on a stack ends with the answer to its request when that is refused, and otherwise with what
its looks at the stack show: with the first answer that is good, bad, or a failure that counts, or
with none of these when its time runs out.
-/

namespace ClusterControl.Stack

open Poll (Terms verdict? final? finish? offset starts closing Inconclusive Fits)

/-- The status in which a kind of flow leaves a stack or a cluster when it fails. -/
def failed : Selector → StackStatus
  | .create => .createFailed
  | .repair => .updateFailed
  | .delete => .deleteFailed

/-- A deletion is after a stack that is gone, and the others are after one that is available
throughout. -/
def Good : Selector → Option StackView → Prop
  | .create, v | .repair, v =>
    ∃ w, v = some w ∧ w.stackStatus = .available ∧ w.clusterStatus = .available
  | .delete, v => v = none

def Bad (kind : Selector) (v : Option StackView) : Prop :=
  (v = none ∧ kind ≠ .delete) ∨
    ∃ w, v = some w ∧ (w.stackStatus = failed kind ∨ w.clusterStatus = failed kind)

def failure : Selector → String
  | .create => "Creation failed '"
  | .repair => "Repair failed '"
  | .delete => "Deletion failed '"

/-- The text of a bad end. The stack gives the reason before the cluster does. -/
def fault (kind : Selector) (r : Resource) : Option StackView → String
  | none => "Stack not found downstream for " ++ r.name
  | some w =>
    failure kind ++ r.name ++ "', " ++
      (if w.stackStatus = failed kind then w.stackReason else w.clusterReason).getD ""

/-- What a requester learns of a refused request. A repair of no stack is not refused. -/
inductive Refusal (r : Resource) : Selector → ProvisionerError → Except FlowError Unit → Prop
  | create (e : ProvisionerError) :
    Refusal r .create e
      (.error (.stepFailed ("Can not create stack for " ++ r.name ++ ": " ++ e.message)))
  | repair (text : String) :
    Refusal r .repair (.client text)
      (.error (.stepFailed
        ("Can not repair cluster, client error happened on the provisioner side: " ++ text)))
  | delete (text : String) :
    Refusal r .delete (.client text)
      (.error (.stepFailed
        ("Can not delete stack, client error happened on the provisioner side: " ++ text)))
  | gone (name : String) : Refusal r .delete (.stackNotFound name) (.ok ())

/-- An answer after which a flow looks again. -/
def Open (kind : Selector) (stop : Bool) : Except Failure (Option StackView) → Prop
  | .ok v => ¬ Good kind v ∧ ¬ Bad kind v
  | .error _ => stop = false

/-- What a flow makes of the answer to its look of a number, if it ends by that. -/
inductive Concludes (kind : Selector) (r : Resource) (stop : Bool) (attempt : Nat) :
    Except Failure (Option StackView) → Except FlowError Unit → Prop
  | good {v : Option StackView} (h : Good kind v) : Concludes kind r stop attempt (.ok v) (.ok ())
  | bad {v : Option StackView} (h : Bad kind v) :
    Concludes kind r stop attempt (.ok v) (.error (.poll (.stopped (fault kind r v))))
  | failed (f : Failure) (h : stop = true) :
    Concludes kind r stop attempt (.error f) (.error (.poll (.aborted attempt f)))

/-- What a flow comes to that has looked so many times from `origin` on and ends after `elapsed`:
the first answer that does not leave it open ends it, and without one it times out. -/
inductive Follows (kind : Selector) (r : Resource) (stop : Bool) (origin elapsed looks : Nat) :
    List (Instant × Except Failure (Option StackView)) → Except FlowError Unit → Prop
  | concluded {before : List (Instant × Except Failure (Option StackView))}
    {a : Except Failure (Option StackView)} {result : Except FlowError Unit}
    (undecided : ∀ x ∈ before, Open kind stop x.2) (h : Concludes kind r stop looks a result) :
    Follows kind r stop origin elapsed looks (before ++ [(origin + elapsed, a)]) result
  | timedOut {answers : List (Instant × Except Failure (Option StackView))}
    (undecided : ∀ x ∈ answers, Open kind stop x.2) :
    Follows kind r stop origin elapsed looks answers
      (.error (.poll (.timeout looks (.ofMillis elapsed))))

section Arrivals

variable {σ : Type} (p : Provisioner σ) (world : σ) (r : Resource) (limit : Nat)

/-- The answer to the look of a number, if it arrives by an instant, with its arrival. -/
def arrival? (attempt start : Nat) : Option (Instant × Except Failure (Option StackView)) :=
  let reply := p.status world r attempt start
  match reply.delay with
  | some d => if start + d ≤ limit then some (start + d, reply.answer) else none
  | none => none

def arrivals (looks : List Instant) : List (Instant × Except Failure (Option StackView)) :=
  (looks.zipIdx 1).filterMap fun x => arrival? p world r limit x.2 x.1

theorem arrivals_concat (looks : List Instant) (start : Instant) :
    arrivals p world r limit (looks ++ [start]) =
      arrivals p world r limit looks ++
        (arrival? p world r limit (looks.length + 1) start).toList := by
  have hlast : [start].zipIdx (1 + looks.length) = [(start, looks.length + 1)] := by
    simp [Nat.add_comm]
  rw [arrivals, List.zipIdx_append, List.filterMap_append, hlast]
  cases h : arrival? p world r limit (looks.length + 1) start <;> simp [arrivals, h]

end Arrivals

section Answers

variable {kind : Selector} {r : Resource} {v : Option StackView} {stop : Bool} {attempt : Nat}
  {a : Except Failure (Option StackView)}

theorem not_good_and_bad : ¬ (Good kind v ∧ Bad kind v) := by
  rintro ⟨hgood, ⟨rfl, hkind⟩ | ⟨w, rfl, hfailed⟩⟩
  · cases kind with
    | create | repair => obtain ⟨_, hw, _⟩ := hgood; cases hw
    | delete => exact hkind rfl
  · cases kind with
    | create | repair =>
      obtain ⟨_, hw, hstack, hcluster⟩ := hgood
      cases hw
      rcases hfailed with h | h
      · rw [hstack] at h; cases h
      · rw [hcluster] at h; cases h
    | delete => cases hgood

theorem outcome_of_good (h : Good kind v) : outcome kind r v = .finished () := by
  cases kind with
  | create | repair =>
    obtain ⟨w, rfl, hstack, hcluster⟩ := h
    simp [outcome, creationOutcome, repairOutcome, StackView.isAvailable, hstack, hcluster]
  | delete =>
    obtain rfl : v = none := h
    rfl

theorem failure?_eq_some {w : StackView} (status : StackStatus)
    (h : w.stackStatus = status ∨ w.clusterStatus = status) :
    w.failure? status =
      some ((if w.stackStatus = status then w.stackReason else w.clusterReason).getD "") := by
  unfold StackView.failure?
  by_cases hstack : w.stackStatus = status
  · simp [hstack]
  · simp [hstack, h.resolve_left hstack]

theorem failure?_eq_none {w : StackView} {status : StackStatus} :
    w.failure? status = none ↔ ¬ (w.stackStatus = status ∨ w.clusterStatus = status) := by
  unfold StackView.failure?
  by_cases hstack : w.stackStatus = status <;> by_cases hcluster : w.clusterStatus = status <;>
    simp [hstack, hcluster]

theorem isAvailable_iff {w : StackView} :
    w.isAvailable = true ↔ w.stackStatus = .available ∧ w.clusterStatus = .available := by
  simp [StackView.isAvailable]

theorem outcome_of_bad (h : Bad kind v) : outcome kind r v = .stop (fault kind r v) := by
  have hgood : ¬ Good kind v := fun hg => not_good_and_bad ⟨hg, h⟩
  rcases h with ⟨rfl, hkind⟩ | ⟨w, rfl, hfailed⟩
  · cases kind with
    | create | repair => rfl
    | delete => exact absurd rfl hkind
  · have hreason := failure?_eq_some (failed kind) hfailed
    cases kind with
    | create | repair =>
      have hnot : ¬ w.isAvailable = true := fun hav =>
        hgood ⟨w, rfl, isAvailable_iff.mp hav⟩
      simp only [failed] at hreason
      simp only [outcome, creationOutcome, repairOutcome, hnot, hreason]
      rfl
    | delete =>
      simp only [failed] at hreason
      simp only [outcome, deletionOutcome, hreason]
      rfl

theorem outcome_of_open (hgood : ¬ Good kind v) (hbad : ¬ Bad kind v) :
    outcome kind r v = .goOn := by
  cases v with
  | none =>
    exfalso
    by_cases hkind : kind = .delete
    · subst hkind
      exact hgood rfl
    · exact hbad (Or.inl ⟨rfl, hkind⟩)
  | some w =>
    have hnone : w.failure? (failed kind) = none :=
      failure?_eq_none.mpr fun hf => hbad (Or.inr ⟨w, rfl, hf⟩)
    cases kind with
    | create | repair =>
      have hnot : ¬ w.isAvailable = true := fun hav =>
        hgood ⟨w, rfl, isAvailable_iff.mp hav⟩
      simp only [failed] at hnone
      simp [outcome, creationOutcome, repairOutcome, hnot, hnone]
    | delete =>
      simp only [failed] at hnone
      simp [outcome, deletionOutcome, hnone]

/-- An answer that is not final leaves a flow open. -/
theorem open_of_verdict (h : verdict? stop attempt (a.map (outcome kind r)) = none) :
    Open kind stop a := by
  cases a with
  | error f =>
    cases stop with
    | false => rfl
    | true => simp [Except.map, verdict?] at h
  | ok v =>
    simp only [Except.map] at h
    refine ⟨fun hgood => ?_, fun hbad => ?_⟩
    · simp [outcome_of_good hgood, verdict?] at h
    · simp [outcome_of_bad hbad, verdict?] at h

/-- A final answer concludes a flow. -/
theorem concludes_of_verdict {e : Poll.Ending Unit}
    (h : verdict? stop attempt (a.map (outcome kind r)) = some e) :
    ∃ result, pollEnding e = .returned result ∧ Concludes kind r stop attempt a result := by
  cases a with
  | error f =>
    cases stop with
    | false => simp [Except.map, verdict?] at h
    | true =>
      cases h
      exact ⟨_, rfl, .failed f rfl⟩
  | ok v =>
    simp only [Except.map] at h
    by_cases hgood : Good kind v
    · rw [outcome_of_good hgood] at h
      cases h
      exact ⟨_, rfl, .good hgood⟩
    · by_cases hbad : Bad kind v
      · rw [outcome_of_bad hbad] at h
        cases h
        exact ⟨_, rfl, .bad hbad⟩
      · rw [outcome_of_open hgood hbad] at h
        cases h

/-- A flow ends with its request just when that is refused. -/
theorem afterRequest?_eq_some {answer : Except ProvisionerError Unit}
    {result : Except FlowError Unit} :
    afterRequest? r kind answer = some result ↔
      ∃ e, answer = .error e ∧ Refusal r kind e result := by
  constructor
  · intro h
    cases answer with
    | ok => simp [afterRequest?] at h
    | error e =>
      refine ⟨e, rfl, ?_⟩
      cases kind <;> cases e <;> simp only [afterRequest?, Option.some.injEq, reduceCtorEq] at h <;>
        subst h <;> constructor
  · rintro ⟨e, rfl, h⟩
    cases h <;> rfl

theorem afterRequest?_eq_none {answer : Except ProvisionerError Unit}
    (h : ∀ e result, answer = .error e → ¬ Refusal r kind e result) :
    afterRequest? r kind answer = none := by
  cases hafter : afterRequest? r kind answer with
  | none => rfl
  | some result =>
    obtain ⟨e, he, hrefusal⟩ := afterRequest?_eq_some.mp hafter
    exact absurd hrefusal (h e result he)

end Answers

section Looks

variable {σ : Type} {p : Provisioner σ} {world : σ} {kind : Selector} {r : Resource}
  {terms : Terms} {origin i k n t : Nat}

theorem arrival?_of_some (h : finish? terms (check p world kind r) origin i = some t) :
    arrival? p world r (origin + terms.deadline) (i + 1)
        (origin + offset terms (check p world kind r) origin i) =
      some (origin + t, (p.status world r (i + 1)
        (origin + offset terms (check p world kind r) origin i)).answer) := by
  obtain ⟨d, hd, rfl, hle⟩ := Poll.finish?_eq_some.mp h
  simp only [Poll.reply, check] at hd
  have hby : origin + offset terms (check p world kind r) origin i + d ≤
      origin + terms.deadline := by omega
  simp only [arrival?, hd, if_pos hby]
  rw [Nat.add_assoc]

theorem arrival?_of_none (h : finish? terms (check p world kind r) origin i = none) :
    arrival? p world r (origin + terms.deadline) (i + 1)
      (origin + offset terms (check p world kind r) origin i) = none := by
  have hlate := Poll.finish?_eq_none.mp h
  unfold arrival?
  dsimp only
  split
  next d hd => exact if_neg (Nat.not_le.mpr (hlate d hd))
  next => rfl

/-- An attempt that goes on has had an answer that left the flow open. -/
theorem open_arrivals (h : ∀ j < n, Inconclusive terms (check p world kind r) origin j) :
    ∀ x ∈ arrivals p world r (origin + terms.deadline)
      (starts terms (check p world kind r) origin n), Open kind terms.stopOnFailure x.2 := by
  induction n with
  | zero => simp [arrivals, starts]
  | succ n ih =>
    obtain ⟨⟨t, ht, _⟩, hfinal⟩ := h n (Nat.lt_succ_self n)
    rw [Poll.starts_succ, arrivals_concat, Poll.length_starts, arrival?_of_some ht]
    intro x hx
    rcases List.mem_append.mp hx with hx | hx
    · exact ih (fun j hj => h j (by omega)) x hx
    · obtain rfl := List.mem_singleton.mp hx
      exact open_of_verdict hfinal

/-- A poll that ends at its first conclusive attempt ends by the answer to that, if there is one in
time and it is final, and otherwise for want of time. -/
theorem follows_of_closing {e : Poll.Ending Unit}
    (h : ∀ j < k, Inconclusive terms (check p world kind r) origin j)
    (hclosing : closing terms (check p world kind r) origin k = (t, e)) :
    ∃ result, pollEnding e = .returned result ∧
      Follows kind r terms.stopOnFailure origin t (k + 1)
        (arrivals p world r (origin + terms.deadline)
          (starts terms (check p world kind r) origin (k + 1))) result := by
  have hbefore := open_arrivals h
  rw [Poll.starts_succ, arrivals_concat, Poll.length_starts]
  cases hfinish : finish? terms (check p world kind r) origin k with
  | none =>
    rw [Poll.closing_of_none hfinish] at hclosing
    cases hclosing
    rw [arrival?_of_none hfinish, Option.toList_none, List.append_nil]
    exact ⟨_, rfl, .timedOut hbefore⟩
  | some u =>
    rw [Poll.closing_of_some hfinish] at hclosing
    rw [arrival?_of_some hfinish, Option.toList_some]
    cases hfinal : final? terms (check p world kind r) origin k with
    | none =>
      rw [hfinal] at hclosing
      cases hclosing
      refine ⟨_, rfl, .timedOut fun x hx => ?_⟩
      rcases List.mem_append.mp hx with hx | hx
      · exact hbefore x hx
      · obtain rfl := List.mem_singleton.mp hx
        exact open_of_verdict hfinal
    | some f =>
      rw [hfinal] at hclosing
      cases hclosing
      obtain ⟨result, hresult, hconcludes⟩ := concludes_of_verdict hfinal
      exact ⟨result, hresult, .concluded hbefore hconcludes⟩

end Looks

section Courses

variable {σ : Type} {clock : Nat} {terms : Terms} {p : Provisioner σ} {world : σ}
  {kind : Selector} {s : Start} {begun d : Nat} {answer : Except ProvisionerError Unit}

/-- A flow whose request is refused ends with it. -/
theorem course_of_refused {result : Except FlowError Unit} {now : Nat} (hn : begun + d ≤ now)
    (h : afterRequest? s.resource kind answer = some result) :
    course clock terms p world kind s begun ⟨some d, answer⟩ now =
      ⟨[(begun, .request s.resource (request kind s.payload))],
        some (begun + d, .returned result)⟩ := by
  simp only [course, Nat.not_lt.mpr hn, if_false, h]

theorem course_of_granted {now : Nat} (hn : begun + d ≤ now)
    (h : afterRequest? s.resource kind answer = none) :
    course clock terms p world kind s begun ⟨some d, answer⟩ now =
      ⟨(begun, .request s.resource (request kind s.payload)) ::
          (Poll.watch clock terms (check p world kind s.resource) (begun + d) now).starts.map
            fun u => (u, .status s.resource),
        (Poll.watch clock terms (check p world kind s.resource) (begun + d) now).ending.map
          fun x => (x.1, pollEnding x.2)⟩ := by
  simp only [course, Nat.not_lt.mpr hn, if_false, h, pollProgress]

theorem course_of_early {now : Nat} (hn : now < begun + d) :
    course clock terms p world kind s begun ⟨some d, answer⟩ now =
      ⟨[(begun, .request s.resource (request kind s.payload))], none⟩ := by
  simp only [course, hn, if_true]

/-- What a flow makes of a poll that does not run out of any counter. -/
theorem course_of_fits (hasked : afterRequest? s.resource kind answer = none)
    (hclock : clock + (begun + d) + terms.deadline < Poll.clockLimit)
    (fits : Fits terms (check p world kind s.resource) (begun + d)) :
    ∃ looks elapsed result, elapsed ≤ terms.deadline ∧
      (∀ now, now < begun + d + elapsed →
        (course clock terms p world kind s begun ⟨some d, answer⟩ now).ending = none) ∧
      (∀ now, begun + d + elapsed ≤ now →
        course clock terms p world kind s begun ⟨some d, answer⟩ now =
          ⟨(begun, .request s.resource (request kind s.payload)) ::
              looks.map (·, .status s.resource),
            some (begun + d + elapsed, .returned result)⟩) ∧
      Follows kind s.resource terms.stopOnFailure (begun + d) elapsed looks.length
        (arrivals p world s.resource (begun + d + terms.deadline) looks) result := by
  obtain ⟨k, _, hbefore, _, hrun⟩ := Poll.exists_closing hclock fits
  rcases hclosing : closing terms (check p world kind s.resource) (begun + d) k with ⟨elapsed, e⟩
  have hby : (closing terms (check p world kind s.resource) (begun + d) k).1 ≤ terms.deadline :=
    Poll.closing_le
  obtain ⟨result, hresult, hfollows⟩ := follows_of_closing hbefore hclosing
  rw [hclosing] at hrun hby
  have hending : (Poll.run clock terms (check p world kind s.resource) (begun + d)).ending =
      some (begun + d + elapsed, e) := by rw [hrun]
  refine ⟨starts terms (check p world kind s.resource) (begun + d) (k + 1), elapsed, result, hby,
    fun now hnow => ?_, fun now hnow => ?_, by rwa [Poll.length_starts]⟩
  · by_cases hn : now < begun + d
    · rw [course_of_early hn]
    · rw [course_of_granted (Nat.le_of_not_lt hn) hasked, (Poll.watch_of_ending hending).1 hnow]
      rfl
  · have hn : begun + d ≤ now := by omega
    rw [course_of_granted hn hasked, (Poll.watch_of_ending hending).2 hnow, hrun]
    simp only [Option.map_some, hresult]

/-- Once its request is answered a flow ends by the deadline of its poll, in one way or another. -/
theorem isSome_course_ending {now : Nat} (hn : begun + d + terms.deadline ≤ now) :
    (course clock terms p world kind s begun ⟨some d, answer⟩ now).ending.isSome = true := by
  have hasked : begun + d ≤ now := Nat.le_trans (Nat.le_add_right _ _) hn
  cases h : afterRequest? s.resource kind answer with
  | some result =>
    rw [course_of_refused hasked h]
    rfl
  | none =>
    obtain ⟨t, e, hrun, hby⟩ :=
      Poll.exists_run_ending terms (check p world kind s.resource) (begun + d) clock
    rw [course_of_granted hasked h, (Poll.watch_of_ending hrun).2 (Nat.le_trans hby hn), hrun]
    rfl

/-- A flow that has ended was refused, or has ended as its poll does. -/
theorem course_ending_cases {now finish : Nat} {ending : Flow.Ending}
    (h : (course clock terms p world kind s begun ⟨some d, answer⟩ now).ending =
      some (finish, ending)) :
    (∃ result, afterRequest? s.resource kind answer = some result ∧ ending = .returned result) ∨
    afterRequest? s.resource kind answer = none ∧
      ∃ e, (Poll.run clock terms (check p world kind s.resource) (begun + d)).ending =
        some (finish, e) ∧ ending = pollEnding e := by
  have hasked : begun + d ≤ now := by
    by_contra hn
    rw [course_of_early (Nat.lt_of_not_le hn)] at h
    cases h
  cases hafter : afterRequest? s.resource kind answer with
  | some result =>
    rw [course_of_refused hasked hafter] at h
    cases h
    exact .inl ⟨result, rfl, rfl⟩
  | none =>
    obtain ⟨t, e, hrun, _⟩ :=
      Poll.exists_run_ending terms (check p world kind s.resource) (begun + d) clock
    rw [course_of_granted hasked hafter] at h
    rcases Nat.lt_or_ge now t with hopen | hover
    · rw [(Poll.watch_of_ending hrun).1 hopen] at h
      cases h
    · rw [(Poll.watch_of_ending hrun).2 hover, hrun] at h
      cases h
      exact .inr ⟨rfl, e, hrun, rfl⟩

end Courses

/-- A flow makes its request, and a refused one ends it at once. Otherwise it looks at the stack
until an answer concludes it, and if none does by the deadline it has timed out. This takes a clock
that holds the deadline, without which the flow crashes before its first look, and an attempt
counter and sums that hold what is put into them. -/
theorem flow_follows_answers {σ : Type} (clock : Nat) (terms : Terms) (p : Provisioner σ)
    (kind : Selector) (context : Flow.Context) (begun : Nat) (world : σ) :
    let r := context.start.resource
    let asked : Instant × StackCall := (begun, .request r (request kind context.start.payload))
    let answered := p.request world begun r (request kind context.start.payload)
    let flow := ((handler clock terms p kind).begin context begun world).1
    (∀ v, ¬ (Good kind v ∧ Bad kind v)) ∧
    (∀ now, ∃ looks : List Instant, (flow now).calls = asked :: looks.map (·, .status r)) ∧
    (answered.1.delay = none → ∀ now, flow now = ⟨[asked], none⟩) ∧
    ∀ d, answered.1.delay = some d →
      (∀ now, now < begun + d → flow now = ⟨[asked], none⟩) ∧
      (∀ e result, answered.1.answer = .error e → Refusal r kind e result →
        ∀ now, begun + d ≤ now → flow now = ⟨[asked], some (begun + d, .returned result)⟩) ∧
      ((∀ e result, answered.1.answer = .error e → ¬ Refusal r kind e result) →
        (Poll.clockLimit ≤ clock + (begun + d) + terms.deadline →
          ∀ now, begun + d ≤ now → flow now = ⟨[asked], some (begun + d, .crashed)⟩) ∧
        (clock + (begun + d) + terms.deadline < Poll.clockLimit →
          Fits terms (check p answered.2 kind r) (begun + d) →
          ∃ looks elapsed result, elapsed ≤ terms.deadline ∧
            (∀ now, now < begun + d + elapsed → (flow now).ending = none) ∧
            (∀ now, begun + d + elapsed ≤ now →
              flow now = ⟨asked :: looks.map (·, .status r),
                some (begun + d + elapsed, .returned result)⟩) ∧
            Follows kind r terms.stopOnFailure (begun + d) elapsed looks.length
              (arrivals p answered.2 r (begun + d + terms.deadline) looks) result)) := by
  intro r asked answered flow
  have hforever : answered.1.delay = none → ∀ now, flow now = ⟨[asked], none⟩ := fun hd now => by
    change course clock terms p answered.2 kind context.start begun answered.1 now = _
    simp only [course, hd]
    rfl
  have hflow : ∀ d, answered.1.delay = some d →
      flow = course clock terms p answered.2 kind context.start begun
        ⟨some d, answered.1.answer⟩ := by
    intro d hd
    rw [← hd]
    rfl
  refine ⟨fun v => not_good_and_bad, fun now => ?_, hforever, fun d hd => ?_⟩
  · exact asks_course clock terms p answered.2 { context.start with selector := kind } begun
      answered.1 now
  · rw [hflow d hd]
    refine ⟨fun now hn => course_of_early hn, fun e result he hrefusal now hn => ?_,
      fun hgranted => ?_⟩
    · exact course_of_refused hn (afterRequest?_eq_some.mpr ⟨e, he, hrefusal⟩)
    · have hasked : afterRequest? r kind answered.1.answer = none :=
        afterRequest?_eq_none hgranted
      refine ⟨fun hfull now hn => ?_, course_of_fits hasked⟩
      rw [course_of_granted hn hasked]
      simp only [Poll.watch, Nat.not_lt.mpr hn, if_false, hfull, if_true]
      rfl

def ordered (kind : Selector) : Flow.Context :=
  ⟨0, ⟨kind, ⟨"42", "dl-prod", .created⟩, "crn:user:ops", .none⟩⟩

def available : StackView := ⟨.available, none, .available, none⟩

/-- A provisioner that cannot be reached at the first look, and whose cluster is ready at the
third. -/
def recovering : Provisioner Unit where
  request _ _ _ _ := (⟨some 3, .ok ()⟩, ())
  status _ _ attempt _ :=
    ⟨some 2, match attempt with
      | 1 => .error ⟨"unreachable", none⟩
      | 2 => .ok (some { available with clusterStatus := .updateInProgress })
      | _ => .ok (some available)⟩

theorem flow_follows_answers_recovering :
    let terms : Terms := ⟨10, 100, false⟩
    let r := (ordered .repair).start.resource
    let flow := ((handler 0 terms recovering .repair).begin (ordered .repair) 5 ()).1
    0 + (5 + 3) + terms.deadline < Poll.clockLimit ∧
      Fits terms (check recovering () .repair r) (5 + 3) ∧
      ∃ looks, flow 108 = ⟨(5, .request r (.repair [])) :: looks.map (·, .status r),
          some (34, .returned (.ok ()))⟩ ∧
        Follows .repair r false 8 26 looks.length (arrivals recovering () r 108 looks)
          (.ok ()) := by
  intro terms r flow
  have hclock : 0 + (5 + 3) + terms.deadline < Poll.clockLimit := by decide
  have fits : Fits terms (check recovering () .repair r) (5 + 3) :=
    Poll.fits_of_room (by decide) (by decide)
  obtain ⟨-, -, -, hpoll⟩ := flow_follows_answers 0 terms recovering .repair (ordered .repair) 5 ()
  obtain ⟨-, -, hgranted⟩ := hpoll 3 rfl
  obtain ⟨looks, elapsed, result, hby, -, hstays, hfollows⟩ :=
    (hgranted (fun e result he => by cases he)).2 hclock fits
  have hlast := hstays 108 (Nat.add_le_add_left hby 8)
  have hend : (flow 108).ending = some (8 + 26, .returned (.ok ())) := rfl
  have hsame : some (8 + elapsed, Flow.Ending.returned result) =
      some (8 + 26, .returned (.ok ())) := by
    rw [← hend]
    exact congrArg Flow.Progress.ending hlast.symm
  simp only [Option.some.injEq, Prod.mk.injEq, Nat.add_left_cancel_iff,
    Flow.Ending.returned.injEq] at hsame
  obtain ⟨rfl, rfl⟩ := hsame
  exact ⟨hclock, fits, looks, hlast, hfollows⟩

def prompt : Provisioner Unit where
  request _ _ _ _ := (⟨some 0, .ok ()⟩, ())
  status _ _ _ _ := ⟨some 0, .ok (some available)⟩

/-- With a deadline beyond the clock a creation crashes and never looks at its stack, which is
available all the time. -/
theorem creation_beyond_clock :
    let r := (ordered .create).start.resource
    let flow := ((handler 0 ⟨10000, 12000000000000000000000, true⟩ prompt .create).begin
      (ordered .create) 0 ()).1
    (∀ attempt now, (prompt.status () r attempt now).answer = .ok (some available)) ∧
      Good .create (some available) ∧
      flow 0 = ⟨[(0, .request r .create)], some (0, .crashed)⟩ :=
  ⟨fun _ _ => rfl, ⟨available, rfl, rfl, rfl⟩, rfl⟩

end ClusterControl.Stack
