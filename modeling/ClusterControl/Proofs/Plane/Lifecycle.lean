import ClusterControl.Proofs.Plane.Gate
import ClusterControl.Proofs.Stack.Outcome

/-!
# The life of a snapshot

Operations are carried out one after the other, each on the snapshot that the last successful one
gave. The bus, the scheduler behind it and the provisioner may be different ones at every operation,
so nothing is assumed of them. Three operations look at the status of their snapshot. Waiting for a
repair does not, and it is the only way out of a deletion.
-/

namespace ClusterControl.Clusters

inductive Operation where
  | create (user : String)
  | repair (user : String) (request : RepairRequest)
  | delete (user : String)
  | wait
deriving DecidableEq

structure Surroundings (β σ : Type) where
  bus : Bus β
  state : β
  config : DispatcherConfig
  clock : Nat
  terms : Poll.Terms
  provisioner : Provisioner σ
  world : σ
  now : Instant

/-- An operation that was carried out: on which snapshot, what it returned, if ever, and what it
published. -/
structure Performed where
  operation : Operation
  snapshot : Resource
  result : Option (Except PlaneError Resource)
  published : List Message

namespace Performed

def Succeeded (p : Performed) : Prop := ∃ r, p.result = some (.ok r)

def next (p : Performed) : Resource :=
  match p.result with
  | some (.ok r) => r
  | _ => p.snapshot

theorem next_of_result {p : Performed} {r : Resource} (h : p.result = some (.ok r)) :
    p.next = r := by
  simp only [next, h]

theorem next_of_not_succeeded {p : Performed} (h : ¬ p.Succeeded) : p.next = p.snapshot := by
  unfold next
  split
  next r hr => exact absurd ⟨r, hr⟩ h
  next => rfl

end Performed

def Operation.start? (r : Resource) : Operation → Option Start
  | create user => some ⟨.create, r, user, .none⟩
  | repair user request => some ⟨.repair, r, user, .repair request⟩
  | delete user => some ⟨.delete, r, user, .none⟩
  | wait => none

variable {β σ : Type}

def Operation.perform (x : Surroundings β σ) (r : Resource) (o : Operation) : Performed :=
  let dispatch := x.bus.recorded.dispatch x.config x.now
  let triggered (outcome : Except PlaneError Resource × β × List Message) : Performed :=
    ⟨o, r, some outcome.1, outcome.2.2⟩
  match o with
  | .create user => triggered (Clusters.create dispatch (x.state, []) r user)
  | .repair user request => triggered (Clusters.repair dispatch (x.state, []) r user request)
  | .delete user => triggered (Clusters.delete dispatch (x.state, []) r user)
  | .wait =>
    let report := watchRepair x.clock x.terms x.provisioner x.world r x.now
    ⟨.wait, r, report.ending.bind fun e => repaired? r e.2, []⟩

/-- The operations of a sequence that begins with a snapshot. -/
def history (r : Resource) : List (Operation × Surroundings β σ) → List Performed
  | [] => []
  | (o, x) :: rest => o.perform x r :: history (o.perform x r).next rest

section

variable {o : Operation} {x : Surroundings β σ} {r t : Resource} {s : Start}

@[simp] theorem perform_operation : (o.perform x r).operation = o := by cases o <;> rfl

@[simp] theorem perform_snapshot : (o.perform x r).snapshot = r := by cases o <;> rfl

theorem resource_of_start? (hs : o.start? r = some s) : s.resource = r := by
  cases o <;> cases hs <;> rfl

theorem start?_eq_none : o.start? r = none ↔ o = .wait := by
  cases o <;> simp [Operation.start?]

theorem perform_of_start? (hs : o.start? r = some s) :
    let outcome := trigger (x.bus.recorded.dispatch x.config x.now) (x.state, []) s
    o.perform x r = ⟨o, r, some outcome.1, outcome.2.2⟩ := by
  cases o <;> cases hs <;> rfl

/-- An operation that starts a flow succeeds from an allowed status and when it is admitted. It
changes the status and nothing else. -/
theorem result_of_start? (hs : o.start? r = some s) :
    (o.perform x r).result = some (.ok t) ↔
      s.selector.allows r.status = true ∧
        (x.bus.dispatch x.config x.now x.state s).1 = .ok () ∧
        t = r.withStatus s.selector.inProgress := by
  obtain rfl := resource_of_start? hs
  rw [perform_of_start? hs, Option.some.injEq]
  have gated := gated_trigger x.bus x.config x.now x.state [] s Iff.rfl
  constructor
  · intro h
    obtain ⟨hallowed, hdispatched, -⟩ := gated.admitted t h
    exact ⟨hallowed, hdispatched,
      Except.ok.inj (h.symm.trans (gated.succeeded hallowed hdispatched))⟩
  · rintro ⟨hallowed, hdispatched, rfl⟩
    exact gated.succeeded hallowed hdispatched

/-- An operation that starts a flow publishes just that start, from an allowed status. -/
theorem published_of_start? (hs : o.start? r = some s)
    (allowed : s.selector.allows r.status = true) : (o.perform x r).published = [.start s] := by
  obtain rfl := resource_of_start? hs
  rw [perform_of_start? hs]
  exact congrArg Prod.snd
    ((gated_trigger x.bus x.config x.now x.state [] s Iff.rfl).published allowed)

/-- A wait that succeeds calls the resource running, whatever it was before. -/
theorem running_of_awaited (h : (Operation.wait.perform x r).result = some (.ok t)) :
    t = r.withStatus .running := by
  obtain ⟨⟨_, ending⟩, -, he⟩ := Option.bind_eq_some_iff.mp h
  cases ending <;> simp_all [repaired?]

theorem same_of_succeeded (h : (o.perform x r).result = some (.ok t)) :
    t = r.withStatus t.status := by
  cases hs : o.start? r with
  | some s =>
    obtain ⟨-, -, rfl⟩ := (result_of_start? hs).mp h
    rfl
  | none =>
    obtain rfl := start?_eq_none.mp hs
    rw [running_of_awaited h]
    rfl

/-- While a resource is being deleted every operation is refused unpublished, except for a wait. -/
theorem perform_of_deleting (hr : r.status = .deleteInProgress) (ho : o ≠ .wait) :
    (o.perform x r).result = some (.error (.invalidResourceState r.id "DELETE_IN_PROGRESS")) ∧
      (o.perform x r).published = [] := by
  obtain ⟨s, hs⟩ := Option.ne_none_iff_exists'.mp (mt (start?_eq_none (r := r)).mp ho)
  obtain rfl := resource_of_start? hs
  have hclosed : s.selector.allows s.resource.status ≠ true := by
    rw [hr]
    cases s.selector <;> decide
  have hrefused := (gated_trigger x.bus x.config x.now x.state [] s Iff.rfl).refused hclosed
  rw [hr] at hrefused
  rw [perform_of_start? hs]
  exact ⟨by rw [hrefused]; rfl, by rw [hrefused]⟩

/-- A wait publishes nothing, and neither does any operation on a resource that is being deleted. -/
theorem published_of_deleting (hr : r.status = .deleteInProgress) :
    (o.perform x r).published = [] := by
  by_cases ho : o = .wait
  · subst ho
    rfl
  · exact (perform_of_deleting hr ho).2

end

variable {r : Resource} {steps : List (Operation × Surroundings β σ)} {before after : List Performed}
  {p : Performed}

/-- An operation of a sequence was carried out on a snapshot of the same resource, and what follows
it is the sequence from its own snapshot on. -/
theorem history_split (h : history r steps = before ++ p :: after) :
    ∃ (o : Operation) (x : Surroundings β σ) (s : Resource)
      (rest : List (Operation × Surroundings β σ)),
      p = o.perform x s ∧ s = r.withStatus s.status ∧ after = history p.next rest := by
  induction steps generalizing r before with
  | nil => cases before <;> cases h
  | cons step rest ih =>
    obtain ⟨o, x⟩ := step
    cases before with
    | nil =>
      obtain ⟨rfl, rfl⟩ := List.cons.inj h
      exact ⟨o, x, r, rest, rfl, rfl, rfl⟩
    | cons q before =>
      obtain ⟨rfl, htail⟩ := List.cons.inj h
      obtain ⟨o', x', s, rest', hp, hs, hafter⟩ := ih htail
      refine ⟨o', x', s, rest', hp, ?_, hafter⟩
      by_cases hq : (o.perform x r).Succeeded
      · obtain ⟨r', hr'⟩ := hq
        rw [Performed.next_of_result hr', same_of_succeeded hr'] at hs
        exact hs
      · rwa [Performed.next_of_not_succeeded hq, perform_snapshot] at hs

/-- A deletion goes on as long as no wait succeeds. -/
theorem snapshot_of_deleting (hr : r.status = .deleteInProgress)
    (h : history r steps = before ++ p :: after)
    (unawaited : ∀ q ∈ before, q.operation = .wait → ¬ q.Succeeded) : p.snapshot = r := by
  induction before generalizing r steps with
  | nil =>
    cases steps with
    | nil => cases h
    | cons step rest =>
      obtain ⟨rfl, -⟩ := List.cons.inj h
      exact perform_snapshot
  | cons q before ih =>
    cases steps with
    | nil => cases h
    | cons step rest =>
      obtain ⟨o, x⟩ := step
      obtain ⟨rfl, htail⟩ := List.cons.inj h
      have hfailed : ¬ (o.perform x r).Succeeded := by
        by_cases ho : o = .wait
        · exact unawaited _ List.mem_cons_self (perform_operation.trans ho)
        · rintro ⟨s, hs⟩
          rw [(perform_of_deleting hr ho).1] at hs
          cases hs
      have hnext : (o.perform x r).next = r :=
        (Performed.next_of_not_succeeded hfailed).trans perform_snapshot
      rw [hnext] at htail
      exact ih hr htail fun q hq => unawaited q (List.mem_cons_of_mem _ hq)

/-- After a successful deletion the resource stays in deletion until a wait succeeds, whatever the
buses, schedulers and provisioners do. Up to there and including that wait nothing is published,
every operation that starts flows is refused with the status, and only a wait can succeed. It then
calls the same resource running. -/
theorem deletion_final_until_wait {user : String} {between : List Performed}
    {deletion later : Performed}
    (performed : history r steps = before ++ deletion :: (between ++ later :: after))
    (deletes : deletion.operation = .delete user) (succeeded : deletion.Succeeded)
    (unawaited : ∀ q ∈ between, q.operation = .wait → ¬ q.Succeeded) :
    later.snapshot = r.withStatus .deleteInProgress ∧ later.published = [] ∧
      (later.operation ≠ .wait →
        later.result = some (.error (.invalidResourceState r.id "DELETE_IN_PROGRESS"))) ∧
      ∀ s, later.result = some (.ok s) →
        later.operation = .wait ∧ s = r.withStatus .running := by
  obtain ⟨o, x, s, rest, rfl, hs, hrest⟩ := history_split performed
  obtain ⟨t, ht⟩ := succeeded
  rw [perform_operation] at deletes
  subst deletes
  have hdeleting : t = r.withStatus .deleteInProgress := by
    obtain ⟨-, -, rfl⟩ := (result_of_start? (s := ⟨.delete, s, user, .none⟩) rfl).mp ht
    rw [hs]
    rfl
  rw [Performed.next_of_result ht, hdeleting] at hrest
  have hsnapshot := snapshot_of_deleting rfl hrest.symm unawaited
  obtain ⟨o', x', s', -, rfl, -, -⟩ := history_split hrest.symm
  rw [perform_snapshot] at hsnapshot
  subst hsnapshot
  refine ⟨perform_snapshot, published_of_deleting rfl, fun ho => ?_, fun u hu => ?_⟩
  · rw [perform_operation] at ho
    exact (perform_of_deleting rfl ho).1
  · rw [perform_operation]
    by_cases ho : o' = .wait
    · subst ho
      exact ⟨rfl, (running_of_awaited hu).trans (Resource.withStatus_withStatus _ _ _)⟩
    · rw [(perform_of_deleting rfl ho).1] at hu
      cases hu

/-- A plane at its start, with the given provisioner and the scheduler as its bus. -/
def surrounded (provisioner : Provisioner Unit) (now : Instant) :
    Surroundings (Scheduler Unit StackCall) Unit where
  bus := Scheduler.toBus .reject
  state := ⟨fun kind => some (Stack.handler 0 ⟨10000, 3600000, true⟩ provisioner kind), [], [], [],
    0, ()⟩
  config := {}
  clock := 0
  terms := ⟨10000, 3600000, true⟩
  provisioner := provisioner
  world := ()
  now := now

def barren : Provisioner Unit where
  request world _ r _ := (⟨some 0, .error (.stackNotFound r.name)⟩, world)
  status _ _ _ _ := ⟨some 0, .ok none⟩

def operating : Resource := ⟨"42", "dl-prod", .running⟩

/-- A deletion on such a plane is admitted. -/
theorem deletes_operating {provisioner : Provisioner Unit} :
    ((Operation.delete "crn:user:ops").perform (surrounded provisioner 0) operating).result =
      some (.ok (operating.withStatus .deleteInProgress)) := by
  refine (result_of_start? rfl).mpr ⟨rfl, ?_, rfl⟩
  exact congrArg Prod.fst (Scheduler.dispatch_toBus (t := 0) (v := .ok ()) rfl)

/-- A deletion, a wait that finds no stack, and a repair: the repair is refused. -/
theorem deletion_final_until_wait_barren :
    let deletion := (Operation.delete "crn:user:ops").perform (surrounded barren 0) operating
    let waited := Operation.wait.perform (surrounded barren 0) deletion.next
    let repaired := (Operation.repair "crn:user:ops" ⟨["master"]⟩).perform (surrounded barren 10)
      waited.next
    history operating
        [(.delete "crn:user:ops", surrounded barren 0), (.wait, surrounded barren 0),
          (.repair "crn:user:ops" ⟨["master"]⟩, surrounded barren 10)] =
        [] ++ deletion :: ([waited] ++ [repaired]) ∧
      deletion.Succeeded ∧ (∀ q ∈ [waited], q.operation = .wait → ¬ q.Succeeded) ∧
      repaired.snapshot = operating.withStatus .deleteInProgress ∧ repaired.published = [] ∧
      repaired.result = some (.error (.invalidResourceState "42" "DELETE_IN_PROGRESS")) := by
  intro deletion waited repaired
  have performed : history operating
      [(.delete "crn:user:ops", surrounded barren 0), (.wait, surrounded barren 0),
        (.repair "crn:user:ops" ⟨["master"]⟩, surrounded barren 10)] =
      [] ++ deletion :: ([waited] ++ repaired :: []) := rfl
  have succeeded : deletion.Succeeded := ⟨_, deletes_operating⟩
  have unawaited : ∀ q ∈ [waited], q.operation = .wait → ¬ q.Succeeded := by
    intro q hq _
    obtain rfl := List.mem_singleton.mp hq
    rintro ⟨r, hr⟩
    cases hr
  obtain ⟨hsnapshot, hpublished, hrefused, -⟩ :=
    deletion_final_until_wait performed rfl succeeded unawaited
  exact ⟨performed, succeeded, unawaited, hsnapshot, hpublished, hrefused (by decide)⟩

/-- A deletion is not final. While the stack still stands, a wait calls the resource running, and
from there a repair is published again. -/
theorem wait_undoes_deletion :
    let deletion := (Operation.delete "crn:user:ops").perform (surrounded Stack.prompt 0) operating
    let revived := Operation.wait.perform (surrounded Stack.prompt 0) deletion.next
    let repaired := (Operation.repair "crn:user:ops" ⟨["master"]⟩).perform
      (surrounded Stack.prompt 3600001) revived.next
    deletion.result = some (.ok (operating.withStatus .deleteInProgress)) ∧
      revived.result = some (.ok operating) ∧
      repaired.published = [.start ⟨.repair, operating, "crn:user:ops", .repair ⟨["master"]⟩⟩] ∧
      ¬ ∀ (r : Resource)
        (steps : List (Operation × Surroundings (Scheduler Unit StackCall) Unit)),
        (history r steps).Pairwise fun p q => (∃ user, p.operation = .delete user) →
          p.Succeeded → ¬ q.Succeeded ∧ q.published = [] := by
  intro deletion revived repaired
  have hdeleted : deletion.result = some (.ok (operating.withStatus .deleteInProgress)) :=
    deletes_operating
  have hrevived : revived.result = some (.ok operating) := by
    have h : revived.result = some (.ok (deletion.next.withStatus .running)) := rfl
    rw [Performed.next_of_result hdeleted] at h
    exact h
  have hnext : revived.next = operating := Performed.next_of_result hrevived
  refine ⟨hdeleted, hrevived, ?_, fun hfinal => ?_⟩
  · simp only [repaired, hnext]
    exact published_of_start? rfl rfl
  · have h := hfinal operating
      [(.delete "crn:user:ops", surrounded Stack.prompt 0), (.wait, surrounded Stack.prompt 0)]
    have hlater := (List.pairwise_cons.mp h).1 revived List.mem_cons_self ⟨_, rfl⟩ ⟨_, hdeleted⟩
    exact hlater.1 ⟨_, hrevived⟩

end ClusterControl.Clusters
