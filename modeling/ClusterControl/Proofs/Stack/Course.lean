import ClusterControl.Stack.Flow

/-!
# The calls of a flow on a stack

A flow on a stack makes its request when it begins, and from then on only looks at the stack. What
it has called by one instant it has called by each later one, and the calls between fall between the
two instants.
-/

namespace ClusterControl

namespace Poll

variable {α : Type} {terms : Terms} {check : Check α} {origin : Instant}

theorem pause_again {attempt : Nat} {now next : Instant}
    (h : pause (α := α) terms origin attempt now = .again next) : now ≤ next := by
  unfold pause at h
  dsimp only at h
  split at h
  next => cases h
  next =>
    split at h
    next => cases h
    next =>
      cases h
      exact Nat.le_add_right _ _

theorem conclude_again {attempt : Nat} {now next : Instant} {answer : Except Failure (Outcome α)}
    (h : conclude terms origin attempt now answer = .again next) : now ≤ next := by
  unfold conclude at h
  split at h
  next => cases h
  next => cases h
  next => exact pause_again h
  next =>
    split at h
    next => cases h
    next => exact pause_again h

/-- A further attempt starts after the end of the one before. -/
theorem settle_again {attempt : Nat} {start finish next : Instant}
    (h : settle terms check origin attempt start = (finish, .again next)) :
    start ≤ finish ∧ finish ≤ next := by
  unfold settle at h
  dsimp only at h
  split at h
  next => cases h
  next =>
    split at h
    next =>
      obtain ⟨rfl, hnext⟩ := Prod.mk.inj h
      exact ⟨Nat.le_add_right _ _, conclude_again hnext⟩
    next => cases h

/-- An attempt ends within the poll. -/
theorem le_settle {attempt : Nat} {start : Instant} (h : origin ≤ start) :
    origin ≤ (settle terms check origin attempt start).1 := by
  unfold settle
  dsimp only
  split
  next => exact Nat.le_add_right _ _
  next =>
    split
    next => exact Nat.le_trans h (Nat.le_add_right _ _)
    next => exact Nat.le_add_right _ _

theorem le_resume_ending {left attempt : Nat} {start now t : Instant} {begun : List Instant}
    {e : Ending α} (hs : origin ≤ start)
    (h : (resume terms check origin now left attempt start begun).ending = some (t, e)) :
    origin ≤ t := by
  induction left generalizing attempt start begun with
  | zero =>
    by_cases hlate : now < start
    · simp [resume, hlate] at h
    · simp only [resume, hlate, if_false, Option.some.injEq, Prod.mk.injEq] at h
      exact h.1 ▸ hs
  | succ left ih =>
    have hfinish : origin ≤ (settle terms check origin attempt start).1 := le_settle hs
    by_cases hlate : now < start
    · simp [resume, hlate] at h
    · rcases hsettle : settle terms check origin attempt start with ⟨finish, next | e'⟩ <;>
        rw [hsettle] at hfinish <;> by_cases hopen : now < finish <;>
        simp only [resume, hlate, hsettle, hopen, if_true, if_false, reduceCtorEq,
          Option.some.injEq, Prod.mk.injEq] at h
      · exact ih (Nat.le_trans hfinish (settle_again hsettle).2) h
      · exact h.1 ▸ hfinish

/-- A poll does not end before it has started. -/
theorem le_run_ending {clock : Nat} {t : Instant} {e : Ending α}
    (h : (run clock terms check origin).ending = some (t, e)) : origin ≤ t := by
  unfold run watch at h
  split at h
  next => cases h
  next =>
    split at h
    next =>
      cases h
      exact Nat.le_refl _
    next => exact le_resume_ending (Nat.le_refl _) h

variable (terms check origin) in
/-- The attempts of a poll by an instant lie between their first start and that instant. -/
theorem resume_starts (left attempt : Nat) (start now : Instant) (begun : List Instant) :
    ∃ more, (resume terms check origin now left attempt start begun).starts =
      begun.reverse ++ more ∧ ∀ t ∈ more, start ≤ t ∧ t ≤ now := by
  induction left generalizing attempt start begun with
  | zero => exact ⟨[], by simp [resume], by simp⟩
  | succ left ih =>
    by_cases hlate : now < start
    · exact ⟨[], by simp [resume, hlate], by simp⟩
    · have hone : ∀ t ∈ [start], start ≤ t ∧ t ≤ now := by
        simpa using Nat.not_lt.mp hlate
      rcases hs : settle terms check origin attempt start with ⟨finish, next | e⟩
      · by_cases hopen : now < finish
        · exact ⟨[start], by simp [resume, hlate, hs, hopen], hone⟩
        · obtain ⟨more, hmore, hbounds⟩ := ih (attempt + 1) next (start :: begun)
          obtain ⟨hle, hnext⟩ := settle_again hs
          refine ⟨start :: more, ?_, List.forall_mem_cons.mpr ⟨hone start List.mem_cons_self, ?_⟩⟩
          · simp [resume, hlate, hs, hopen, hmore]
          · exact fun t ht => ⟨Nat.le_trans (Nat.le_trans hle hnext) (hbounds t ht).1,
              (hbounds t ht).2⟩
      · refine ⟨[start], ?_, hone⟩
        by_cases hopen : now < finish <;> simp [resume, hlate, hs, hopen]

/-- By a later instant a poll has started the same attempts, and maybe more after them. -/
theorem resume_grows (left attempt : Nat) (start : Instant) (begun : List Instant) {a b : Instant}
    (hab : a ≤ b) :
    ∃ more, (resume terms check origin b left attempt start begun).starts =
      (resume terms check origin a left attempt start begun).starts ++ more ∧
      ∀ t ∈ more, a < t ∧ t ≤ b := by
  induction left generalizing attempt start begun with
  | zero => exact ⟨[], by simp [resume], by simp⟩
  | succ left ih =>
    by_cases hlate : a < start
    · obtain ⟨more, hmore, hbounds⟩ :=
        resume_starts terms check origin (left + 1) attempt start b begun
      refine ⟨more, by rw [hmore]; simp [resume, hlate], ?_⟩
      exact fun t ht => ⟨Nat.lt_of_lt_of_le hlate (hbounds t ht).1, (hbounds t ht).2⟩
    · have hlate' : ¬ b < start := fun h => hlate (Nat.lt_of_le_of_lt hab h)
      rcases hs : settle terms check origin attempt start with ⟨finish, next | e⟩
      · by_cases hopen : a < finish
        · by_cases hopen' : b < finish
          · exact ⟨[], by simp [resume, hlate, hlate', hs, hopen, hopen'], by simp⟩
          · obtain ⟨more, hmore, hbounds⟩ :=
              resume_starts terms check origin left (attempt + 1) next b (start :: begun)
            refine ⟨more, by simp [resume, hlate, hlate', hs, hopen, hopen', hmore], ?_⟩
            intro t ht
            have hnext := Nat.lt_of_lt_of_le hopen (settle_again hs).2
            exact ⟨Nat.lt_of_lt_of_le hnext (hbounds t ht).1, (hbounds t ht).2⟩
        · have hopen' : ¬ b < finish := fun h => hopen (Nat.lt_of_le_of_lt hab h)
          obtain ⟨more, hmore, hbounds⟩ := ih (attempt + 1) next (start :: begun)
          exact ⟨more, by simpa [resume, hlate, hlate', hs, hopen, hopen'] using hmore, hbounds⟩
      · refine ⟨[], ?_, by simp⟩
        by_cases hopen : a < finish <;> by_cases hopen' : b < finish <;>
          simp [resume, hlate, hlate', hs, hopen, hopen']

variable (terms check origin) in
/-- A poll looked at later has started the same checks, and those between. -/
theorem watch_grows (clock : Nat) {a b : Instant} (hab : a ≤ b) :
    ∃ more, (watch clock terms check origin b).starts =
      (watch clock terms check origin a).starts ++ more ∧ ∀ t ∈ more, a < t ∧ t ≤ b := by
  by_cases hclock : clockLimit ≤ clock + origin + terms.deadline
  · have hnone : ∀ now, (watch clock terms check origin now).starts = [] := by
      intro now
      by_cases hn : now < origin <;> simp [watch, hn, hclock]
    exact ⟨[], by simp [hnone], by simp⟩
  · by_cases ha : a < origin
    · by_cases hb : b < origin
      · exact ⟨[], by simp [watch, ha, hb], by simp⟩
      · obtain ⟨more, hmore, hbounds⟩ :=
          resume_starts terms check origin (attemptLimit - 1) 1 origin b []
        refine ⟨more, by simpa [watch, ha, hb, hclock] using hmore, fun t ht => ?_⟩
        exact ⟨Nat.lt_of_lt_of_le ha (hbounds t ht).1, (hbounds t ht).2⟩
    · have hb : ¬ b < origin := fun h => ha (Nat.lt_of_le_of_lt hab h)
      simpa [watch, ha, hb, hclock] using resume_grows (attemptLimit - 1) 1 origin [] hab

variable (terms check origin) in
theorem watch_starts (clock : Nat) (now : Instant) :
    ∀ t ∈ (watch clock terms check origin now).starts, origin ≤ t ∧ t ≤ now := by
  unfold watch
  split
  next => simp
  next =>
    split
    next => simp
    next =>
      obtain ⟨more, hmore, hbounds⟩ :=
        resume_starts terms check origin (attemptLimit - 1) 1 origin now []
      rw [hmore]
      simpa using hbounds

end Poll

namespace Stack

open ClusterControl.Flow

/-- The calls of a flow for a start: its request when it began, then looks at the stack. -/
def Asks (s : Start) (begun : Instant) (calls : List (Instant × StackCall)) : Prop :=
  ∃ looks : List Instant, calls = (begun, .request s.resource (request s.selector s.payload)) ::
    looks.map fun t => (t, .status s.resource)

/-- A course that asks for what its start says, and whose calls only grow, each at its time. -/
structure Faithful (s : Start) (begun : Instant) (course : Course StackCall) : Prop where
  asks : ∀ now, Asks s begun (course now).calls
  timely : ∀ now, begun ≤ now → ∀ x ∈ (course now).calls, begun ≤ x.1 ∧ x.1 ≤ now
  grows : ∀ a b, a ≤ b →
    ∃ more, (course b).calls = (course a).calls ++ more ∧ ∀ x ∈ more, a < x.1 ∧ x.1 ≤ b

variable {σ : Type} (clock : Nat) (terms : Poll.Terms) (p : Provisioner σ) (world : σ)
  (s : Start) (start : Instant) (reply : Reply ProvisionerError Unit)

theorem asks_course (now : Instant) :
    Asks s start (course clock terms p world s.selector s start reply now).calls := by
  unfold course
  dsimp only
  split
  next => exact ⟨[], rfl⟩
  next =>
    split
    next => exact ⟨[], rfl⟩
    next =>
      split
      next => exact ⟨[], rfl⟩
      next => exact ⟨_, rfl⟩

theorem course_timely {now : Instant} (hn : start ≤ now) :
    ∀ x ∈ (course clock terms p world s.selector s start reply now).calls,
      start ≤ x.1 ∧ x.1 ≤ now := by
  have hasked : start ≤ start ∧ start ≤ now := ⟨Nat.le_refl start, hn⟩
  unfold course
  dsimp only
  split
  next => simpa using hasked
  next delay _ =>
    split
    next => simpa using hasked
    next =>
      split
      next => simpa using hasked
      next =>
        refine List.forall_mem_cons.mpr ⟨hasked, fun x hx => ?_⟩
        obtain ⟨t, ht, rfl⟩ := List.mem_map.mp hx
        obtain ⟨hlow, hhigh⟩ := Poll.watch_starts terms
          (check p world s.selector s.resource) (start + delay) clock now t ht
        exact ⟨Nat.le_trans (Nat.le_add_right start delay) hlow, hhigh⟩

theorem course_grows {a b : Instant} (hab : a ≤ b) :
    ∃ more, (course clock terms p world s.selector s start reply b).calls =
      (course clock terms p world s.selector s start reply a).calls ++ more ∧
      ∀ x ∈ more, a < x.1 ∧ x.1 ≤ b := by
  unfold course
  dsimp only
  cases reply.delay with
  | none => exact ⟨[], rfl, by simp⟩
  | some delay =>
    cases hafter : afterRequest? s.resource s.selector reply.answer with
    | some result =>
      refine ⟨[], ?_, by simp⟩
      dsimp only
      split <;> split <;> rfl
    | none =>
      obtain ⟨more, hmore, hbounds⟩ := Poll.watch_grows terms
        (check p world s.selector s.resource) (start + delay) clock hab
      have hmap : ∀ x ∈ more.map fun t => (t, StackCall.status s.resource), a < x.1 ∧ x.1 ≤ b := by
        intro x hx
        obtain ⟨t, ht, rfl⟩ := List.mem_map.mp hx
        exact hbounds t ht
      by_cases ha : a < start + delay
      · by_cases hb : b < start + delay
        · exact ⟨[], by simp [ha, hb], by simp⟩
        · have hnone : (Poll.watch clock terms (check p world s.selector s.resource)
              (start + delay) a).starts = [] := by simp [Poll.watch, ha]
          exact ⟨_, by simp [ha, hb, pollProgress, hmore, hnone], hmap⟩
      · have hb : ¬ b < start + delay := fun h => ha (Nat.lt_of_le_of_lt hab h)
        exact ⟨_, by simp [ha, hb, pollProgress, hmore], hmap⟩

theorem faithful_course :
    Faithful s start (course clock terms p world s.selector s start reply) where
  asks := asks_course clock terms p world s start reply
  timely _ hn := course_timely clock terms p world s start reply hn
  grows _ _ hab := course_grows clock terms p world s start reply hab

/-- A handler of the kind of a flow begins a faithful course. -/
theorem faithful_begin (context : Context) (now : Instant) :
    Faithful context.start now
      ((handler clock terms p context.start.selector).begin context now world).1 :=
  faithful_course clock terms p _ context.start now _

end Stack

end ClusterControl
