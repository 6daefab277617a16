import ClusterControl.Config.Source
import ClusterControl.Proofs.Poll.ClosedForm

/-!
# The limits of a poll

A poll breaks down when the clock cannot hold its deadline, when a duration cannot hold the sum of
two others, or when the attempts use up their counter. The settings that are accepted rule out the
second. They leave room for the other two, and `ending_of_accepted` says exactly when each happens.
-/

namespace ClusterControl

namespace Poll

variable {α : Type}

/-- Nothing is decided at the attempt after `i` others, and there is time for one more. -/
def Inconclusive (terms : Terms) (check : Check α) (origin : Instant) (i : Nat) : Prop :=
  GoesOn terms check origin i ∧ final? terms check origin i = none

variable {terms : Terms} {check : Check α} {origin : Instant} {clock i k t : Nat}

theorem verdict?_ne_broken {stop : Bool} {attempt : Nat} {answer : Except Failure (Outcome α)}
    {e : Ending α} (h : verdict? stop attempt answer = some e) (counter : Overflow) :
    e ≠ .broken counter := by
  rintro rfl
  cases answer with
  | error f => cases stop <;> cases h
  | ok outcome => cases outcome <;> cases h

variable (terms check origin) in
def closing (k : Nat) : Nat × Ending α :=
  match finish? terms check origin k with
  | none => (terms.deadline, .failed (.timeout (k + 1) (.ofMillis terms.deadline)))
  | some t => (t, (final? terms check origin k).getD (.failed (.timeout (k + 1) (.ofMillis t))))

theorem closing_of_none (h : finish? terms check origin k = none) :
    closing terms check origin k =
      (terms.deadline, .failed (.timeout (k + 1) (.ofMillis terms.deadline))) := by
  simp only [closing, h]

theorem closing_of_some (h : finish? terms check origin k = some t) :
    closing terms check origin k =
      (t, (final? terms check origin k).getD (.failed (.timeout (k + 1) (.ofMillis t)))) := by
  simp only [closing, h]

theorem closing_le : (closing terms check origin k).1 ≤ terms.deadline := by
  unfold closing
  split
  next => exact Nat.le_refl _
  next t ht =>
    obtain ⟨d, _, _, hby⟩ := finish?_eq_some.mp ht
    exact hby

theorem closing_ne_broken (counter : Overflow) :
    (closing terms check origin k).2 ≠ .broken counter := by
  unfold closing
  split
  next => simp
  next =>
    cases hf : final? terms check origin k with
    | none => simp
    | some e =>
      rw [final?] at hf
      simpa using verdict?_ne_broken hf counter

/-- An attempt that is not followed by another one ends the poll. -/
theorem settle_closing
    (hspan : ∀ t, finish? terms check origin k = some t → final? terms check origin k = none →
      t + terms.interval < spanLimit)
    (h : ¬ Inconclusive terms check origin k) :
    settle terms check origin (k + 1) (origin + offset terms check origin k) =
      (origin + (closing terms check origin k).1, .ended (closing terms check origin k).2) := by
  cases ht : finish? terms check origin k with
  | none => rw [closing_of_none ht, settle_of_none ht]
  | some t =>
    rw [settle_of_some ht, conclude_eq, closing_of_some ht]
    cases hf : final? terms check origin k with
    | some e =>
      rw [final?] at hf
      rw [hf, Option.getD_some]
    | none =>
      have hover : ¬ t + terms.interval ≤ terms.deadline := fun hle => h ⟨⟨t, ht, hle⟩, hf⟩
      have hsum : t + terms.interval < spanLimit := hspan t ht hf
      rw [final?] at hf
      simp only [hf, Option.getD_none, pause_eq (k + 1) hsum, if_neg hover]

theorem run_of_closing (hclock : clock + origin + terms.deadline < clockLimit)
    (hk : k + 1 < attemptLimit) (hbefore : ∀ j < k, Inconclusive terms check origin j)
    (hspan : ∀ t, finish? terms check origin k = some t → final? terms check origin k = none →
      t + terms.interval < spanLimit)
    (h : ¬ Inconclusive terms check origin k) :
    run clock terms check origin =
      ⟨starts terms check origin (k + 1),
        some (origin + (closing terms check origin k).1, (closing terms check origin k).2)⟩ :=
  run_of_settle hclock hk (fun j hj => (hbefore j hj).1) (fun j hj => (hbefore j hj).2) closing_le
    (settle_closing hspan h)

/-- A poll that ends at its first conclusive attempt breaks no counter. -/
theorem run_of_conclusive (hclock : clock + origin + terms.deadline < clockLimit)
    (hspan : terms.deadline + terms.interval < spanLimit) (hk : k + 1 < attemptLimit)
    (hbefore : ∀ i < k, Inconclusive terms check origin i)
    (h : ¬ Inconclusive terms check origin k) :
    ∃ t, ∃ e : Ending α, (∀ counter, e ≠ .broken counter) ∧
      (run clock terms check origin).ending = some (t, e) := by
  have hroom : ∀ t, finish? terms check origin k = some t → final? terms check origin k = none →
      t + terms.interval < spanLimit := by
    intro t ht _
    obtain ⟨d, _, _, hby⟩ := finish?_eq_some.mp ht
    omega
  have hrun := run_of_closing hclock hk hbefore hroom h
  exact ⟨_, _, closing_ne_broken, by rw [hrun]⟩

/-- A poll whose attempts all go on until their counter is full. -/
theorem run_of_exhausted (hclock : clock + origin + terms.deadline < clockLimit)
    (hspan : terms.deadline + terms.interval < spanLimit)
    (h : ∀ i < attemptLimit - 1, Inconclusive terms check origin i) :
    (run clock terms check origin).ending =
      some (origin + offset terms check origin (attemptLimit - 1), .broken .attempts) := by
  obtain ⟨n, hn⟩ : ∃ n, attemptLimit - 1 = n + 1 := ⟨attemptLimit - 2, rfl⟩
  have hlimit : attemptLimit = n + 2 := by
    have hpos : 1 ≤ attemptLimit := by decide
    omega
  have hgo : ∀ i < n + 1, GoesOn terms check origin i := fun i hi => (h i (hn ▸ hi)).1
  have hf : ∀ i < n + 1, final? terms check origin i = none := fun i hi => (h i (hn ▸ hi)).2
  have hstart : ¬ origin + terms.deadline < origin + offset terms check origin (n + 1) :=
    Nat.not_lt.mpr (Nat.add_le_add_left (offset_le hgo) origin)
  have hcount : n + 1 < attemptLimit := by omega
  have hgoBefore : ∀ j < n, GoesOn terms check origin j := fun j hj => hgo j (by omega)
  have hfBefore : ∀ j < n, final? terms check origin j = none := fun j hj => hf j (by omega)
  have hrun := run_eq_resume hclock hcount hgoBefore hfBefore
  have hleft : attemptLimit - 1 - n = 0 + 1 := by omega
  rw [hrun, hleft, resume_again _ _ (by omega) (hgo n (by omega)) (hf n (by omega)), hn]
  simp only [resume, if_neg hstart]

theorem run_of_late (h : clockLimit ≤ clock + origin + terms.deadline) :
    (run clock terms check origin).ending = some (origin, .broken .clock) := by
  have horigin : ¬ origin + terms.deadline < origin :=
    Nat.not_lt.mpr (Nat.le_add_right origin terms.deadline)
  simp only [run, watch, if_neg horigin, if_pos h]

/-- A poll with time for a pause breaks down at the clock, uses up its attempts, or ends without
breaking a counter. -/
theorem ending_cases (hle : terms.interval ≤ terms.deadline) (clock : Nat) (check : Check α)
    (origin : Instant) :
    (clockLimit ≤ clock + origin + terms.deadline ∧
      (run clock terms check origin).ending = some (origin, .broken .clock)) ∨
    (clock + origin + terms.deadline < clockLimit ∧
      (∀ i < attemptLimit - 1, Inconclusive terms check origin i) ∧
      ∃ t, (run clock terms check origin).ending = some (t, .broken .attempts)) ∨
    (clock + origin + terms.deadline < clockLimit ∧
      ¬ (∀ i < attemptLimit - 1, Inconclusive terms check origin i) ∧
      ∃ t, ∃ e : Ending α, (∀ counter, e ≠ .broken counter) ∧
        (run clock terms check origin).ending = some (t, e)) := by
  rcases Nat.lt_or_ge (clock + origin + terms.deadline) clockLimit with hclock | hlate
  · have htwice : spanLimit = 2 * clockLimit := rfl
    have hspan : terms.deadline + terms.interval < spanLimit := by omega
    by_cases h : ∀ i < attemptLimit - 1, Inconclusive terms check origin i
    · exact .inr (.inl ⟨hclock, h, _, run_of_exhausted hclock hspan h⟩)
    · have hex : ∃ i, i < attemptLimit - 1 ∧ ¬ Inconclusive terms check origin i := by
        simpa using h
      refine .inr (.inr ⟨hclock, h, ?_⟩)
      classical
      obtain ⟨hk, hstop⟩ := Nat.find_spec hex
      refine run_of_conclusive hclock hspan (by omega) (fun i hi => ?_) hstop
      by_contra hnot
      exact Nat.find_min hex hi ⟨by omega, hnot⟩
  · exact .inl ⟨hlate, run_of_late hlate⟩

theorem exists_ending (hle : terms.interval ≤ terms.deadline) (clock : Nat) :
    ∃ t e, (run clock terms check origin).ending = some (t, e) := by
  rcases ending_cases hle clock check origin with
    ⟨_, h⟩ | ⟨_, _, _, h⟩ | ⟨_, _, _, _, _, h⟩ <;> exact ⟨_, _, h⟩

theorem not_broken_span (hle : terms.interval ≤ terms.deadline) (clock t : Nat) :
    (run clock terms check origin).ending ≠ some (t, .broken .span) := by
  rcases ending_cases hle clock check origin with
    ⟨_, h⟩ | ⟨_, _, _, h⟩ | ⟨_, _, _, e, he, h⟩ <;> rw [h]
  · simp
  · simp
  · simp [he]

theorem broken_clock_iff (hle : terms.interval ≤ terms.deadline) :
    (∃ t, (run clock terms check origin).ending = some (t, .broken .clock)) ↔
      clockLimit ≤ clock + origin + terms.deadline := by
  rcases ending_cases hle clock check origin with
    ⟨hlate, h⟩ | ⟨hclock, _, _, h⟩ | ⟨hclock, _, _, e, he, h⟩ <;> rw [h]
  · simp [hlate]
  · simp [Nat.not_le.mpr hclock]
  · simp [he, Nat.not_le.mpr hclock]

theorem broken_attempts_iff (hle : terms.interval ≤ terms.deadline) :
    (∃ t, (run clock terms check origin).ending = some (t, .broken .attempts)) ↔
      clock + origin + terms.deadline < clockLimit ∧
        ∀ i < attemptLimit - 1, Inconclusive terms check origin i := by
  rcases ending_cases hle clock check origin with
    ⟨hlate, h⟩ | ⟨hclock, hall, _, h⟩ | ⟨_, hsome, _, e, he, h⟩ <;> rw [h]
  · simp [Nat.not_lt.mpr hlate]
  · simpa [hclock] using hall
  · simp [he, hsome]

/-- Attempts that go on are at least a sleep apart. -/
theorem mul_sleep_le_offset (h : ∀ j < i, GoesOn terms check origin j) :
    i * min terms.interval longestSleep ≤ offset terms check origin i := by
  induction i with
  | zero => simp
  | succ i ih =>
    have hle := ih fun j hj => h j (by omega)
    obtain ⟨t, ht, _⟩ := h i (by omega)
    obtain ⟨d, _, htd, _⟩ := finish?_eq_some.mp ht
    rw [offset_succ ht, Nat.add_mul, Nat.one_mul]
    omega

def undecided : Check α := fun _ _ => ⟨some 0, .ok .goOn⟩

theorem offset_undecided :
    offset terms (undecided : Check α) origin i = i * min terms.interval longestSleep := by
  induction i with
  | zero => simp [offset]
  | succ i ih =>
    rw [offset, ih, undecided, Instant.wake, Nat.add_mul, Nat.one_mul]
    simp only [Option.getD_some]
    omega

theorem inconclusive_undecided
    (hi : i * min terms.interval longestSleep + terms.interval ≤ terms.deadline) :
    Inconclusive terms (undecided : Check α) origin i := by
  have hoff : offset terms (undecided : Check α) origin i = i * min terms.interval longestSleep :=
    offset_undecided
  refine ⟨⟨i * min terms.interval longestSleep, ?_, hi⟩, rfl⟩
  exact finish?_eq_some.mpr ⟨0, rfl, by omega, by omega⟩

/-- The attempts of some check use up their counter when that many fit before the deadline. -/
theorem exists_exhausting_iff :
    (∃ check : Check α, ∀ i < attemptLimit - 1, Inconclusive terms check origin i) ↔
      (attemptLimit - 2) * min terms.interval longestSleep + terms.interval ≤ terms.deadline := by
  constructor
  · rintro ⟨check, h⟩
    have hpos : 2 ≤ attemptLimit := by decide
    obtain ⟨t, ht, hle⟩ := (h (attemptLimit - 2) (by omega)).1
    obtain ⟨d, _, htd, _⟩ := finish?_eq_some.mp ht
    have hoff := mul_sleep_le_offset fun j (hj : j < attemptLimit - 2) => (h j (by omega)).1
    omega
  · intro h
    refine ⟨undecided, fun i hi => inconclusive_undecided (Nat.le_trans ?_ h)⟩
    exact Nat.add_le_add_right (Nat.mul_le_mul_right _ (by omega)) _

end Poll

namespace Settings

open Poll

variable {s : Settings} {source path : String}

/-- What the polling settings of accepted settings obey. -/
theorem fault?_eq_none (h : s.fault? = none) :
    1 ≤ s.polling.sleepTimeSecs.toNat ∧
      s.polling.sleepTimeSecs.toNat ≤ s.polling.durationMins.toNat * 60 ∧
      s.polling.durationMins.toNat * 60 < wordLimit := by
  unfold fault? at h
  split at h
  · cases h
  split at h
  · cases h
  next hsleep =>
    split at h
    · cases h
    next hword =>
      split at h
      · cases h
      next hshort =>
        have hpos : s.polling.sleepTimeSecs.toNat ≠ 0 := fun hz =>
          hsleep (UInt64.toNat_inj.mp (by simpa using hz))
        omega

theorem fault?_of_ofYaml (h : ofYaml source path = .ok s) : s.fault? = none := by
  unfold ofYaml at h
  split at h
  next p _ =>
    unfold validate at h
    split at h
    · cases h
    next hf =>
      cases h
      exact hf
  · cases h

theorem terms_of_accepted (h : s.fault? = none) :
    Terms.ofConfig s.pollConfig =
      ⟨s.polling.sleepTimeSecs.toNat * 1000, s.polling.durationMins.toNat * 60 * 1000,
        s.polling.stopOnError⟩ := by
  obtain ⟨_, hle, hword⟩ := fault?_eq_none h
  have hsleep : s.polling.sleepTimeSecs.toNat < wordLimit := Nat.lt_of_le_of_lt hle hword
  simp [Terms.ofConfig, pollConfig, Duration.ofSecs, Duration.toMillis, hsleep, hword]

/-- The poll of accepted settings always ends, and no sum of durations breaks it. It breaks down at
once when its deadline lies beyond the clock, and otherwise when as many attempts as can be counted
are inconclusive. No check can bring that about just when that many attempts do not fit. -/
theorem ending_of_accepted {α : Type} (accepted : ofYaml source path = .ok s) (clock : Nat)
    (origin : Instant) :
    let terms := Terms.ofConfig s.pollConfig
    let interval := s.polling.sleepTimeSecs.toNat * 1000
    let deadline := s.polling.durationMins.toNat * 60 * 1000
    (∀ check : Check α,
      (∃ t e, (run clock terms check origin).ending = some (t, e)) ∧
      (∀ t, (run clock terms check origin).ending ≠ some (t, .broken .span)) ∧
      ((∃ t, (run clock terms check origin).ending = some (t, .broken .clock)) ↔
        clockLimit ≤ clock + origin + deadline) ∧
      ((∃ t, (run clock terms check origin).ending = some (t, .broken .attempts)) ↔
        clock + origin + deadline < clockLimit ∧
          ∀ i < attemptLimit - 1, Inconclusive terms check origin i)) ∧
    ((∀ check : Check α, ∀ t, (run clock terms check origin).ending ≠
        some (t, .broken .attempts)) ↔
      clockLimit ≤ clock + origin + deadline ∨
        deadline < (attemptLimit - 2) * min interval longestSleep + interval) := by
  intro terms interval deadline
  have hfault := fault?_of_ofYaml accepted
  obtain ⟨_, hle, _⟩ := fault?_eq_none hfault
  have hterms : terms = ⟨interval, deadline, s.polling.stopOnError⟩ := terms_of_accepted hfault
  have hi : terms.interval = interval := by rw [hterms]
  have hd : terms.deadline = deadline := by rw [hterms]
  have hshort : interval ≤ deadline := Nat.mul_le_mul_right 1000 hle
  have hfits : terms.interval ≤ terms.deadline := by omega
  rw [← hd, ← hi]
  refine ⟨fun check => ⟨exists_ending hfits clock, not_broken_span hfits clock,
    broken_clock_iff hfits, broken_attempts_iff hfits⟩, ?_⟩
  constructor
  · intro h
    by_contra hnot
    obtain ⟨hclock, hroom⟩ := not_or.mp hnot
    obtain ⟨check, hall⟩ : ∃ check : Check α, ∀ i < attemptLimit - 1,
        Inconclusive terms check origin i := exists_exhausting_iff.mpr (Nat.not_lt.mp hroom)
    obtain ⟨t, ht⟩ := (broken_attempts_iff hfits).mpr ⟨Nat.not_le.mp hclock, hall⟩
    exact h check t ht
  · intro h check t ht
    obtain ⟨hclock, hall⟩ := (broken_attempts_iff hfits).mp ⟨t, ht⟩
    have hroom := exists_exhausting_iff.mp ⟨check, hall⟩
    omega

/-- The default settings with a check that finishes at once, called late on the clock. -/
theorem ending_of_accepted_default :
    ofYaml "" "cloudplane.yaml" = .ok {} ∧
      ∀ check : Check Unit, ∀ t, (run 1000000 (Terms.ofConfig ({} : Settings).pollConfig) check
        0).ending ≠ some (t, .broken .attempts) := by
  have accepted : ofYaml "" "cloudplane.yaml" = .ok {} := rfl
  exact ⟨accepted, (ending_of_accepted (α := Unit) accepted 1000000 0).2.mpr (.inr (by decide))⟩

theorem ofYaml_of_parse? (hp : parse? source = some s) (hf : s.fault? = none) :
    ofYaml source path = .ok s := by
  simp only [ofYaml, hp, validate, hf]

/-- A deadline beyond every clock, and a deadline with time for more attempts than are counted. -/
theorem accepted_breaks_down :
    (∃ s, ofYaml "polling:\n  duration_mins: 200000000000000000\n" "test.yaml" = .ok s ∧
      (run 0 (Terms.ofConfig s.pollConfig) (undecided : Check Unit) 0).ending =
        some (0, .broken .clock)) ∧
    (∃ s, ofYaml "polling:\n  sleep_time_secs: 1\n  duration_mins: 71582789\n" "test.yaml" =
        .ok s ∧
      ∃ t, (run 0 (Terms.ofConfig s.pollConfig) (undecided : Check Unit) 0).ending =
        some (t, .broken .attempts)) := by
  constructor
  · let s : Settings := { polling := { durationMins := 200000000000000000 } }
    have hf : s.fault? = none := by decide
    have hp : parse? "polling:\n  duration_mins: 200000000000000000\n" = some s := by
      decide +kernel
    have hlate : clockLimit ≤ 0 + 0 + (Terms.ofConfig s.pollConfig).deadline := by decide
    exact ⟨s, ofYaml_of_parse? hp hf, run_of_late hlate⟩
  · let s : Settings := { polling := { sleepTimeSecs := 1, durationMins := 71582789 } }
    have hf : s.fault? = none := by decide
    have hp : parse? "polling:\n  sleep_time_secs: 1\n  duration_mins: 71582789\n" = some s := by
      decide +kernel
    have hterms : Terms.ofConfig s.pollConfig = ⟨1000, 4294967340000, true⟩ := by decide
    refine ⟨s, ofYaml_of_parse? hp hf, ?_⟩
    rw [hterms]
    refine (broken_attempts_iff (by decide)).mpr ⟨by decide, fun i hi => ?_⟩
    have hsleep : min 1000 longestSleep = 1000 := by decide
    have hcount : i < 4294967295 := hi
    exact inconclusive_undecided (by simp only [hsleep]; omega)

end Settings

end ClusterControl
