import ClusterControl.Proofs.Poll.Bounds

/-!
# Settings that can be used

Settings are accepted just when they can be used: no time is zero, and the deadline is a number of
seconds that the machine holds and has room for a pause. Otherwise the error names the first setting
that is at fault. The times of accepted settings come unchanged to the dispatcher and to the poll,
so that they tell how many checks a poll makes that nothing decides.
-/

namespace ClusterControl

namespace Poll

variable {α : Type} {terms : Terms} {origin clock i : Nat}

/-- The number of checks that a poll has time for when they take none: one at the start, and one
after each pause for which there is room. -/
def Terms.attempts (terms : Terms) : Nat :=
  (terms.deadline - terms.interval) / min terms.interval longestSleep + 2

theorem finish?_undecided (h : i * min terms.interval longestSleep ≤ terms.deadline) :
    finish? terms (undecided : Check α) origin i = some (i * min terms.interval longestSleep) := by
  have hoff : offset terms (undecided : Check α) origin i = i * min terms.interval longestSleep :=
    offset_undecided
  exact finish?_eq_some.mpr ⟨0, rfl, by omega, by omega⟩

/-- Such a check is followed by another one as long as there is time for one. -/
theorem inconclusive_undecided_iff (hi : 1 ≤ terms.interval) (hle : terms.interval ≤ terms.deadline) :
    Inconclusive terms (undecided : Check α) origin i ↔ i + 1 < terms.attempts := by
  have hpause : 0 < min terms.interval longestSleep := Nat.lt_min.mpr ⟨hi, by decide⟩
  have hcount := @Nat.le_div_iff_mul_le _ i (terms.deadline - terms.interval) hpause
  have hroom : Inconclusive terms (undecided : Check α) origin i ↔
      i * min terms.interval longestSleep + terms.interval ≤ terms.deadline := by
    refine ⟨?_, inconclusive_undecided⟩
    rintro ⟨⟨t, ht, hnext⟩, _⟩
    have hoff : offset terms (undecided : Check α) origin i =
        i * min terms.interval longestSleep := offset_undecided
    obtain ⟨d, _, htd, _⟩ := finish?_eq_some.mp ht
    omega
  rw [hroom, Terms.attempts]
  omega

/-- A poll whose checks take no time and decide nothing makes as many as it has time for, a pause
apart, and runs into its deadline at the last one. -/
theorem run_undecided (hi : 1 ≤ terms.interval) (hle : terms.interval ≤ terms.deadline)
    (hclock : clock + origin + terms.deadline < clockLimit)
    (hcount : terms.attempts < attemptLimit) :
    let pause := min terms.interval longestSleep
    run clock terms (undecided : Check α) origin =
      ⟨(List.range terms.attempts).map fun i => origin + i * pause,
        some (origin + (terms.attempts - 1) * pause,
          .failed (.timeout terms.attempts (.ofMillis ((terms.attempts - 1) * pause))))⟩ := by
  intro pause
  obtain ⟨k, hk⟩ : ∃ k, terms.attempts = k + 1 := ⟨_, rfl⟩
  have hbefore : ∀ j < k, Inconclusive terms (undecided : Check α) origin j := fun j hj =>
    (inconclusive_undecided_iff hi hle).mpr (by omega)
  have hstop : ¬ Inconclusive terms (undecided : Check α) origin k := fun h => by
    have hnext := (inconclusive_undecided_iff hi hle).mp h
    omega
  have hlast : k * pause ≤ terms.deadline := by
    have hoff := offset_le fun j hj => (hbefore j hj).1
    rwa [offset_undecided] at hoff
  have hfinish : finish? terms (undecided : Check α) origin k = some (k * pause) :=
    finish?_undecided hlast
  have hclosing : closing terms (undecided : Check α) origin k =
      (k * pause, .failed (.timeout (k + 1) (.ofMillis (k * pause)))) := closing_of_some hfinish
  have hspan : ∀ t, finish? terms (undecided : Check α) origin k = some t →
      final? terms (undecided : Check α) origin k = none → t + terms.interval < spanLimit := by
    intro t ht _
    have htwice : spanLimit = 2 * clockLimit := rfl
    obtain rfl : k * pause = t := Option.some.inj (hfinish.symm.trans ht)
    omega
  rw [run_of_closing hclock (by omega) hbefore hspan hstop, hclosing, hk]
  simp only [starts, offset_undecided]
  rfl

end Poll

namespace Settings

open Poll

variable {s : Settings} {source path : String}

def conditions (s : Settings) : List (String × Bool) :=
  [("flow.acceptance_timeout_secs", 0 < s.flow.acceptanceTimeoutSecs.toNat),
    ("polling.sleep_time_secs", 0 < s.polling.sleepTimeSecs.toNat),
    ("polling.duration_mins", s.polling.durationMins.toNat * 60 < wordLimit),
    ("polling.duration_mins",
      s.polling.sleepTimeSecs.toNat ≤ s.polling.durationMins.toNat * 60)]

/-- The key of the first condition that does not hold. -/
def violated? (s : Settings) : Option String := (s.conditions.find? (!·.2)).map (·.1)

theorem toNat_pos {n : UInt64} : 0 < n.toNat ↔ ¬ n = 0 := by
  rw [Nat.pos_iff_ne_zero, ne_eq, ← UInt64.toNat_inj]
  rfl

/-- The fault of settings names the first condition that does not hold. -/
theorem fault?_of_violated (s : Settings) :
    match s.violated? with
    | none => s.fault? = none
    | some key => ∃ text, s.fault? = some (.invalidValue key text) := by
  unfold fault? violated? conditions
  by_cases hflow : s.flow.acceptanceTimeoutSecs = 0
  · simp [toNat_pos, hflow]
  by_cases hsleep : s.polling.sleepTimeSecs = 0
  · simp [toNat_pos, hflow, hsleep]
  by_cases hword : wordLimit ≤ s.polling.durationMins.toNat * 60
  · simp [toNat_pos, hflow, hsleep, hword]
  by_cases hroom : s.polling.durationMins.toNat * 60 < s.polling.sleepTimeSecs.toNat
  · simp [toNat_pos, hflow, hsleep, hword, hroom]
  · simp [toNat_pos, hflow, hsleep, hword, hroom]

theorem validate_of_violated (s : Settings) :
    match s.violated? with
    | none => s.validate = .ok s
    | some key => ∃ text, s.validate = .error (.invalidValue key text) := by
  have hfault := fault?_of_violated s
  unfold validate
  split
  next hnone =>
    rw [hnone] at hfault
    simp only [hfault]
  next key hkey =>
    rw [hkey] at hfault
    obtain ⟨text, htext⟩ := hfault
    exact ⟨text, by simp only [htext]⟩

structure Usable (s : Settings) : Prop where
  timeout_pos : 0 < s.flow.acceptanceTimeoutSecs.toNat
  sleep_pos : 0 < s.polling.sleepTimeSecs.toNat
  deadline_lt : s.polling.durationMins.toNat * 60 < wordLimit
  sleep_le : s.polling.sleepTimeSecs.toNat ≤ s.polling.durationMins.toNat * 60

theorem violated?_eq_none : s.violated? = none ↔ s.Usable := by
  unfold violated?
  rw [Option.map_eq_none_iff, List.find?_eq_none]
  simp only [conditions, List.forall_mem_cons, Bool.not_eq_true', Bool.not_eq_false,
    decide_eq_true_eq]
  constructor
  · rintro ⟨htimeout, hsleep, hdeadline, hle, _⟩
    exact ⟨htimeout, hsleep, hdeadline, hle⟩
  · rintro ⟨htimeout, hsleep, hdeadline, hle⟩
    exact ⟨htimeout, hsleep, hdeadline, hle, by simp⟩

theorem validate_eq_ok : s.validate = .ok s ↔ s.Usable := by
  rw [← violated?_eq_none]
  have hvalidate := validate_of_violated s
  cases hv : s.violated? with
  | none => simpa [hv] using hvalidate
  | some key =>
    rw [hv] at hvalidate
    obtain ⟨text, htext⟩ := hvalidate
    simp [htext]

theorem fault?_of_usable (h : s.Usable) : s.fault? = none := by
  have hfault := fault?_of_violated s
  rwa [violated?_eq_none.mpr h] at hfault

theorem ofSecs_of_lt {n : Nat} (h : n < wordLimit) :
    (Duration.ofSecs n).secs = n ∧ (Duration.ofSecs n).nanos = 0 := by
  simp [Duration.ofSecs, h]

def longestSleepSecs : Nat := longestSleep / 1000

/-- The checks for which settings leave time when they take none. -/
def checks (s : Settings) : Nat :=
  (s.polling.durationMins.toNat * 60 - s.polling.sleepTimeSecs.toNat) /
    min s.polling.sleepTimeSecs.toNat longestSleepSecs + 2

theorem checks_of_uncut (h : s.Usable) (huncut : s.polling.sleepTimeSecs.toNat ≤ longestSleepSecs) :
    s.checks = s.polling.durationMins.toNat * 60 / s.polling.sleepTimeSecs.toNat + 1 := by
  have hsplit := Nat.add_div_right
    (s.polling.durationMins.toNat * 60 - s.polling.sleepTimeSecs.toNat) h.sleep_pos
  rw [Nat.sub_add_cancel h.sleep_le] at hsplit
  rw [checks, Nat.min_eq_left huncut, hsplit]

theorem min_longestSleep (n : Nat) :
    min (n * 1000) longestSleep = min n longestSleepSecs * 1000 := by
  have hsecs : longestSleep = longestSleepSecs * 1000 := by decide
  rw [hsecs, Nat.mul_min_mul_right]

theorem attempts_of_usable (h : s.Usable) : (Terms.ofConfig s.pollConfig).attempts = s.checks := by
  rw [terms_of_accepted (fault?_of_usable h), Terms.attempts, checks]
  simp only
  rw [min_longestSleep, ← Nat.sub_mul, Nat.mul_div_mul_right _ _ (by decide)]

theorem ofYaml_eq_validate (h : parse? source = some s) : ofYaml source path = s.validate := by
  simp only [ofYaml, h]

/-- The poll of usable settings with a check that takes no time and decides nothing. -/
theorem run_of_usable {α : Type} (h : s.Usable) {clock : Nat} {origin : Instant}
    (hclock : clock + origin + s.polling.durationMins.toNat * 60 * 1000 < clockLimit)
    (hcount : s.checks < attemptLimit) :
    let pause := min s.polling.sleepTimeSecs.toNat longestSleepSecs * 1000
    run clock (Terms.ofConfig s.pollConfig) (undecided : Check α) origin =
      ⟨(List.range s.checks).map fun i => origin + i * pause,
        some (origin + (s.checks - 1) * pause,
          .failed (.timeout s.checks (.ofMillis ((s.checks - 1) * pause))))⟩ := by
  have hterms := terms_of_accepted (fault?_of_usable h)
  intro pause
  rw [← attempts_of_usable h] at hcount
  have hpause : min (Terms.ofConfig s.pollConfig).interval longestSleep = pause := by
    rw [hterms]
    exact min_longestSleep _
  have hpos : 1 ≤ (Terms.ofConfig s.pollConfig).interval := by
    rw [hterms]
    exact Nat.mul_pos h.sleep_pos (by decide)
  have hfits : (Terms.ofConfig s.pollConfig).interval ≤ (Terms.ofConfig s.pollConfig).deadline := by
    rw [hterms]
    exact Nat.mul_le_mul_right 1000 h.sleep_le
  have hreach : clock + origin + (Terms.ofConfig s.pollConfig).deadline < clockLimit := by
    rw [hterms]
    exact hclock
  have hrun := @run_undecided α _ _ _ hpos hfits hreach hcount
  rw [hpause, attempts_of_usable h] at hrun
  exact hrun

/-- Settings that a text writes are accepted just when they are usable, and else the error names the
first condition that does not hold. The times of usable settings come unchanged to the dispatcher
and to the poll. The poll makes at least two checks that take no time and decide nothing. They are a
pause apart, and there are as many as fit into the deadline when no sleep is cut. -/
theorem accepted_iff_usable (s : Settings) :
    (∀ source path, parse? source = some s → ofYaml source path = s.validate) ∧
    (match s.violated? with
      | none => s.validate = .ok s
      | some key => ∃ text, s.validate = .error (.invalidValue key text)) ∧
    (s.validate = .ok s ↔ s.Usable) ∧
    (s.Usable →
      (s.dispatcherConfig.timeout.secs = s.flow.acceptanceTimeoutSecs.toNat ∧
        s.dispatcherConfig.timeout.nanos = 0 ∧ 1 ≤ s.dispatcherConfig.timeout.secs) ∧
      (s.pollConfig.interval.secs = s.polling.sleepTimeSecs.toNat ∧
        s.pollConfig.interval.nanos = 0 ∧
        s.pollConfig.deadline.secs = s.polling.durationMins.toNat * 60 ∧
        s.pollConfig.deadline.nanos = 0 ∧ 1 ≤ s.pollConfig.interval.secs ∧
        s.pollConfig.interval.secs ≤ s.pollConfig.deadline.secs) ∧
      2 ≤ s.checks ∧
      (s.polling.sleepTimeSecs.toNat ≤ longestSleepSecs → s.checks =
        s.polling.durationMins.toNat * 60 / s.polling.sleepTimeSecs.toNat + 1) ∧
      ∀ (α : Type) (clock : Nat) (origin : Instant),
        clock + origin + s.polling.durationMins.toNat * 60 * 1000 < clockLimit →
        s.checks < attemptLimit →
        let pause := min s.polling.sleepTimeSecs.toNat longestSleepSecs * 1000
        run clock (Terms.ofConfig s.pollConfig) (undecided : Check α) origin =
          ⟨(List.range s.checks).map fun i => origin + i * pause,
            some (origin + (s.checks - 1) * pause,
              .failed (.timeout s.checks (.ofMillis ((s.checks - 1) * pause))))⟩) := by
  refine ⟨fun source path => ofYaml_eq_validate, validate_of_violated s, validate_eq_ok,
    fun h => ?_⟩
  obtain ⟨htimeout, htimeoutNanos⟩ := ofSecs_of_lt s.flow.acceptanceTimeoutSecs.toNat_lt
  obtain ⟨hinterval, hintervalNanos⟩ := ofSecs_of_lt s.polling.sleepTimeSecs.toNat_lt
  obtain ⟨hdeadline, hdeadlineNanos⟩ := ofSecs_of_lt h.deadline_lt
  refine ⟨⟨htimeout, htimeoutNanos, ?_⟩, ⟨hinterval, hintervalNanos, hdeadline, hdeadlineNanos, ?_,
    ?_⟩, Nat.le_add_left 2 _, checks_of_uncut h, fun α clock origin => run_of_usable h⟩
  · exact htimeout.symm ▸ h.timeout_pos
  · exact hinterval.symm ▸ h.sleep_pos
  · simpa only [pollConfig, hinterval, hdeadline] using h.sleep_le

/-- The default settings have time for 361 checks: one at the start and one every ten seconds of an
hour. -/
theorem accepted_iff_usable_default :
    ofYaml "" "cloudplane.yaml" = .ok {} ∧
      (run 0 (Terms.ofConfig ({} : Settings).pollConfig) (undecided : Check Unit) 5).starts.length =
        361 := by
  have husable : ({} : Settings).Usable := by constructor <;> decide
  obtain ⟨hread, _, hvalidate, htimes⟩ := accepted_iff_usable {}
  obtain ⟨_, _, _, _, hrun⟩ := htimes husable
  refine ⟨(hread _ _ rfl).trans (hvalidate.mpr husable), ?_⟩
  rw [hrun Unit 0 5 (by decide) (by decide), List.length_map, List.length_range]
  decide

/-- Settings whose sleep is cut: the deadline is twice the time between two checks, but a poll makes
four of them. -/
theorem checks_of_cut_sleep :
    ∃ s, ofYaml "polling: \x7bsleep_time_secs: 1892160000, duration_mins: 63072000\x7d\n"
        "cloudplane.yaml" = .ok s ∧
      0 + 0 + s.polling.durationMins.toNat * 60 * 1000 < clockLimit ∧
      s.polling.durationMins.toNat * 60 / s.polling.sleepTimeSecs.toNat + 1 = 3 ∧
      (run 0 (Terms.ofConfig s.pollConfig) (undecided : Check Unit) 0).starts =
        [0, 946080000000, 1892160000000, 2838240000000] := by
  let s : Settings := { polling := { sleepTimeSecs := 1892160000, durationMins := 63072000 } }
  have husable : s.Usable := by constructor <;> decide
  have hparse : parse?
      "polling: \x7bsleep_time_secs: 1892160000, duration_mins: 63072000\x7d\n" = some s := by
    decide +kernel
  have hclock : 0 + 0 + s.polling.durationMins.toNat * 60 * 1000 < clockLimit := by decide
  refine ⟨s, (ofYaml_eq_validate hparse).trans (validate_eq_ok.mpr husable), hclock, by decide, ?_⟩
  rw [run_of_usable husable hclock (by decide)]
  decide

end Settings

end ClusterControl
