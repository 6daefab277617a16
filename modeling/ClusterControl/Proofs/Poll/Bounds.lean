import ClusterControl.Proofs.Poll.Limits
import ClusterControl.Proofs.Stack.Course

/-!
# The bounds of a poll

A poll whose counters hold what is put into them ends at its first conclusive attempt. By then each
attempt before has used up its check and a sleep, and the deadline leaves room for so many of these
only. After its end nothing changes a poll, whatever a check that was dropped would have answered.
A check may answer by all that it was asked before, which the number of an attempt settles.
-/

namespace ClusterControl.Poll

variable {α : Type} {terms : Terms} {check other : Check α} {origin clock i k t : Nat}

/-- The counter of the attempts, and the sums with the interval, hold what a poll puts into them. -/
structure Fits (terms : Terms) (check : Check α) (origin : Instant) : Prop where
  attempts : ∃ i, i + 1 < attemptLimit ∧ ¬ Inconclusive terms check origin i
  span : ∀ i, (∀ j < i, Inconclusive terms check origin j) →
    ∀ t, finish? terms check origin i = some t → final? terms check origin i = none →
      t + terms.interval < spanLimit

theorem offset_le_closing (h : ∀ j < k, Inconclusive terms check origin j) :
    offset terms check origin k ≤ (closing terms check origin k).1 := by
  unfold closing
  split
  next => exact offset_le fun j hj => (h j hj).1
  next t ht =>
    obtain ⟨d, _, htd, _⟩ := finish?_eq_some.mp ht
    omega

/-- A poll that fits ends at its first conclusive attempt. -/
theorem exists_closing (hclock : clock + origin + terms.deadline < clockLimit)
    (fits : Fits terms check origin) :
    ∃ k, k + 1 < attemptLimit ∧ (∀ j < k, Inconclusive terms check origin j) ∧
      ¬ Inconclusive terms check origin k ∧
      run clock terms check origin =
        ⟨starts terms check origin (k + 1),
          some (origin + (closing terms check origin k).1, (closing terms check origin k).2)⟩ := by
  classical
  have hex : ∃ i, ¬ Inconclusive terms check origin i := by
    obtain ⟨i, _, hi⟩ := fits.attempts
    exact ⟨i, hi⟩
  obtain ⟨i, hcount, hi⟩ := fits.attempts
  have hk := Nat.find_spec hex
  have hbefore : ∀ j < Nat.find hex, Inconclusive terms check origin j := fun j hj =>
    Decidable.not_not.mp (Nat.find_min hex hj)
  have hle : Nat.find hex ≤ i := Nat.find_min' hex hi
  exact ⟨Nat.find hex, by omega, hbefore, hk,
    run_of_closing hclock (by omega) hbefore (fits.span _ hbefore) hk⟩

/-- A poll with room for fewer attempts than are counted, and for the sums, fits. -/
theorem fits_of_room (hspan : terms.deadline + terms.interval < spanLimit)
    (hroom : terms.deadline <
      (attemptLimit - 2) * min terms.interval longestSleep + terms.interval) :
    Fits terms check origin where
  attempts := by
    by_contra h
    have hall : ∀ i < attemptLimit - 1, Inconclusive terms check origin i := by
      intro i hi
      by_contra hnot
      exact h ⟨i, by omega, hnot⟩
    have hle := exists_exhausting_iff.mp ⟨check, hall⟩
    omega
  span i _ t ht _ := by
    obtain ⟨d, _, _, hby⟩ := finish?_eq_some.mp ht
    omega

/-- A clock that holds the deadline of a poll from `origin`, and a deadline that has room for fewer
attempts than are counted and adds up with the interval. -/
structure Room (clock : Nat) (terms : Terms) (origin : Instant) : Prop where
  clock : clock + origin + terms.deadline < clockLimit
  span : terms.deadline + terms.interval < spanLimit
  attempts : terms.deadline <
    (attemptLimit - 2) * min terms.interval longestSleep + terms.interval

/-- With room for it a poll breaks no counter, whatever its check answers. -/
theorem Room.ending_ne_broken (h : Room clock terms origin) {counter : Overflow} :
    (run clock terms check origin).ending ≠ some (t, .broken counter) := by
  have fits : Fits terms check origin := fits_of_room h.span h.attempts
  obtain ⟨k, _, _, _, hrun⟩ := exists_closing h.clock fits
  rw [hrun]
  simpa using fun _ => closing_ne_broken counter

section Starts

@[simp] theorem length_starts : (starts terms check origin k).length = k := by
  simp [starts]

theorem getElem?_starts {s : Instant} :
    (starts terms check origin k)[i]? = some s ↔
      i < k ∧ s = origin + offset terms check origin i := by
  by_cases hi : i < k
  · simp [starts, hi, eq_comm]
  · simp [starts, hi]

/-- Between two starts lie the check of the first and a sleep. -/
theorem exists_delay_of_starts (h : ∀ j < k, Inconclusive terms check origin j) {s u : Instant}
    (hs : (starts terms check origin (k + 1))[i]? = some s)
    (hu : (starts terms check origin (k + 1))[i + 1]? = some u) :
    (∃ d, (check (i + 1) s).delay = some d ∧ u = s + d + min terms.interval longestSleep) ∧
      verdict? terms.stopOnFailure (i + 1) (check (i + 1) s).answer = none := by
  obtain ⟨_, rfl⟩ := getElem?_starts.mp hs
  obtain ⟨hi, rfl⟩ := getElem?_starts.mp hu
  obtain ⟨⟨t, ht, _⟩, hf⟩ := h i (by omega)
  obtain ⟨d, hd, rfl, _⟩ := finish?_eq_some.mp ht
  have hnext := offset_succ ht
  refine ⟨⟨d, hd, ?_⟩, hf⟩
  rw [hnext]
  simp only [Nat.add_assoc]

/-- As many attempts as have gone on have left room for another interval. -/
theorem length_le (hi : 1 ≤ terms.interval) (h : ∀ j < k, Inconclusive terms check origin j) :
    k + 1 ≤ if terms.interval ≤ terms.deadline then
      (terms.deadline - terms.interval) / min terms.interval longestSleep + 2 else 1 := by
  cases k with
  | zero => split <;> simp
  | succ k =>
    obtain ⟨t, ht, hle⟩ := (h k (Nat.lt_succ_self k)).1
    obtain ⟨d, _, htd, _⟩ := finish?_eq_some.mp ht
    have hfits : terms.interval ≤ terms.deadline := by omega
    have hoff : k * min terms.interval longestSleep ≤ offset terms check origin k :=
      mul_sleep_le_offset fun j hj => (h j (by omega)).1
    have hpos : 0 < min terms.interval longestSleep := by
      have hsleep : 1 ≤ longestSleep := by decide
      omega
    have hcount : k ≤ (terms.deadline - terms.interval) / min terms.interval longestSleep :=
      (Nat.le_div_iff_mul_le hpos).mpr (by omega)
    rw [if_pos hfits]
    omega

theorem length_le_of_uncut (hi : 1 ≤ terms.interval) (huncut : terms.interval ≤ longestSleep)
    (h : ∀ j < k, Inconclusive terms check origin j) :
    k + 1 ≤ terms.deadline / terms.interval + 1 := by
  cases k with
  | zero => exact Nat.add_le_add_right (Nat.zero_le _) 1
  | succ k =>
    obtain ⟨t, ht, hle⟩ := (h k (Nat.lt_succ_self k)).1
    obtain ⟨d, _, htd, _⟩ := finish?_eq_some.mp ht
    have hoff : k * min terms.interval longestSleep ≤ offset terms check origin k :=
      mul_sleep_le_offset fun j hj => (h j (by omega)).1
    rw [Nat.min_eq_left huncut] at hoff
    have hcount : k + 1 ≤ terms.deadline / terms.interval := by
      refine (Nat.le_div_iff_mul_le hi).mpr ?_
      rw [Nat.add_mul, Nat.one_mul]
      omega
    omega

end Starts

section Settled

variable {start attempt now a b : Nat}

theorem pause_again_le {next : Nat}
    (h : pause (α := α) terms origin attempt now = .again next) :
    next ≤ origin + terms.deadline := by
  unfold pause at h
  dsimp only at h
  split at h
  next => cases h
  next =>
    split at h
    next => cases h
    next hle =>
      cases h
      have hroom : now + terms.interval ≤ origin + terms.deadline := by omega
      exact Nat.le_trans (Nat.add_le_add_left (Nat.min_le_left _ _) now) hroom

theorem conclude_again_le {next : Nat}
    {answer : Except Failure (Outcome α)}
    (h : conclude terms origin attempt now answer = .again next) :
    next ≤ origin + terms.deadline := by
  rw [conclude_eq] at h
  split at h
  next => cases h
  next => exact pause_again_le h

/-- An attempt that starts by the deadline ends by it, and so starts the next one. -/
theorem settle_within {finish : Nat} {next : Next α}
    (hs : start ≤ origin + terms.deadline)
    (h : settle terms check origin attempt start = (finish, next)) :
    start ≤ finish ∧ finish ≤ origin + terms.deadline ∧
      ∀ u, next = .again u → u ≤ origin + terms.deadline := by
  unfold settle at h
  dsimp only at h
  split at h
  next =>
    cases h
    exact ⟨hs, Nat.le_refl _, by simp⟩
  next d _ =>
    split at h
    next hle =>
      obtain ⟨rfl, rfl⟩ := Prod.mk.inj h
      exact ⟨Nat.le_add_right start d, hle, fun u hu => conclude_again_le hu⟩
    next =>
      cases h
      exact ⟨hs, Nat.le_refl _, by simp⟩

/-- Attempts that start by the deadline are over at it. -/
theorem exists_resume_ending (left attempt : Nat) (begun : List Instant)
    (hs : start ≤ origin + terms.deadline) (hn : origin + terms.deadline ≤ now) :
    ∃ t e, (resume terms check origin now left attempt start begun).ending = some (t, e) ∧
      t ≤ origin + terms.deadline := by
  have hbegun : ¬ now < start := Nat.not_lt.mpr (Nat.le_trans hs hn)
  induction left generalizing attempt start begun with
  | zero => exact ⟨start, .broken .attempts, by simp [resume, hbegun], hs⟩
  | succ left ih =>
    rcases hsettle : settle terms check origin attempt start with ⟨finish, next⟩
    obtain ⟨_, hfinish, hnext⟩ := settle_within hs hsettle
    have hover : ¬ now < finish := Nat.not_lt.mpr (Nat.le_trans hfinish hn)
    simp only [resume, hbegun, hsettle, hover, if_false]
    cases next with
    | ended e => exact ⟨finish, e, rfl, hfinish⟩
    | again u =>
      have hu : u ≤ origin + terms.deadline := hnext u rfl
      exact ih (attempt + 1) (start :: begun) hu (Nat.not_lt.mpr (Nat.le_trans hu hn))

variable (terms check origin clock) in
/-- Every poll ends by its deadline, though it may end by breaking a counter. -/
theorem exists_run_ending :
    ∃ t e, (run clock terms check origin).ending = some (t, e) ∧
      t ≤ origin + terms.deadline := by
  have hstart : origin ≤ origin + terms.deadline := Nat.le_add_right _ _
  unfold run watch
  rw [if_neg (Nat.not_lt.mpr hstart)]
  split
  · exact ⟨origin, _, rfl, hstart⟩
  · exact exists_resume_ending _ _ _ hstart (Nat.le_refl _)

/-- Attempts that are over look the same from each later instant. -/
theorem resume_settled {left : Nat} {begun : List Instant} {e : Ending α}
    (hs : start ≤ origin + terms.deadline)
    (h : (resume terms check origin a left attempt start begun).ending = some (t, e)) :
    start ≤ t ∧ t ≤ a ∧
      (t ≤ b → resume terms check origin b left attempt start begun =
        resume terms check origin a left attempt start begun) := by
  induction left generalizing attempt start begun with
  | zero =>
    by_cases hlate : a < start
    · simp [resume, hlate] at h
    · simp only [resume, hlate, if_false, Option.some.injEq, Prod.mk.injEq] at h
      obtain ⟨rfl, rfl⟩ := h
      refine ⟨Nat.le_refl _, Nat.le_of_not_lt hlate, fun hb => ?_⟩
      simp [resume, hlate, Nat.not_lt.mpr hb]
  | succ left ih =>
    by_cases hlate : a < start
    · simp [resume, hlate] at h
    · rcases hsettle : settle terms check origin attempt start with ⟨finish, next⟩
      obtain ⟨hstart, _, hnext⟩ := settle_within hs hsettle
      by_cases hopen : a < finish
      · simp [resume, hlate, hsettle, hopen] at h
      · cases next with
        | ended e' =>
          simp only [resume, hlate, hsettle, hopen, if_false, Option.some.injEq,
            Prod.mk.injEq] at h
          obtain ⟨rfl, rfl⟩ := h
          refine ⟨hstart, Nat.le_of_not_lt hopen, fun hb => ?_⟩
          have hbegun : ¬ b < start := Nat.not_lt.mpr (Nat.le_trans hstart hb)
          simp [resume, hlate, hsettle, hopen, hbegun, Nat.not_lt.mpr hb]
        | again u =>
          simp only [resume, hlate, hsettle, hopen, if_false] at h
          obtain ⟨hut, hta, hsame⟩ := ih (hnext u rfl) h
          have hfinish : finish ≤ t := Nat.le_trans (settle_again hsettle).2 hut
          refine ⟨Nat.le_trans hstart hfinish, hta, fun hb => ?_⟩
          have hbegun : ¬ b < start :=
            Nat.not_lt.mpr (Nat.le_trans (Nat.le_trans hstart hfinish) hb)
          have hover : ¬ b < finish := Nat.not_lt.mpr (Nat.le_trans hfinish hb)
          simp only [resume, hlate, hsettle, hopen, hbegun, hover, if_false]
          exact hsame hb

theorem watch_settled {e : Ending α}
    (h : (watch clock terms check origin a).ending = some (t, e)) :
    t ≤ a ∧ (t ≤ b → watch clock terms check origin b = watch clock terms check origin a) := by
  unfold watch at h ⊢
  by_cases ha : a < origin
  · simp [ha] at h
  · by_cases hclock : clockLimit ≤ clock + origin + terms.deadline
    · simp only [ha, hclock, if_true, if_false, Option.some.injEq, Prod.mk.injEq] at h
      obtain ⟨rfl, rfl⟩ := h
      refine ⟨Nat.le_of_not_lt ha, fun hb => ?_⟩
      simp [ha, hclock, Nat.not_lt.mpr hb]
    · simp only [ha, hclock, if_false] at h
      obtain ⟨hot, hta, hsame⟩ := resume_settled (Nat.le_add_right origin terms.deadline) h
      refine ⟨hta, fun hb => ?_⟩
      have hb' : ¬ b < origin := Nat.not_lt.mpr (Nat.le_trans hot hb)
      simp only [ha, hb', hclock, if_false]
      exact hsame hb

/-- A poll has not ended before its end, and is the same from then on. -/
theorem watch_of_ending {e : Ending α}
    (h : (run clock terms check origin).ending = some (t, e)) :
    (now < t → (watch clock terms check origin now).ending = none) ∧
      (t ≤ now → watch clock terms check origin now = run clock terms check origin) := by
  refine ⟨fun hn => ?_, (watch_settled h).2⟩
  cases hw : (watch clock terms check origin now).ending with
  | none => rfl
  | some x =>
    obtain ⟨u, f⟩ := x
    obtain ⟨hu, hsame⟩ := watch_settled (b := origin + terms.deadline) hw
    have hrun : run clock terms check origin = watch clock terms check origin now := by
      obtain ⟨hbound, _⟩ := watch_settled (b := now) h
      exact hsame (by omega)
    rw [hrun, hw] at h
    cases h
    omega

end Settled

section Dropped

variable (terms check origin) in
def Late (attempt : Nat) (start : Instant) : Prop :=
  ∀ d, (check attempt start).delay = some d → origin + terms.deadline < start + d

theorem finish?_eq_none :
    finish? terms check origin i = none ↔
      Late terms check origin (i + 1) (origin + offset terms check origin i) := by
  rw [Option.eq_none_iff_forall_ne_some]
  simp only [ne_eq, finish?_eq_some, reply, Late]
  constructor
  · intro h d hd
    refine Nat.lt_of_not_le fun hle => h _ ⟨d, hd, rfl, by omega⟩
  · rintro h t ⟨d, hd, rfl, hle⟩
    have hlate := h d hd
    omega

theorem offset_congr
    (h : ∀ j < i, other (j + 1) (origin + offset terms check origin j) =
      check (j + 1) (origin + offset terms check origin j)) :
    offset terms other origin i = offset terms check origin i := by
  induction i with
  | zero => rfl
  | succ i ih =>
    have hoff := ih fun j hj => h j (by omega)
    simp only [offset, hoff, h i (Nat.lt_succ_self i)]

theorem reply_congr (hoff : offset terms other origin i = offset terms check origin i)
    (h : other (i + 1) (origin + offset terms check origin i) =
      check (i + 1) (origin + offset terms check origin i)) :
    reply terms other origin i = reply terms check origin i := by
  simp only [reply, hoff, h]

theorem inconclusive_congr (hoff : offset terms other origin i = offset terms check origin i)
    (hr : reply terms other origin i = reply terms check origin i) :
    Inconclusive terms other origin i ↔ Inconclusive terms check origin i := by
  simp only [Inconclusive, GoesOn, finish?, final?, hoff, hr]

/-- Checks that differ at most in what a dropped attempt would have answered, or in what attempts
that are not made would have, lead to the same poll. -/
theorem run_congr (hclock : clock + origin + terms.deadline < clockLimit)
    (fits : Fits terms check origin)
    (h : ∀ i s, (run clock terms check origin).starts[i]? = some s →
      other (i + 1) s = check (i + 1) s ∨
        Late terms check origin (i + 1) s ∧ Late terms other origin (i + 1) s) :
    run clock terms other origin = run clock terms check origin := by
  obtain ⟨k, hk, hbefore, hstop, hrun⟩ := exists_closing hclock fits
  rw [hrun] at h
  have hmade : ∀ i ≤ k, (starts terms check origin (k + 1))[i]? =
      some (origin + offset terms check origin i) := fun i hi =>
    getElem?_starts.mpr ⟨by omega, rfl⟩
  have hsame : ∀ j < k, other (j + 1) (origin + offset terms check origin j) =
      check (j + 1) (origin + offset terms check origin j) := by
    intro j hj
    rcases h j _ (hmade j (by omega)) with heq | ⟨hlate, _⟩
    · exact heq
    · obtain ⟨t, ht, _⟩ := (hbefore j hj).1
      rw [finish?_eq_none.mpr hlate] at ht
      cases ht
  have hoff : ∀ j ≤ k, offset terms other origin j = offset terms check origin j := fun j hj =>
    offset_congr fun l hl => hsame l (by omega)
  have hbefore' : ∀ j < k, Inconclusive terms other origin j := fun j hj =>
    (inconclusive_congr (hoff j (by omega)) (reply_congr (hoff j (by omega)) (hsame j hj))).mpr
      (hbefore j hj)
  have hstarts : starts terms other origin (k + 1) = starts terms check origin (k + 1) := by
    apply List.map_congr_left
    intro j hj
    rw [hoff j (by simpa using Nat.lt_succ_iff.mp (List.mem_range.mp hj))]
  rcases h k _ (hmade k (Nat.le_refl k)) with heq | ⟨hlate, hlate'⟩
  · have hr := reply_congr (hoff k (Nat.le_refl k)) heq
    have hfinish : finish? terms other origin k = finish? terms check origin k := by
      simp only [finish?, hoff k (Nat.le_refl k), hr]
    have hfinal : final? terms other origin k = final? terms check origin k := by
      simp only [final?, hr]
    have hclosing : closing terms other origin k = closing terms check origin k := by
      simp only [closing, hfinish, hfinal]
    have hspan := fits.span k hbefore
    rw [← hfinish, ← hfinal] at hspan
    have hstop' : ¬ Inconclusive terms other origin k := fun hi =>
      hstop ((inconclusive_congr (hoff k (Nat.le_refl k)) hr).mp hi)
    rw [hrun, run_of_closing hclock hk hbefore' hspan hstop', hclosing, hstarts]
  · have hnone : finish? terms check origin k = none := finish?_eq_none.mpr hlate
    have hnone' : finish? terms other origin k = none := by
      rw [finish?_eq_none, hoff k (Nat.le_refl k)]
      exact hlate'
    have hclosing : closing terms other origin k = closing terms check origin k := by
      simp only [closing, hnone, hnone']
    have hstop' : ¬ Inconclusive terms other origin k := by
      rintro ⟨⟨t, ht, _⟩, _⟩
      rw [hnone'] at ht
      cases ht
    have hspan : ∀ t, finish? terms other origin k = some t →
        final? terms other origin k = none → t + terms.interval < spanLimit := by
      intro t ht
      rw [hnone'] at ht
      cases ht
    rw [hrun, run_of_closing hclock hk hbefore' hspan hstop', hclosing, hstarts]

end Dropped

/-- A poll that fits returns by its deadline. It starts a check, and no more than there is room for;
each further one starts a sleep after the end of the one before, and only after an answer that
decides nothing. Once it has returned it stays as it is, and what a check that was still running
would have answered makes no difference. -/
theorem run_bounds (hi : 1 ≤ terms.interval)
    (hclock : clock + origin + terms.deadline < clockLimit) (fits : Fits terms check origin) :
    ∃ t e, (run clock terms check origin).ending = some (t, e) ∧
      (∀ counter, e ≠ .broken counter) ∧ origin ≤ t ∧ t ≤ origin + terms.deadline ∧
      1 ≤ (run clock terms check origin).starts.length ∧
      ((run clock terms check origin).starts.length ≤
        if terms.interval ≤ terms.deadline then
          (terms.deadline - terms.interval) / min terms.interval longestSleep + 2 else 1) ∧
      (terms.interval ≤ longestSleep → (run clock terms check origin).starts.length ≤
        terms.deadline / terms.interval + 1) ∧
      (∀ s ∈ (run clock terms check origin).starts, origin ≤ s ∧ s ≤ t) ∧
      (∀ i s u, (run clock terms check origin).starts[i]? = some s →
        (run clock terms check origin).starts[i + 1]? = some u →
        s + min terms.interval longestSleep ≤ u ∧
        (∃ d, (check (i + 1) s).delay = some d ∧
          u = s + d + min terms.interval longestSleep) ∧
        verdict? terms.stopOnFailure (i + 1) (check (i + 1) s).answer = none) ∧
      (∀ now, t ≤ now → watch clock terms check origin now = run clock terms check origin) ∧
      (∀ other : Check α, (∀ i s, (run clock terms check origin).starts[i]? = some s →
          other (i + 1) s = check (i + 1) s ∨
            Late terms check origin (i + 1) s ∧ Late terms other origin (i + 1) s) →
        run clock terms other origin = run clock terms check origin) := by
  obtain ⟨k, _, hbefore, _, hrun⟩ := exists_closing hclock fits
  have hend : (run clock terms check origin).ending =
      some (origin + (closing terms check origin k).1, (closing terms check origin k).2) := by
    rw [hrun]
  have hlen : (run clock terms check origin).starts.length = k + 1 := by
    rw [hrun]
    exact length_starts
  refine ⟨_, _, hend, closing_ne_broken, Nat.le_add_right _ _,
    Nat.add_le_add_left closing_le origin, ?_, ?_, ?_, ?_, ?_, ?_, ?_⟩
  · omega
  · rw [hlen]
    exact length_le hi hbefore
  · intro huncut
    rw [hlen]
    exact length_le_of_uncut hi huncut hbefore
  · intro s hs
    obtain ⟨i, hs⟩ := List.mem_iff_getElem?.mp hs
    rw [hrun] at hs
    obtain ⟨hik, rfl⟩ := getElem?_starts.mp hs
    have hmono : offset terms check origin i ≤ offset terms check origin k :=
      offset_le_of_le (by omega)
    have hlast := offset_le_closing hbefore
    exact ⟨Nat.le_add_right _ _, Nat.add_le_add_left (Nat.le_trans hmono hlast) origin⟩
  · intro i s u hs hu
    rw [hrun] at hs hu
    obtain ⟨⟨d, hd, rfl⟩, hf⟩ := exists_delay_of_starts hbefore hs hu
    exact ⟨by omega, ⟨d, hd, rfl⟩, hf⟩
  · exact fun now hn => (watch_of_ending hend).2 hn
  · exact fun other h => run_congr hclock fits h

/-- A check that goes on twice and hangs from then on. -/
def stalling : Check Unit := fun attempt _ =>
  if attempt ≤ 2 then ⟨some 0, .ok .goOn⟩ else ⟨none, .ok .goOn⟩

theorem run_bounds_stalling :
    1 ≤ 10 ∧ 0 + 5 + 25 < clockLimit ∧ Fits ⟨10, 25, true⟩ stalling 5 ∧
      ∃ t e, (run 0 ⟨10, 25, true⟩ stalling 5).ending = some (t, e) ∧ t ≤ 5 + 25 ∧
        (run 0 ⟨10, 25, true⟩ stalling 5).starts.length ≤ 25 / 10 + 1 ∧
        ∀ now, t ≤ now →
          watch 0 ⟨10, 25, true⟩ stalling 5 now = run 0 ⟨10, 25, true⟩ stalling 5 := by
  have hclock : 0 + 5 + 25 < clockLimit := by decide
  have fits : Fits ⟨10, 25, true⟩ stalling 5 := fits_of_room (by decide) (by decide)
  obtain ⟨t, e, hend, _, _, hby, _, _, hcount, _, _, hstays, _⟩ :=
    @run_bounds Unit ⟨10, 25, true⟩ stalling 5 0 (by decide) hclock fits
  exact ⟨by decide, hclock, fits, t, e, hend, hby, hcount (by decide), hstays⟩

/-- With twice the longest sleep for an interval, four checks start before a deadline with room for
three, and only a sleep apart. -/
theorem starts_of_cut_sleep :
    (run 0 ⟨2 * longestSleep, 4 * longestSleep, true⟩ (undecided : Check Unit) 0).starts =
        [0, longestSleep, 2 * longestSleep, 3 * longestSleep] ∧
      ¬ (run 0 ⟨2 * longestSleep, 4 * longestSleep, true⟩
        (undecided : Check Unit) 0).starts.length ≤ 4 * longestSleep / (2 * longestSleep) + 1 ∧
      ¬ 0 + 2 * longestSleep ≤ longestSleep := by
  have hstarts : (run 0 ⟨2 * longestSleep, 4 * longestSleep, true⟩
      (undecided : Check Unit) 0).starts =
        [0, longestSleep, 2 * longestSleep, 3 * longestSleep] := rfl
  refine ⟨hstarts, ?_, by decide⟩
  rw [hstarts]
  decide

end ClusterControl.Poll
