import ClusterControl.Poll.Run
import Mathlib.Data.Nat.Find

/-!
# The closed form of a poll

Each attempt starts where the sleep after the one before ends. From the starts alone follows which
attempt is the last that may start, and from that and the outcomes of the checks follows all that
the poll does. An attempt is named here by the number of the attempts before it, and times count
from the start of the poll.
-/

namespace ClusterControl.Poll

variable {α : Type} (terms : Terms) (check : Check α) (origin : Instant)

/-- The start of the attempt after `i` others, when none of their checks takes forever. -/
def offset : Nat → Nat
  | 0 => 0
  | i + 1 =>
    Instant.wake (offset i + (check (i + 1) (origin + offset i)).delay.getD 0) terms.interval

def reply (i : Nat) : Reply Failure (Outcome α) :=
  check (i + 1) (origin + offset terms check origin i)

/-- The end of a check that answers by the deadline. -/
def finish? (i : Nat) : Option Nat :=
  ((reply terms check origin i).delay.map (offset terms check origin i + ·)).filter
    (· ≤ terms.deadline)

/-- The end of a check, which is dropped at the deadline. -/
def finish (i : Nat) : Nat :=
  match (reply terms check origin i).delay with
  | none => terms.deadline
  | some d => min terms.deadline (offset terms check origin i + d)

def GoesOn (i : Nat) : Prop :=
  ∃ t, finish? terms check origin i = some t ∧ t + terms.interval ≤ terms.deadline

def Last (n : Nat) : Prop :=
  (∀ i < n, GoesOn terms check origin i) ∧ ¬ GoesOn terms check origin n

def starts (n : Nat) : List Instant :=
  (List.range n).map fun i => origin + offset terms check origin i

/-- The ending that an answer means, if it is final. -/
def verdict? (stopOnFailure : Bool) (attempt : Nat) :
    Except Failure (Outcome α) → Option (Ending α)
  | .ok (.finished a) => some (.done a)
  | .ok (.stop reason) => some (.failed (.stopped reason))
  | .ok .goOn => none
  | .error f => if stopOnFailure then some (.failed (.aborted attempt f)) else none

def final? (i : Nat) : Option (Ending α) :=
  verdict? terms.stopOnFailure (i + 1) (reply terms check origin i).answer

structure Decides (k t : Nat) (e : Ending α) : Prop where
  first : ∀ j < k, final? terms check origin j = none
  final : final? terms check origin k = some e
  ends : finish? terms check origin k = some t

instance (i : Nat) : Decidable (GoesOn terms check origin i) :=
  decidable_of_iff ((finish? terms check origin i).any (· + terms.interval ≤ terms.deadline))
    (by simp [GoesOn, Option.any_eq_true])

instance (n : Nat) : Decidable (Last terms check origin n) := inferInstanceAs (Decidable (_ ∧ _))

variable {terms check origin} {clock i k n t : Nat} {e : Ending α}

theorem finish?_eq_some : finish? terms check origin i = some t ↔
    ∃ d, (reply terms check origin i).delay = some d ∧
      t = offset terms check origin i + d ∧ t ≤ terms.deadline := by
  cases hd : (reply terms check origin i).delay with
  | none => simp [finish?, hd]
  | some d =>
    simp only [finish?, hd, Option.map_some, Option.filter_eq_some_iff, Option.some.injEq,
      decide_eq_true_eq]
    constructor
    · rintro ⟨rfl, ht⟩
      exact ⟨d, rfl, rfl, ht⟩
    · rintro ⟨_, rfl, rfl, ht⟩
      exact ⟨rfl, ht⟩

theorem finish_of_some (h : finish? terms check origin i = some t) :
    finish terms check origin i = t := by
  obtain ⟨d, hd, rfl, ht⟩ := finish?_eq_some.mp h
  simp only [finish, hd]
  omega

theorem finish_of_none (h : finish? terms check origin i = none) :
    finish terms check origin i = terms.deadline := by
  cases hd : (reply terms check origin i).delay with
  | none => simp [finish, hd]
  | some d =>
    have hlate : terms.deadline < offset terms check origin i + d := by
      simpa [finish?, hd] using h
    simp only [finish, hd]
    omega

theorem offset_succ (h : finish? terms check origin i = some t) :
    offset terms check origin (i + 1) = t + min terms.interval longestSleep := by
  obtain ⟨d, hd, rfl, _⟩ := finish?_eq_some.mp h
  simp only [reply] at hd
  simp [offset, Instant.wake, hd]

theorem offset_le (h : ∀ j < i, GoesOn terms check origin j) :
    offset terms check origin i ≤ terms.deadline := by
  cases i with
  | zero => exact Nat.zero_le _
  | succ j =>
    obtain ⟨t, ht, hle⟩ := h j (Nat.lt_succ_self j)
    have hs := offset_succ ht
    omega

theorem starts_succ :
    starts terms check origin (n + 1) =
      starts terms check origin n ++ [origin + offset terms check origin n] := by
  simp [starts, List.range_succ]

/-- Attempts that go on come later and later. -/
theorem le_offset (hi : 1 ≤ terms.interval) (h : ∀ j < i, GoesOn terms check origin j) :
    i ≤ offset terms check origin i := by
  induction i with
  | zero => exact Nat.zero_le _
  | succ i ih =>
    have hle := ih fun j hj => h j (Nat.lt_succ_of_lt hj)
    obtain ⟨t, ht, _⟩ := h i (Nat.lt_succ_self i)
    have hs := offset_succ ht
    obtain ⟨d, _, htd, _⟩ := finish?_eq_some.mp ht
    have hsleep : 1 ≤ longestSleep := by decide
    omega

theorem exists_last (hi : 1 ≤ terms.interval) : ∃ n, Last terms check origin n := by
  have hstop : ∃ n, ¬ GoesOn terms check origin n := by
    refine Classical.not_forall.mp fun h => ?_
    have hlow := le_offset (i := terms.deadline + 1) hi fun j _ => h j
    have hhigh := offset_le (i := terms.deadline + 1) fun j _ => h j
    omega
  refine ⟨Nat.find hstop, fun i hin => ?_, Nat.find_spec hstop⟩
  exact Decidable.not_not.mp (Nat.find_min hstop hin)

theorem offset_le_of_le (h : i ≤ k) :
    offset terms check origin i ≤ offset terms check origin k := by
  induction h with
  | refl => exact Nat.le_refl _
  | step _ ih =>
    simp only [offset, Instant.wake]
    omega

/-- With an interval that no sleep cuts, the attempts that may start are those that start by the
deadline. -/
theorem le_last_iff (h : terms.interval ≤ longestSleep) (hn : Last terms check origin n) :
    k ≤ n ↔ (∀ j < k, (reply terms check origin j).delay ≠ none) ∧
      offset terms check origin k ≤ terms.deadline := by
  constructor
  · intro hk
    have hgo : ∀ j < k, GoesOn terms check origin j := fun j hj => hn.1 j (by omega)
    refine ⟨fun j hj => ?_, offset_le hgo⟩
    obtain ⟨t, ht, _⟩ := hgo j hj
    obtain ⟨d, hd, _⟩ := finish?_eq_some.mp ht
    simp [hd]
  · rintro ⟨hd, hk⟩
    refine Nat.le_of_not_lt fun hnk => hn.2 ?_
    obtain ⟨d, hd⟩ := Option.ne_none_iff_exists'.mp (hd n hnk)
    have hnext : offset terms check origin (n + 1) =
        offset terms check origin n + d + min terms.interval longestSleep := by
      have hd : (check (n + 1) (origin + offset terms check origin n)).delay = some d := hd
      simp [offset, Instant.wake, hd]
    have hle : offset terms check origin (n + 1) ≤ offset terms check origin k :=
      offset_le_of_le hnk
    exact ⟨_, finish?_eq_some.mpr ⟨d, hd, rfl, by omega⟩, by omega⟩

theorem conclude_eq (attempt : Nat) (now : Instant) (answer : Except Failure (Outcome α)) :
    conclude terms origin attempt now answer =
      match verdict? terms.stopOnFailure attempt answer with
      | some e => .ended e
      | none => pause terms origin attempt now := by
  cases answer with
  | error f => cases h : terms.stopOnFailure <;> simp [conclude, verdict?, h]
  | ok outcome => cases outcome <;> rfl

theorem pause_eq (attempt : Nat) (h : t + terms.interval < spanLimit) :
    (pause terms origin attempt (origin + t) : Next α) =
      if t + terms.interval ≤ terms.deadline then
        .again (origin + (t + min terms.interval longestSleep))
      else .ended (.failed (.timeout attempt (.ofMillis t))) := by
  have helapsed : origin + t - origin = t := Nat.add_sub_cancel_left origin t
  have hspan : ¬ spanLimit ≤ t + terms.interval := Nat.not_le.mpr h
  by_cases hle : t + terms.interval ≤ terms.deadline
  · simp [pause, helapsed, hspan, hle, Nat.not_lt.mpr hle, Instant.wake, Nat.add_assoc]
  · simp [pause, helapsed, hspan, hle, Nat.not_le.mp hle]

theorem settle_of_some (h : finish? terms check origin i = some t) :
    settle terms check origin (i + 1) (origin + offset terms check origin i) =
      (origin + t,
        conclude terms origin (i + 1) (origin + t) (reply terms check origin i).answer) := by
  obtain ⟨d, hd, rfl, ht⟩ := finish?_eq_some.mp h
  simp only [reply] at hd
  have hle : origin + (offset terms check origin i + d) ≤ origin + terms.deadline :=
    Nat.add_le_add_left ht origin
  simp [settle, hd, reply, Nat.add_assoc, hle]

theorem settle_of_none (h : finish? terms check origin i = none) :
    settle terms check origin (i + 1) (origin + offset terms check origin i) =
      (origin + terms.deadline,
        .ended (.failed (.timeout (i + 1) (.ofMillis terms.deadline)))) := by
  cases hd : (reply terms check origin i).delay with
  | none =>
    simp only [reply] at hd
    simp [settle, hd]
  | some d =>
    have hlate : terms.deadline < offset terms check origin i + d := by
      simpa [finish?, hd] using h
    simp only [reply] at hd
    have hnot : ¬ origin + (offset terms check origin i + d) ≤ origin + terms.deadline :=
      Nat.not_le.mpr (Nat.add_lt_add_left hlate origin)
    simp [settle, hd, Nat.add_assoc, hnot]

theorem resume_ended (left : Nat) (begun : List Instant)
    (hs : offset terms check origin i ≤ terms.deadline) (ht : t ≤ terms.deadline)
    (he : settle terms check origin (i + 1) (origin + offset terms check origin i) =
      (origin + t, .ended e)) :
    resume terms check origin (origin + terms.deadline) (left + 1) (i + 1)
      (origin + offset terms check origin i) begun =
        ⟨((origin + offset terms check origin i) :: begun).reverse, some (origin + t, e)⟩ := by
  have hstart : ¬ origin + terms.deadline < origin + offset terms check origin i :=
    Nat.not_lt.mpr (Nat.add_le_add_left hs origin)
  have hfinish : ¬ origin + terms.deadline < origin + t :=
    Nat.not_lt.mpr (Nat.add_le_add_left ht origin)
  rw [resume, if_neg hstart, he]
  simp only [if_neg hfinish]

theorem resume_again (left : Nat) (begun : List Instant)
    (hspan : terms.deadline < spanLimit) (hgo : GoesOn terms check origin i)
    (hf : final? terms check origin i = none) :
    resume terms check origin (origin + terms.deadline) (left + 1) (i + 1)
      (origin + offset terms check origin i) begun =
        resume terms check origin (origin + terms.deadline) left (i + 1 + 1)
          (origin + offset terms check origin (i + 1))
          ((origin + offset terms check origin i) :: begun) := by
  obtain ⟨t, ht, hle⟩ := hgo
  obtain ⟨d, _, htd, hby⟩ := finish?_eq_some.mp ht
  have hnext : settle terms check origin (i + 1) (origin + offset terms check origin i) =
      (origin + t, .again (origin + offset terms check origin (i + 1))) := by
    rw [final?] at hf
    rw [settle_of_some ht, conclude_eq, hf, offset_succ ht]
    simp only [pause_eq (i + 1) (show t + terms.interval < spanLimit by omega), if_pos hle]
  have hstart : ¬ origin + terms.deadline < origin + offset terms check origin i :=
    Nat.not_lt.mpr (Nat.add_le_add_left (by omega) origin)
  have hfinish : ¬ origin + terms.deadline < origin + t :=
    Nat.not_lt.mpr (Nat.add_le_add_left hby origin)
  rw [resume, if_neg hstart, hnext]
  simp only [if_neg hfinish]

/-- A poll that has not ended is about to start its next attempt. -/
theorem run_eq_resume (hclock : clock + origin + terms.deadline < clockLimit)
    (hi : i + 1 < attemptLimit)
    (hgo : ∀ j < i, GoesOn terms check origin j)
    (hf : ∀ j < i, final? terms check origin j = none) :
    run clock terms check origin =
      resume terms check origin (origin + terms.deadline) (attemptLimit - 1 - i) (i + 1)
        (origin + offset terms check origin i) (starts terms check origin i).reverse := by
  induction i with
  | zero =>
    have horigin : ¬ origin + terms.deadline < origin :=
      Nat.not_lt.mpr (Nat.le_add_right origin terms.deadline)
    rw [run, watch, if_neg horigin, if_neg (Nat.not_le.mpr hclock)]
    rfl
  | succ i ih =>
    have hspan : terms.deadline < spanLimit := by
      have hwide : clockLimit ≤ spanLimit := by decide
      omega
    have hleft : attemptLimit - 1 - i = (attemptLimit - 1 - (i + 1)) + 1 := by omega
    have hrun := ih (by omega) (fun j hj => hgo j (by omega)) (fun j hj => hf j (by omega))
    rw [hrun, hleft, resume_again _ _ hspan (hgo i (by omega)) (hf i (by omega)), starts_succ]
    simp

/-- A poll whose next attempt ends it. -/
theorem run_of_settle (hclock : clock + origin + terms.deadline < clockLimit)
    (hi : i + 1 < attemptLimit)
    (hgo : ∀ j < i, GoesOn terms check origin j)
    (hf : ∀ j < i, final? terms check origin j = none) (ht : t ≤ terms.deadline)
    (he : settle terms check origin (i + 1) (origin + offset terms check origin i) =
      (origin + t, .ended e)) :
    run clock terms check origin =
      ⟨starts terms check origin (i + 1), some (origin + t, e)⟩ := by
  have hleft : attemptLimit - 1 - i = (attemptLimit - 1 - (i + 1)) + 1 := by omega
  rw [run_eq_resume hclock hi hgo hf, hleft, resume_ended _ _ (offset_le hgo) ht he,
    starts_succ]
  simp

/-- As long as no check decides, the checks before the last have no final answer. -/
theorem final?_of_undecided (hn : Last terms check origin n)
    (h : ∀ k ≤ n, ∀ t e, ¬ Decides terms check origin k t e) (hi : i ≤ n) :
    ∀ j < i, final? terms check origin j = none := by
  induction i with
  | zero => exact fun j hj => absurd hj (Nat.not_lt_zero j)
  | succ i ih =>
    have hfirst := ih (Nat.le_of_succ_le hi)
    intro j hj
    rcases Nat.lt_succ_iff_lt_or_eq.mp hj with hj | rfl
    · exact hfirst j hj
    · cases hf : final? terms check origin j with
      | none => rfl
      | some e =>
        obtain ⟨t, ht, _⟩ := hn.1 j hi
        exact absurd ⟨hfirst, hf, ht⟩ (h j (Nat.le_of_succ_le hi) t e)

theorem run_of_decides (hclock : clock + origin + terms.deadline < clockLimit)
    (hn : Last terms check origin n) (hk : k ≤ n) (hcount : k + 1 < attemptLimit)
    (h : Decides terms check origin k t e) :
    run clock terms check origin =
      ⟨starts terms check origin (k + 1), some (origin + t, e)⟩ := by
  obtain ⟨d, _, _, ht⟩ := finish?_eq_some.mp h.ends
  refine run_of_settle hclock hcount (fun j hj => hn.1 j (by omega)) h.first ht ?_
  have hf := h.final
  rw [final?] at hf
  rw [settle_of_some h.ends, conclude_eq, hf]

theorem run_of_undecided (hclock : clock + origin + terms.deadline < clockLimit)
    (hn : Last terms check origin n) (hcount : n + 1 < attemptLimit)
    (hspan : ∀ t, finish? terms check origin n = some t → t + terms.interval < spanLimit)
    (h : ∀ k ≤ n, ∀ t e, ¬ Decides terms check origin k t e) :
    run clock terms check origin =
      ⟨starts terms check origin (n + 1),
        some (origin + finish terms check origin n,
          .failed (.timeout (n + 1) (.ofMillis (finish terms check origin n))))⟩ := by
  have hfirst := final?_of_undecided hn h (Nat.le_refl n)
  cases ht : finish? terms check origin n with
  | none =>
    rw [finish_of_none ht]
    exact run_of_settle hclock hcount hn.1 hfirst (Nat.le_refl _) (settle_of_none ht)
  | some t =>
    obtain ⟨d, _, _, hby⟩ := finish?_eq_some.mp ht
    have hf : final? terms check origin n = none := by
      cases hf : final? terms check origin n with
      | none => rfl
      | some e => exact absurd ⟨hfirst, hf, ht⟩ (h n (Nat.le_refl n) t e)
    have hover : ¬ t + terms.interval ≤ terms.deadline := fun hle => hn.2 ⟨t, ht, hle⟩
    rw [finish_of_some ht]
    refine run_of_settle hclock hcount hn.1 hfirst hby ?_
    rw [final?] at hf
    rw [settle_of_some ht, conclude_eq, hf]
    simp only [pause_eq (n + 1) (hspan t ht), if_neg hover]

/-- A poll has a last attempt that may start. The first check with a final answer, when it starts
no later than that and ends by the deadline, ends the poll with its answer. Otherwise the poll
times out at the end of the last check, or at the deadline. While no sleep is cut, the attempts
that may start are those that start by the deadline. -/
theorem run_closed_form (hi : 1 ≤ terms.interval)
    (hclock : clock + origin + terms.deadline < clockLimit) :
    (∃ n, Last terms check origin n) ∧
    ∀ n, Last terms check origin n →
      (∀ k ≤ n, k + 1 < attemptLimit → ∀ t e, Decides terms check origin k t e →
        run clock terms check origin =
          ⟨starts terms check origin (k + 1), some (origin + t, e)⟩) ∧
      (n + 1 < attemptLimit →
        (∀ t, finish? terms check origin n = some t → t + terms.interval < spanLimit) →
        (∀ k ≤ n, ∀ t e, ¬ Decides terms check origin k t e) →
        run clock terms check origin =
          ⟨starts terms check origin (n + 1),
            some (origin + finish terms check origin n,
              .failed (.timeout (n + 1) (.ofMillis (finish terms check origin n))))⟩) ∧
      (terms.interval ≤ longestSleep → ∀ k, k ≤ n ↔
        (∀ j < k, (reply terms check origin j).delay ≠ none) ∧
          offset terms check origin k ≤ terms.deadline) := by
  refine ⟨exists_last hi, fun n hn => ⟨?_, ?_, fun h k => le_last_iff h hn⟩⟩
  · intro k hk hcount t e h
    exact run_of_decides hclock hn hk hcount h
  · intro hcount hspan h
    exact run_of_undecided hclock hn hcount hspan h

def secondTry : Check Nat := fun attempt _ =>
  ⟨some 0, .ok (if attempt = 1 then .goOn else .finished 1)⟩

theorem run_closed_form_second :
    run 0 ⟨10, 10, true⟩ secondTry 5 = ⟨[5, 15], some (15, .done 1)⟩ ∧
      run 0 ⟨10, 9, true⟩ secondTry 5 =
        ⟨[5], some (5, .failed (.timeout 1 (.ofMillis 0)))⟩ := by
  constructor
  · have hn : Last ⟨10, 10, true⟩ secondTry 5 1 := by decide
    have hd : Decides ⟨10, 10, true⟩ secondTry 5 1 10 (.done 1) := ⟨by decide, rfl, rfl⟩
    have h := @run_closed_form Nat ⟨10, 10, true⟩ secondTry 5 0 (by decide) (by decide)
    exact (h.2 1 hn).1 1 (Nat.le_refl 1) (by decide) 10 (.done 1) hd
  · have hn : Last ⟨10, 9, true⟩ secondTry 5 0 := by decide
    have h := @run_closed_form Nat ⟨10, 9, true⟩ secondTry 5 0 (by decide) (by decide)
    refine (h.2 0 hn).2.1 (by decide) ?_ ?_
    · intro t ht
      cases ht
      decide
    · intro k hk t e hd
      cases Nat.le_zero.mp hk
      cases hd.final

/-- The sleep before the second attempt is cut: it is not as long as the interval. -/
theorem run_of_cut_sleep :
    run 0 ⟨longestSleep + 1, 3 * longestSleep, true⟩ secondTry 0 =
        ⟨[0, longestSleep], some (longestSleep, .done 1)⟩ ∧
      run 0 ⟨longestSleep + 1, 3 * longestSleep, true⟩ secondTry 0 ≠
        ⟨[0, longestSleep + 1], some (longestSleep + 1, .done 1)⟩ := by
  have hrun : run 0 ⟨longestSleep + 1, 3 * longestSleep, true⟩ secondTry 0 =
      ⟨[0, longestSleep], some (longestSleep, .done 1)⟩ := rfl
  refine ⟨hrun, ?_⟩
  rw [hrun]
  simp

end ClusterControl.Poll
