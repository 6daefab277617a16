import ClusterControl.Number.Shortest

/-!
# Durations

A duration is a count of whole seconds in 64 bits and a rest in nanoseconds. It has two texts:
with a unit, exact and without trailing zeros, and as a count of seconds in floating point.
-/

namespace ClusterControl

def wordLimit : Nat := Nat.pow 2 64

structure Duration where
  secs : Nat
  nanos : Nat
  secs_lt : secs < wordLimit := by decide
  nanos_lt : nanos < 1000000000 := by decide
deriving DecidableEq, Repr

namespace Duration

/-- Seconds and nanoseconds with the whole seconds of the nanoseconds carried over; nothing when
the seconds then leave 64 bits. -/
def normalize? (secs nanos : Nat) : Option Duration :=
  if h : secs + nanos / 1000000000 < wordLimit then
    some ⟨secs + nanos / 1000000000, nanos % 1000000000, h, Nat.mod_lt _ (by decide)⟩
  else none

/-- The largest duration of whole seconds bounds `n` from above. -/
def ofSecs (n : Nat) : Duration :=
  if h : n < wordLimit then ⟨n, 0, h, by decide⟩ else ⟨wordLimit - 1, 0, by decide, by decide⟩

/-- A span of virtual time, cut at the longest duration of whole seconds. -/
def ofMillis (ms : Nat) : Duration :=
  if h : ms / 1000 < wordLimit then
    ⟨ms / 1000, ms % 1000 * 1000000, h, by omega⟩
  else ofSecs (ms / 1000)

def toMillis (d : Duration) : Nat := d.secs * 1000 + d.nanos / 1000000

def toNanos (d : Duration) : Nat := d.secs * 1000000000 + d.nanos

/-- The first whole millisecond at which a duration is over. -/
def ceilMillis (d : Duration) : Nat := d.secs * 1000 + (999999 + d.nanos) / 1000000

theorem ceilMillis_le_iff {d : Duration} {ms : Nat} :
    d.ceilMillis ≤ ms ↔ d.toNanos ≤ ms * 1000000 := by
  unfold ceilMillis toNanos
  omega

/-- A fraction in `width` digits without the zeros at its end. -/
def fractionDigits (width n : Nat) : List Char :=
  let ds := Nat.toDigits 10 n
  let padded := List.replicate (width - ds.length) '0' ++ ds
  (padded.reverse.dropWhile (· == '0')).reverse

def withFraction (whole width rest : Nat) (unit : String) : String :=
  match fractionDigits width rest with
  | [] => toString whole ++ unit
  | ds => toString whole ++ "." ++ String.ofList ds ++ unit

/-- The duration in its largest unit that has a whole count, exactly. -/
def text (d : Duration) : String :=
  if d.secs > 0 then withFraction d.secs 9 d.nanos "s"
  else if d.nanos ≥ 1000000 then withFraction (d.nanos / 1000000) 6 (d.nanos % 1000000) "ms"
  else if d.nanos ≥ 1000 then withFraction (d.nanos / 1000) 3 (d.nanos % 1000) "µs"
  else withFraction d.nanos 0 0 "ns"

/-- The seconds in floating point: the whole seconds and the fraction are rounded one by one
before their sum. -/
def secsFloat (d : Duration) : Option Binary64 := do
  let whole ← Binary64.ofNat? d.secs
  let nanos ← Binary64.ofNat? d.nanos
  let billion ← Binary64.ofNat? 1000000000
  whole.addNonneg? (← nanos.div? billion)

/-- The shortest decimal of the seconds, without an exponent. -/
def secsText (d : Duration) : String :=
  match d.secsFloat with
  | some x => x.plainText
  | none => ""

end Duration

end ClusterControl
