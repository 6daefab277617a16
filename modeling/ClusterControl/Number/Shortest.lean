import ClusterControl.Number.Binary64

/-!
# The shortest decimal of a double

Every real between the midpoints to a double's two neighbours reads back as that double, the
midpoints included when its mantissa is even. The shortest decimal is the first grid of
`1, 2, … 17` significant digits that has a point in this interval; of two points the nearer. A text
says which of two equally near points it takes.
-/

namespace ClusterControl

/-- A decimal `digits * 10 ^ exponent`. -/
structure Decimal where
  digits : Nat
  exponent : Int
deriving DecidableEq, Repr

/-- Which of two equally near decimals is taken: the larger, or the one with the even last digit. -/
inductive Tie where
  | up
  | even
deriving DecidableEq, Repr

namespace Binary64

/-- The interval that reads back as a positive double, in quarters of its unit:
lower end, value and upper end. The lower neighbour of a power of two is half as far. -/
def interval (x : Binary64) : Nat × Nat × Nat :=
  let v := 4 * x.mantissa
  let low := if x.mantissa = Nat.pow 2 52 ∧ x.exponent > minExponent then v - 1 else v - 2
  (low, v, v + 2)

/-- The comparison of `a * 2 ^ e / 4` with `d * 10 ^ k`. -/
def compareGrid (a : Nat) (e : Int) (d : Nat) (k : Int) : Ordering :=
  let left := a * (if e ≥ 0 then Nat.pow 2 e.toNat else 1) *
    (if k < 0 then Nat.pow 10 (-k).toNat else 1)
  let right := 4 * d * (if e < 0 then Nat.pow 2 (-e).toNat else 1) *
    (if k ≥ 0 then Nat.pow 10 k.toNat else 1)
  compare left right

/-- The whole number of steps `10 ^ k` below `a * 2 ^ e / 4`. -/
def gridFloor (a : Nat) (e : Int) (k : Int) : Nat :=
  let num := a * (if e ≥ 0 then Nat.pow 2 e.toNat else 1) *
    (if k < 0 then Nat.pow 10 (-k).toNat else 1)
  let den := 4 * (if e < 0 then Nat.pow 2 (-e).toNat else 1) *
    (if k ≥ 0 then Nat.pow 10 k.toNat else 1)
  num / den

/-- Whether `d * 10 ^ k` reads back as the double. -/
def readsBack (x : Binary64) (d : Nat) (k : Int) : Bool :=
  let (low, _, high) := x.interval
  let even := x.mantissa % 2 = 0
  let above := match compareGrid low x.exponent d k with
    | .lt => true
    | .eq => even
    | .gt => false
  let below := match compareGrid high x.exponent d k with
    | .gt => true
    | .eq => even
    | .lt => false
  above && below

/-- Whether the lower of the two grid points next to the double is the one to take. -/
def takesLower (tie : Tie) (x : Binary64) (d : Nat) (k : Int) : Bool :=
  let (_, v, _) := x.interval
  match compareGrid (2 * v) x.exponent (2 * d + 1) k with
  | .lt => true
  | .eq =>
    match tie with
    | .up => false
    | .even => d % 2 == 0
  | .gt => false

/-- The point of the grid `10 ^ k` that reads back as the double and is nearest to it. -/
def onGrid? (tie : Tie) (x : Binary64) (k : Int) : Option Decimal :=
  let (_, v, _) := x.interval
  let d := gridFloor v x.exponent k
  match x.readsBack d k, x.readsBack (d + 1) k with
  | true, true => some ⟨if x.takesLower tie d k then d else d + 1, k⟩
  | true, false => some ⟨d, k⟩
  | false, true => some ⟨d + 1, k⟩
  | false, false => none

def digitCount (n : Nat) : Nat := (Nat.toDigits 10 n).length

/-- The power of ten of the leading digit of a positive double. -/
def leadingPower (x : Binary64) : Int :=
  let (num, den) := x.ratio
  if den ≤ num then (digitCount (num / den) : Int) - 1
  else
    let q := den / num
    let k : Int := digitCount q
    if den = num * Nat.pow 10 (k - 1).toNat then -(k - 1) else -k

/-- The first grid with a point, from the coarsest on. -/
def searchGrid (tie : Tie) (x : Binary64) (top : Int) : Nat → Nat → Decimal
  | 0, _ => ⟨gridFloor (4 * x.mantissa) x.exponent (top - 16), top - 16⟩
  | fuel + 1, n =>
    match x.onGrid? tie (top - n) with
    | some d => d
    | none => searchGrid tie x top fuel (n + 1)

/-- Trailing zeros moved into the exponent. -/
def trimZeros : Nat → Decimal → Decimal
  | 0, d => d
  | fuel + 1, d =>
    if d.digits ≠ 0 ∧ d.digits % 10 = 0 then trimZeros fuel ⟨d.digits / 10, d.exponent + 1⟩ else d

/-- The shortest decimal that reads back as the magnitude of the double. -/
def shortest (tie : Tie) (x : Binary64) : Decimal :=
  if x.isZero then ⟨0, 0⟩
  else trimZeros 400 (x.searchGrid tie x.leadingPower 18 0)

/-- The digits of a decimal without exponent, a point only before a fraction. -/
def positional (d : Decimal) : String :=
  let ds := Nat.toDigits 10 d.digits
  if d.exponent ≥ 0 then String.ofList (ds ++ List.replicate d.exponent.toNat '0')
  else
    let places := (-d.exponent).toNat
    let padded := List.replicate (places + 1 - ds.length) '0' ++ ds
    let whole := padded.take (padded.length - places)
    String.ofList (whole ++ '.' :: padded.drop (padded.length - places))

/-- The shortest text of a double without an exponent. Ties go up. -/
def plainText (x : Binary64) : String :=
  (if x.negative then "-" else "") ++ positional (x.shortest .up)

/-- The shortest text of a double, with an exponent outside `10 ^ -5 … 10 ^ 16`. Ties go to the
even digit. -/
def compactText (x : Binary64) : String :=
  let d := x.shortest .even
  let ds := Nat.toDigits 10 d.digits
  let point : Int := d.exponent + ds.length
  let body :=
    if x.isZero then "0.0"
    else if 0 ≤ d.exponent ∧ point ≤ 16 then positional d ++ ".0"
    else if -5 < point ∧ point ≤ 16 then positional d
    else
      let e := toString (point - 1)
      match ds with
      | [c] => String.ofList [c] ++ "e" ++ e
      | c :: cs => String.ofList (c :: '.' :: cs) ++ "e" ++ e
      | [] => ""
  (if x.negative then "-" else "") ++ body

end Binary64

end ClusterControl
