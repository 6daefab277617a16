/-!
# Binary floating point in exact arithmetic

A finite double is a sign, a mantissa below `2 ^ 53` and a power of two. Sums, products and
quotients are computed exactly on natural numbers and rounded once, a half going to the even
neighbour.
-/

namespace ClusterControl

/-- A finite double: `mantissa * 2 ^ exponent`, negated when `negative` is set. -/
structure Binary64 where
  negative : Bool
  mantissa : Nat
  exponent : Int
deriving DecidableEq, Repr

namespace Binary64

def minExponent : Int := -1074

def maxExponent : Int := 971

def zero : Binary64 := ⟨false, 0, minExponent⟩

def neg (x : Binary64) : Binary64 := { x with negative := !x.negative }

def isZero (x : Binary64) : Bool := x.mantissa == 0

/-- The quotient `num / den` rounded to a whole number, a half going to the even neighbour. -/
def roundHalfEven (num den : Nat) : Nat :=
  let q := num / den
  let r := num % den
  if 2 * r < den then q
  else if den < 2 * r then q + 1
  else if q % 2 = 0 then q else q + 1

/-- The quotient `num / den` in units of `2 ^ exponent`, rounded. -/
def scaled (num den : Nat) (exponent : Int) : Nat :=
  if exponent < 0 then roundHalfEven (num * Nat.pow 2 (-exponent).toNat) den
  else roundHalfEven num (den * Nat.pow 2 exponent.toNat)

/-- The unit in the last place of the double nearest to `num / den`, for positive `num`. -/
def unitExponent (num den : Nat) : Int :=
  let guess : Int := (num.log2 : Int) - (den.log2 : Int) - 52
  let below := if guess < 0 then num * Nat.pow 2 (-guess).toNat < den * Nat.pow 2 52
    else num < den * Nat.pow 2 52 * Nat.pow 2 guess.toNat
  max minExponent (if below then guess - 1 else guess)

/-- The double nearest to `num / den`; nothing when that is beyond the largest double. -/
def ofRatio? (num den : Nat) : Option Binary64 :=
  if num = 0 then some zero
  else
    let e := unitExponent num den
    let m := scaled num den e
    let (m, e) := if m = Nat.pow 2 53 then (Nat.pow 2 52, e + 1) else (m, e)
    if e > maxExponent then none else some ⟨false, m, e⟩

def ratio (x : Binary64) : Nat × Nat :=
  if x.exponent < 0 then (x.mantissa, Nat.pow 2 (-x.exponent).toNat)
  else (x.mantissa * Nat.pow 2 x.exponent.toNat, 1)

def ofNat? (n : Nat) : Option Binary64 := ofRatio? n 1

private def withSign (negative : Bool) (x : Option Binary64) : Option Binary64 :=
  x.map fun y => { y with negative }

def mul? (x y : Binary64) : Option Binary64 :=
  let (a, b) := x.ratio
  let (c, d) := y.ratio
  withSign (x.negative != y.negative) (ofRatio? (a * c) (b * d))

/-- The quotient of two doubles; the divisor is not zero. -/
def div? (x y : Binary64) : Option Binary64 :=
  let (a, b) := x.ratio
  let (c, d) := y.ratio
  withSign (x.negative != y.negative) (ofRatio? (a * d) (b * c))

/-- The sum of two doubles that are not negative. -/
def addNonneg? (x y : Binary64) : Option Binary64 :=
  let (a, b) := x.ratio
  let (c, d) := y.ratio
  ofRatio? (a * d + c * b) (b * d)

end Binary64

end ClusterControl
