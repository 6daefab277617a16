import ClusterControl.Json.Basic
import ClusterControl.Json.Syntax
import ClusterControl.Duration

/-!
# Reading JSON syntax as values

A decoder gets the number of levels of nesting that it may still open. Whole numbers of 64 bits
stay whole, and any other number becomes a double from at most 64 bits of leading digits. An
object's last member of a name wins.
-/

namespace ClusterControl.Json

/-- A reading of a syntax tree, given the levels of nesting that are left. -/
abbrev Decoder (α : Type) := Nat → Syntax → Option α

/-- The levels of nesting that a text may have. -/
def maxLevels : Nat := 127

def Decoder.read? {α : Type} (decode : Decoder α) (text : String) : Option α := do
  decode maxLevels (← Syntax.read? text.toList)

def isHighSurrogate (n : Nat) : Bool := 0xd800 ≤ n && n ≤ 0xdbff

def isLowSurrogate (n : Nat) : Bool := 0xdc00 ≤ n && n ≤ 0xdfff

/-- The characters of a written text; nothing when it holds half a surrogate pair. -/
def Piece.chars? : List Piece → Option (List Char)
  | [] => some []
  | .char c :: rest => (chars? rest).map (c :: ·)
  | .unit h :: .unit l :: rest =>
    if isHighSurrogate h then
      if isLowSurrogate l then
        (chars? rest).map (Char.ofNat (0x10000 + (h - 0xd800) * 0x400 + (l - 0xdc00)) :: ·)
      else none
    else if isLowSurrogate h then none
    else (chars? (.unit l :: rest)).map (Char.ofNat h :: ·)
  | .unit h :: rest =>
    if isHighSurrogate h || isLowSurrogate h then none
    else (chars? rest).map (Char.ofNat h :: ·)

def Piece.text? (ps : List Piece) : Option String := (Piece.chars? ps).map String.ofList

namespace Numeral

/-- Digits appended to a number as long as it stays in 64 bits, and the digits that are left. -/
def absorb : Nat → List Nat → Nat × List Nat
  | n, [] => (n, [])
  | n, d :: ds => if n * 10 + d < wordLimit then absorb (n * 10 + d) ds else (n, d :: ds)

/-- A sum of exponents in 32 bits; it stops at the ends of the range. -/
def clampExponent (e : Int) : Int := max (-(Nat.pow 2 31)) (min (Nat.pow 2 31 - 1) e)

/-- The written exponent; nothing when it has more than 31 bits. -/
def exponent? (ds : List Nat) : Option Nat :=
  let next (n d : Nat) : Option Nat := if n * 10 + d < Nat.pow 2 31 then some (n * 10 + d) else none
  ds.foldl (fun acc d => acc.bind (next · d)) (some 0)

/-- A double times a power of ten: one rounded step per 308 places. -/
def scale? : Nat → Binary64 → Int → Option Binary64
  | 0, x, _ => some x
  | fuel + 1, x, e => do
    if e.natAbs ≤ 308 then
      let power ← Binary64.ofNat? (Nat.pow 10 e.natAbs)
      if e ≥ 0 then x.mul? power else x.div? power
    else if x.isZero then some x
    else if e ≥ 0 then none
    else
      let power ← Binary64.ofNat? (Nat.pow 10 308)
      scale? fuel (← x.div? power) (e + 308)

/-- A double from leading digits and an exponent; five steps bring any number of 64 bits to zero. -/
def real? (negative : Bool) (digits : Nat) (e : Int) : Option Number := do
  let x ← scale? 5 (← Binary64.ofNat? digits) e
  some (.real (if negative then x.neg else x))

/-- A whole number: negative ones have 63 bits, and a negative zero is a double. -/
def whole? (negative : Bool) (n : Nat) : Option Number :=
  if !negative then some (.whole n)
  else if 0 < n ∧ n ≤ Nat.pow 2 63 then some (.whole (-n))
  else real? true n 0

/-- The value of a number; nothing when it is too large. -/
def value? (x : Numeral) : Option Number :=
  let (n, dropped) := absorb 0 x.whole
  match dropped, x.fraction, x.exponent with
  | [], none, none => whole? x.negative n
  | _, _, _ =>
    let fraction := x.fraction.getD []
    let (n, ignored) := absorb n fraction
    let e : Int := dropped.length - (fraction.length - ignored.length : Nat)
    match x.exponent with
    | none => real? x.negative n e
    | some (positive, ds) =>
      match exponent? ds with
      | some k => real? x.negative n (clampExponent (if positive then e + k else e - k))
      | none => if n ≠ 0 && positive then none else real? x.negative 0 0

end Numeral

mutual

def ofSyntax? : Nat → Syntax → Option Json
  | _, .null => some .null
  | _, .bool b => some (.bool b)
  | _, .number n => n.value?.map .number
  | _, .text ps => (Piece.text? ps).map .text
  | 0, .list _ => none
  | levels + 1, .list items => (itemsOfSyntax? levels items).map .list
  | 0, .object _ => none
  | levels + 1, .object members =>
    (membersOfSyntax? levels members).map fun ms => .object (Members.ofList ms)

def itemsOfSyntax? : Nat → List Syntax → Option (List Json)
  | _, [] => some []
  | levels, x :: xs => do
    let y ← ofSyntax? levels x
    let ys ← itemsOfSyntax? levels xs
    some (y :: ys)

def membersOfSyntax? : Nat → List (List Piece × Syntax) → Option (List (String × Json))
  | _, [] => some []
  | levels, (name, x) :: xs => do
    let n ← Piece.text? name
    let y ← ofSyntax? levels x
    let ys ← membersOfSyntax? levels xs
    some ((n, y) :: ys)

end

namespace Decoder

def json : Decoder Json := ofSyntax?

def text : Decoder String
  | _, .text ps => Piece.text? ps
  | _, _ => none

def bool : Decoder Bool
  | _, .bool b => some b
  | _, _ => none

def natBelow (limit : Nat) : Decoder Nat
  | _, .number n =>
    match n.value? with
    | some (.whole (.ofNat k)) => if k < limit then some k else none
    | _ => none
  | _, _ => none

def word : Decoder Nat := natBelow wordLimit

def nullable {α : Type} (decode : Decoder α) : Decoder (Option α)
  | _, .null => some none
  | levels, s => (decode levels s).map some

def listOf {α : Type} (decode : Decoder α) : Decoder (List α)
  | levels + 1, .list items => items.mapM (decode levels)
  | _, _ => none

/-- Settings of any names; the last one of a name wins. -/
def members : Decoder Members
  | levels + 1, .object ms => (membersOfSyntax? levels ms).map Members.ofList
  | _, _ => none

/-- One of a set of words: the word as a text, or as the name of a single member that is `null`. -/
def oneOf {α : Type} (ofName? : String → Option α) : Decoder α
  | _, .text ps => (Piece.text? ps).bind ofName?
  | _ + 1, .object [(name, .null)] => (Piece.text? name).bind ofName?
  | _, _ => none

end Decoder

/-- What a record's syntax gives for its fields, in the order of their names. A record in list
form gives the first fields by place. -/
structure Slots where
  byPlace : Bool
  levels : Nat
  values : List (String × Option Syntax)

namespace Slots

/-- Fills the slot of a name; nothing when it is filled already. -/
def fill? (name : String) (s : Syntax) :
    List (String × Option Syntax) → Option (List (String × Option Syntax))
  | [] => some []
  | (n, v) :: rest =>
    if n = name then
      match v with
      | none => some ((n, some s) :: rest)
      | some _ => none
    else (fill? name s rest).map ((n, v) :: ·)

/-- The slots after the members of an object. A name without a slot is passed over, or refused
when `strict` is set. -/
def fillAll? (strict : Bool) (slots : List (String × Option Syntax)) :
    List (List Piece × Syntax) → Option (List (String × Option Syntax))
  | [] => some slots
  | (name, s) :: rest => do
    let n ← Piece.text? name
    if strict && !slots.any (·.1 == n) then none
    else fillAll? strict (← fill? n s slots) rest

/-- The slots after the items of a list; nothing when there are more items than slots. -/
def place? : List String → List Syntax → Option (List (String × Option Syntax))
  | names, [] => some (names.map (·, none))
  | [], _ :: _ => none
  | n :: names, s :: items => (place? names items).map ((n, some s) :: ·)

/-- Opens a record with the given field names, written as an object or as a list. -/
def open? (strict : Bool) (names : List String) : Nat → Syntax → Option Slots
  | levels + 1, .object ms => do
    some ⟨false, levels, ← fillAll? strict (names.map (·, none)) ms⟩
  | levels + 1, .list items => do
    some ⟨true, levels, ← place? names items⟩
  | _, _ => none

def get? (slots : Slots) (name : String) : Option Syntax :=
  match slots.values.find? (·.1 == name) with
  | some (_, v) => v
  | none => none

variable {α : Type}

def required (slots : Slots) (name : String) (decode : Decoder α) : Option α := do
  decode slots.levels (← slots.get? name)

/-- A field with a value for its absence. -/
def withDefault (slots : Slots) (name : String) (default : α) (decode : Decoder α) : Option α :=
  match slots.get? name with
  | some s => decode slots.levels s
  | none => some default

/-- A field that may be `null`, or missing from an object. -/
def optional (slots : Slots) (name : String) (decode : Decoder α) : Option (Option α) :=
  match slots.get? name with
  | some s => Decoder.nullable decode slots.levels s
  | none => if slots.byPlace then none else some none

end Slots

namespace Decoder

/-- A duration as seconds and nanoseconds; whole seconds of nanoseconds are carried. -/
def duration : Decoder Duration := fun levels s => do
  let slots ← Slots.open? true ["secs", "nanos"] levels s
  let secs ← slots.required "secs" word
  let nanos ← slots.required "nanos" (natBelow (Nat.pow 2 32))
  Duration.normalize? secs nanos

end Decoder

def ofDuration (d : Duration) : Json :=
  .object [("nanos", nat d.nanos), ("secs", nat d.secs)]

end ClusterControl.Json
