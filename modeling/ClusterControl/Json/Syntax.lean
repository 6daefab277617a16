import ClusterControl.Text.Hex

/-!
# The syntax of JSON

A syntax tree keeps numbers and texts as they are written. What a value makes of them, and
whether it accepts them at all, is settled by the decoder that reads it: a number too large or
half a surrogate pair is a fault only where the value is used.
-/

namespace ClusterControl.Json

structure Numeral where
  negative : Bool
  whole : List Nat
  fraction : Option (List Nat)
  exponent : Option (Bool × List Nat)
deriving DecidableEq, Repr

/-- A piece of a written text: a character, or a code unit given by four hexadecimal digits. -/
inductive Piece where
  | char (c : Char)
  | unit (n : Nat)
deriving DecidableEq, Repr

inductive Syntax where
  | null
  | bool (value : Bool)
  | number (value : Numeral)
  | text (value : List Piece)
  | list (items : List Syntax)
  | object (members : List (List Piece × Syntax))
deriving Repr, Inhabited

namespace Syntax

def isSpace (c : Char) : Bool := c == ' ' || c == '\n' || c == '\t' || c == '\r'

def skipSpace (cs : List Char) : List Char := cs.dropWhile isSpace

def digit? (c : Char) : Option Nat :=
  if '0' ≤ c ∧ c ≤ '9' then some (c.toNat - 48) else none

def digits : List Char → List Nat × List Char
  | [] => ([], [])
  | c :: cs =>
    match digit? c with
    | some d => let (ds, rest) := digits cs; (d :: ds, rest)
    | none => ([], c :: cs)

/-- The digits of a whole part: a zero stands alone. -/
def wholePart? (cs : List Char) : Option (List Nat × List Char) :=
  match digits cs with
  | ([], _) => none
  | ([d], rest) => some ([d], rest)
  | (0 :: _ :: _, _) => none
  | (ds, rest) => some (ds, rest)

def fractionPart? : List Char → Option (Option (List Nat) × List Char)
  | '.' :: cs =>
    match digits cs with
    | ([], _) => none
    | (ds, rest) => some (some ds, rest)
  | cs => some (none, cs)

/-- The digits of an exponent after its sign; `false` is a negative exponent. -/
def exponentDigits? (positive : Bool) (cs : List Char) :
    Option (Option (Bool × List Nat) × List Char) :=
  match digits cs with
  | ([], _) => none
  | (ds, rest) => some (some (positive, ds), rest)

def exponentPart? : List Char → Option (Option (Bool × List Nat) × List Char)
  | c :: cs =>
    if c = 'e' ∨ c = 'E' then
      match cs with
      | '+' :: r => exponentDigits? true r
      | '-' :: r => exponentDigits? false r
      | r => exponentDigits? true r
    else some (none, c :: cs)
  | [] => some (none, [])

/-- The number after its sign. -/
def numeral? (negative : Bool) (cs : List Char) : Option (Numeral × List Char) := do
  let (whole, cs) ← wholePart? cs
  let (fraction, cs) ← fractionPart? cs
  let (exponent, cs) ← exponentPart? cs
  some (⟨negative, whole, fraction, exponent⟩, cs)

def escape? (c : Char) : Option Char :=
  match c with
  | '"' => some '"'
  | '\\' => some '\\'
  | '/' => some '/'
  | 'b' => some '\x08'
  | 'f' => some '\x0c'
  | 'n' => some '\n'
  | 'r' => some '\r'
  | 't' => some '\t'
  | _ => none

/-- The pieces up to the closing quote and the rest after it. -/
def pieces? : List Char → Option (List Piece × List Char)
  | [] => none
  | '"' :: rest => some ([], rest)
  | '\\' :: 'u' :: a :: b :: c :: d :: rest => do
    let w ← Text.hexValue? a
    let x ← Text.hexValue? b
    let y ← Text.hexValue? c
    let z ← Text.hexValue? d
    let (ps, rest) ← pieces? rest
    some (.unit (((w * 16 + x) * 16 + y) * 16 + z) :: ps, rest)
  | '\\' :: e :: rest => do
    let c ← escape? e
    let (ps, rest) ← pieces? rest
    some (.char c :: ps, rest)
  | c :: rest =>
    if c.toNat < 0x20 ∨ c = '\\' then none
    else do
      let (ps, rest) ← pieces? rest
      some (.char c :: ps, rest)

mutual

/-- The value at the front and the rest. The first argument bounds the number of tokens. -/
def value? : Nat → List Char → Option (Syntax × List Char)
  | 0, _ => none
  | fuel + 1, cs =>
    match skipSpace cs with
    | 'n' :: 'u' :: 'l' :: 'l' :: rest => some (.null, rest)
    | 't' :: 'r' :: 'u' :: 'e' :: rest => some (.bool true, rest)
    | 'f' :: 'a' :: 'l' :: 's' :: 'e' :: rest => some (.bool false, rest)
    | '"' :: rest => (pieces? rest).map fun (ps, rest) => (.text ps, rest)
    | '[' :: rest =>
      match skipSpace rest with
      | ']' :: rest => some (.list [], rest)
      | rest => (items? fuel rest).map fun (xs, rest) => (.list xs, rest)
    | '\x7b' :: rest =>
      match skipSpace rest with
      | '\x7d' :: rest => some (.object [], rest)
      | rest => (members? fuel rest).map fun (ms, rest) => (.object ms, rest)
    | '-' :: rest => (numeral? true rest).map fun (n, rest) => (.number n, rest)
    | rest => (numeral? false rest).map fun (n, rest) => (.number n, rest)

/-- The items up to the closing bracket, at least one. -/
def items? : Nat → List Char → Option (List Syntax × List Char)
  | 0, _ => none
  | fuel + 1, cs => do
    let (x, rest) ← value? fuel cs
    match skipSpace rest with
    | ']' :: rest => some ([x], rest)
    | ',' :: rest =>
      let (xs, rest) ← items? fuel rest
      some (x :: xs, rest)
    | _ => none

/-- The members up to the closing brace, at least one. -/
def members? : Nat → List Char → Option (List (List Piece × Syntax) × List Char)
  | 0, _ => none
  | fuel + 1, cs =>
    match skipSpace cs with
    | '"' :: rest => do
      let (name, rest) ← pieces? rest
      match skipSpace rest with
      | ':' :: rest =>
        let (x, rest) ← value? fuel rest
        match skipSpace rest with
        | '\x7d' :: rest => some ([(name, x)], rest)
        | ',' :: rest =>
          let (ms, rest) ← members? fuel rest
          some ((name, x) :: ms, rest)
        | _ => none
      | _ => none
    | _ => none

end

/-- The tree of a whole text, blanks around the value allowed. Each token takes a character and
two steps at most, which bounds the search. -/
def read? (cs : List Char) : Option Syntax :=
  match value? (2 * cs.length + 1) cs with
  | some (s, rest) => if (skipSpace rest).isEmpty then some s else none
  | none => none

end Syntax

end ClusterControl.Json
