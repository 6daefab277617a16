import ClusterControl.Text.Hex
import ClusterControl.Yaml.Cursor

/-!
# Scalars of YAML

Five ways to write a text: plain, in single or double quotes, and as a literal or folded block. Line
breaks inside a text are folded: a single break becomes a space, of more breaks the first is left
out. Every scan gives the text and the cursor behind it, or nothing when the text is malformed. The
number that each loop takes bounds the characters that are left.
-/

namespace ClusterControl.Yaml

/-- Blanks and breaks between two parts of a text. Blanks beside a break do not count. -/
structure Gap where
  blanks : List Char := []
  first : List Char := []
  more : List Char := []
  broken : Bool := false

namespace Gap

def text (g : Gap) : List Char :=
  if g.broken then
    match g.first with
    | '\n' :: _ => if g.more.isEmpty then [' '] else g.more
    | first => first ++ g.more
  else g.blanks

/-- Reads a gap. On a fresh line no tab may stand before the given column. -/
def scan? (floor : Int) : Nat → Gap → Cursor → Option (Gap × Cursor)
  | 0, _, _ => none
  | fuel + 1, g, c =>
    match c.rest with
    | [] => some (g, c)
    | d :: _ =>
      if isBlank d then
        if g.broken && d == '\t' && decide ((c.column : Int) < floor) then none
        else
          scan? floor fuel (if g.broken then g else { g with blanks := g.blanks ++ [d] })
            (c.advance 1)
      else if isBreak d then
        let (b, c) := c.takeBreak
        scan? floor fuel
          (if g.broken then { g with more := g.more ++ b } else ⟨[], b, [], true⟩) c
      else some (g, c)

end Gap

namespace Quoted

def hexNumber? (cs : List Char) : Option Nat :=
  cs.foldl (fun n c => do some ((← n) * 16 + (← Text.hexValue? c))) (some 0)

/-- The character of a code; there is none for half a surrogate pair. -/
def charOfCode? (n : Nat) : Option Char :=
  if (0xd800 ≤ n ∧ n ≤ 0xdfff) ∨ 0x10ffff < n then none else some (Char.ofNat n)

def escape? : Char → Option Char
  | '0' => some '\x00'
  | 'a' => some '\x07'
  | 'b' => some '\x08'
  | 't' => some '\t'
  | '\t' => some '\t'
  | 'n' => some '\n'
  | 'v' => some '\x0b'
  | 'f' => some '\x0c'
  | 'r' => some '\r'
  | 'e' => some '\x1b'
  | ' ' => some ' '
  | '"' => some '"'
  | '/' => some '/'
  | '\\' => some '\\'
  | 'N' => some '\u0085'
  | '_' => some '\u00a0'
  | 'L' => some '\u2028'
  | 'P' => some '\u2029'
  | _ => none

/-- The number of hexadecimal digits after a letter behind a backslash. -/
def codeLength? : Char → Option Nat
  | 'x' => some 2
  | 'u' => some 4
  | 'U' => some 8
  | _ => none

/-- The character of an escape whose backslash is passed, and the cursor behind it. -/
def scanEscape? (c : Cursor) : Option (Char × Cursor) := do
  let letter ← c.rest.head?
  let c := c.advance 1
  match codeLength? letter with
  | some n =>
    let digits := c.rest.take n
    if digits.length < n then none
    else
      let d ← charOfCode? (← hexNumber? digits)
      some (d, c.advance n)
  | none =>
    let d ← escape? letter
    some (d, c)

/-- The text up to the closing quote. The part that was read is kept in reverse. -/
def scan? (quote : Char) : Nat → List Char → Cursor → Option (List Char × Cursor)
  | 0, _, _ => none
  | fuel + 1, read, c =>
    if c.atDocumentIndicator then none
    else
      match c.rest with
      | [] => none
      | d :: rest =>
        if d == quote then
          if quote == '\'' && rest.head? == some '\'' then
            scan? quote fuel ('\'' :: read) (c.advance 2)
          else some (read.reverse, c.advance 1)
        else if d == '\\' && quote == '"' then
          if (c.advance 1).sees isBreak then do
            let next := (c.advance 1).takeBreak.2
            let (g, c) ← Gap.scan? 0 (c.rest.length + 1) { broken := true } next
            scan? quote fuel (g.text.reverse ++ read) c
          else do
            let (e, c) ← scanEscape? (c.advance 1)
            scan? quote fuel (e :: read) c
        else if isBlank d || isBreak d then do
          let (g, c) ← Gap.scan? 0 (c.rest.length + 1) {} c
          scan? quote fuel (g.text.reverse ++ read) c
        else scan? quote fuel (d :: read) (c.advance 1)

end Quoted

namespace Plain

def isFlowIndicator (c : Char) : Bool :=
  c == ',' || c == '[' || c == ']' || c == '\x7b' || c == '\x7d'

/-- The text up to a blank, a break or an indicator that ends it. -/
def scanWord? (inFlow : Bool) : Nat → List Char → Cursor → Option (List Char × Cursor)
  | 0, _, _ => none
  | fuel + 1, read, c =>
    match c.rest with
    | [] => some (read.reverse, c)
    | d :: rest =>
      if isBlank d || isBreak d then some (read.reverse, c)
      else if inFlow && d == ':' && rest.head?.any fun e => isFlowIndicator e || e == '?' then none
      else if (d == ':' && c.endsAfter 1) || (inFlow && isFlowIndicator d) then
        some (read.reverse, c)
      else scanWord? inFlow fuel (d :: read) (c.advance 1)

/-- The text of a plain scalar, the cursor behind it, and whether a line break was passed at its
end. `floor` is the least column of its further lines outside flow collections. -/
def scan? (inFlow : Bool) (floor : Int) :
    Nat → List Char → Gap → Cursor → Option (List Char × Cursor × Bool)
  | 0, _, _, _ => none
  | fuel + 1, read, gap, c =>
    if c.atDocumentIndicator || c.sees (· == '#') then some (read, c, gap.broken)
    else do
      let (word, next) ← scanWord? inFlow (c.rest.length + 1) [] c
      if word.isEmpty then some (read, next, gap.broken)
      else
        let read := read ++ gap.text ++ word
        if next.sees fun d => isBlank d || isBreak d then
          let (gap, next) ← Gap.scan? floor (next.rest.length + 1) {} next
          if !inFlow && decide ((next.column : Int) < floor) then some (read, next, gap.broken)
          else scan? inFlow floor fuel read gap next
        else some (read, next, false)

end Plain

namespace Block

inductive Chomping where
  | strip
  | clip
  | keep
deriving DecidableEq, Repr

structure Header where
  chomping : Chomping := .clip
  increment : Nat := 0

def chomping? (c : Char) : Option Chomping :=
  if c == '+' then some .keep else if c == '-' then some .strip else none

def increment? (c : Char) : Option Nat :=
  if c.isDigit then some (c.toNat - 48) else none

/-- The indicators after the mark of a block, in either order. -/
def scanHeader? (c : Cursor) : Option (Header × Cursor) :=
  match c.rest with
  | a :: rest =>
    match chomping? a, increment? a with
    | some k, _ =>
      match rest.head?.bind increment? with
      | some 0 => none
      | some n => some (⟨k, n⟩, c.advance 2)
      | none => some (⟨k, 0⟩, c.advance 1)
    | none, some 0 => none
    | none, some n =>
      match rest.head?.bind chomping? with
      | some k => some (⟨k, n⟩, c.advance 2)
      | none => some (⟨.clip, n⟩, c.advance 1)
    | none, none => some ({}, c)
  | [] => some ({}, c)

/-- Passes indentation and empty lines. Without an indentation of its own a block takes all spaces;
the widest line counts. Gives the breaks, the widest indentation and the cursor behind. -/
def scanBreaks? (indent : Nat) : Nat → Nat → List Char → Cursor → Option (List Char × Nat × Cursor)
  | 0, _, _, _ => none
  | fuel + 1, widest, breaks, c =>
    let spaces := (c.rest.takeWhile (· == ' ')).length
    let c := c.advance (if indent = 0 then spaces else min spaces (indent - c.column))
    let widest := max widest c.column
    if (indent = 0 ∨ c.column < indent) ∧ c.sees (· == '\t') then none
    else if c.sees isBreak then
      let (b, c) := c.takeBreak
      scanBreaks? indent fuel widest (breaks ++ b) c
    else some (breaks, widest, c)

/-- A block so far: its text, the break after its last line and the empty lines after that, and
whether the last line starts with a blank. -/
structure Lines where
  text : List Char := []
  lineBreak : List Char := []
  breaks : List Char := []
  blankStart : Bool := false

/-- The text with the break before a further line. -/
def Lines.join (l : Lines) (literal blankStart : Bool) : List Char :=
  let fold := !literal && l.lineBreak.head? == some '\n' && !l.blankStart && !blankStart
  if fold then l.text ++ (if l.breaks.isEmpty then [' '] else []) ++ l.breaks
  else l.text ++ l.lineBreak ++ l.breaks

/-- The lines at an indentation. -/
def scanLines? (literal : Bool) (indent : Nat) : Nat → Lines → Cursor → Option (Lines × Cursor)
  | 0, _, _ => none
  | fuel + 1, l, c =>
    if c.column = indent ∧ !c.atEnd then do
      let blankStart := c.sees isBlank
      let (line, c) := c.takeLine
      let (lineBreak, c) := c.takeBreak
      let (breaks, _, c) ← scanBreaks? indent (c.rest.length + 1) 0 [] c
      scanLines? literal indent fuel
        ⟨l.join literal blankStart ++ line, lineBreak, breaks, blankStart⟩ c
    else some (l, c)

def Lines.chomp (l : Lines) : Chomping → List Char
  | .strip => l.text
  | .clip => l.text ++ l.lineBreak
  | .keep => l.text ++ l.lineBreak ++ l.breaks

/-- A block whose mark is passed, inside a collection at column `parent`. -/
def scan? (literal : Bool) (parent : Int) (c : Cursor) : Option (List Char × Cursor) := do
  let (header, c) ← scanHeader? c
  let c ← c.skipLineEnd?
  let given := if header.increment = 0 then 0 else (max parent 0).toNat + header.increment
  let (breaks, widest, c) ← scanBreaks? given (c.rest.length + 1) 0 [] c
  let indent := if given = 0 then max (max widest (parent + 1).toNat) 1 else given
  let (l, c) ← scanLines? literal indent (c.rest.length + 1) { breaks } c
  some (l.chomp header.chomping, c)

end Block

end ClusterControl.Yaml
