/-!
# Places in a YAML text

A cursor has the characters that are left, and counts bytes, lines and columns: a column is one
character wide, an offset one byte. The two characters of a carriage return with a line feed are one
line break.
-/

namespace ClusterControl.Yaml

/-- Whether a character may stand in a text at all. -/
def isAllowed (c : Char) : Bool :=
  let n := c.toNat
  n == 0x09 || n == 0x0a || n == 0x0d || (0x20 ≤ n && n ≤ 0x7e) || n == 0x85 ||
    (0xa0 ≤ n && n ≤ 0xfffd) || 0x10000 ≤ n

def isBlank (c : Char) : Bool := c == ' ' || c == '\t'

def isBreak (c : Char) : Bool :=
  c == '\n' || c == '\r' || c == '\u0085' || c == '\u2028' || c == '\u2029'

/-- The characters of names: letters, digits, `-` and `_`, all of them ASCII. -/
def isWord (c : Char) : Bool := c.isAlphanum || c == '-' || c == '_'

structure Cursor where
  rest : List Char
  /-- The bytes that are passed. -/
  offset : Nat := 0
  line : Nat := 0
  column : Nat := 0

namespace Cursor

def width (cs : List Char) : Nat := cs.foldr (fun c n => c.utf8Size + n) 0

def advance (c : Cursor) (n : Nat) : Cursor :=
  let (passed, rest) := c.rest.splitAt n
  { c with rest, offset := c.offset + width passed, column := c.column + n }

def atEnd (c : Cursor) : Bool := c.rest.isEmpty

def sees (c : Cursor) (p : Char → Bool) : Bool := c.rest.head?.any p

/-- Whether a blank, a break or the end comes after some characters. -/
def endsAfter (c : Cursor) (n : Nat) : Bool :=
  match c.rest.drop n with
  | [] => true
  | d :: _ => isBlank d || isBreak d

/-- The characters of a class at the front, and the cursor behind them. -/
def takeWhile (c : Cursor) (p : Char → Bool) : List Char × Cursor :=
  let taken := c.rest.takeWhile p
  (taken, c.advance taken.length)

def skipWhile (c : Cursor) (p : Char → Bool) : Cursor := (c.takeWhile p).2

def takeLine (c : Cursor) : List Char × Cursor := c.takeWhile fun d => !isBreak d

/-- A line break as it counts in a text, and the cursor behind it; nothing elsewhere. -/
def takeBreak (c : Cursor) : List Char × Cursor :=
  match c.rest with
  | '\r' :: '\n' :: rest => (['\n'], ⟨rest, c.offset + 2, c.line + 1, 0⟩)
  | d :: rest =>
    if isBreak d then
      (if d == '\u2028' || d == '\u2029' then [d] else ['\n'],
        ⟨rest, c.offset + d.utf8Size, c.line + 1, 0⟩)
    else ([], c)
  | [] => ([], c)

/-- Behind blanks, a comment and a line break; nothing when something else stands there. -/
def skipLineEnd? (c : Cursor) : Option Cursor :=
  let c := c.skipWhile isBlank
  let c := if c.sees (· == '#') then c.takeLine.2 else c
  if c.atEnd || c.sees isBreak then some c.takeBreak.2 else none

/-- Whether a line starts with three characters of a kind and nothing right behind them. -/
def atIndicator (c : Cursor) (mark : Char) : Bool :=
  c.column == 0 && c.rest.take 3 == [mark, mark, mark] && c.endsAfter 3

def atDocumentIndicator (c : Cursor) : Bool := c.atIndicator '-' || c.atIndicator '.'

end Cursor

end ClusterControl.Yaml
