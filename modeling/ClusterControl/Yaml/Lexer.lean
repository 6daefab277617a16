import ClusterControl.Yaml.Property

/-!
# The tokens of a YAML text

A token that may turn out to be a key leaves a slot before itself. When its colon comes, the slot
becomes a key token, after the start of a mapping when the key stands deeper than all before it. A
key stays on one line and takes at most 1024 bytes.

Outside flow collections the columns of keys and entries open and close block collections.
-/

namespace ClusterControl.Yaml

/-- A place that may turn out to be the start of a key. -/
structure PendingKey where
  slot : Nat
  /-- Whether nothing but a key can stand there. -/
  required : Bool
  offset : Nat
  line : Nat
  column : Nat

inductive LexItem where
  | token (t : Token)
  | slot (n : Nat)

structure Lexer where
  cursor : Cursor
  /-- The column of the innermost block collection; `-1` outside all. -/
  indent : Int := -1
  outerIndents : List Int := []
  keyAllowed : Bool := true
  /-- The pending key of each flow collection, the innermost first, and last that outside all. -/
  pending : List (Option PendingKey) := [none]
  /-- What was read, the latest first. -/
  items : List LexItem := []
  /-- The slots that became keys, with whether they start a mapping. -/
  keys : List (Nat × Bool) := []
  slots : Nat := 0

namespace Lexer

def inFlow (s : Lexer) : Bool := 1 < s.pending.length

def push (s : Lexer) (t : Token) : Lexer := { s with items := .token t :: s.items }

def pushMark (s : Lexer) (t : Token) : Lexer :=
  { s with items := .token t :: s.items, cursor := s.cursor.advance 1 }

/-- Closes the collections that stand deeper than a column: the column that is innermost then, the
columns around it, and the items. -/
def closeDeeper (column : Int) : Int → List Int → List LexItem → Int × List Int × List LexItem
  | indent, [], items => (indent, [], items)
  | indent, outer :: rest, items =>
    if column < indent then closeDeeper column outer rest (.token .blockEnd :: items)
    else (indent, outer :: rest, items)

/-- Closes the block collections that stand deeper than a column, outside flow collections. -/
def unroll (column : Int) (s : Lexer) : Lexer :=
  if s.inFlow then s
  else
    let (indent, outerIndents, items) := closeDeeper column s.indent s.outerIndents s.items
    { s with indent, outerIndents, items }

/-- Whether a collection at a column would be a new one. -/
def opens (s : Lexer) (column : Nat) : Bool := !s.inFlow && decide (s.indent < (column : Int))

def deepen (s : Lexer) (column : Nat) : Lexer :=
  { s with indent := column, outerIndents := s.indent :: s.outerIndents }

/-- Opens a block collection at the cursor if it stands deeper than all before. -/
def roll (s : Lexer) (t : Token) : Lexer :=
  if s.opens s.cursor.column then (s.deepen s.cursor.column).push t else s

/-- Gives up a key; nothing when it was required. -/
def giveUp? : Option PendingKey → Option (Option PendingKey)
  | some k => if k.required then none else some none
  | none => some none

/-- Gives up the keys that are too old. -/
def dropStale? (s : Lexer) : Option Lexer := do
  let pending ← s.pending.mapM fun p =>
    match p with
    | some k =>
      if k.line < s.cursor.line || k.offset + 1024 < s.cursor.offset then giveUp? p else some p
    | none => some none
  some { s with pending }

/-- Gives up the innermost key. -/
def dropKey? (s : Lexer) : Option Lexer :=
  match s.pending with
  | [] => some s
  | p :: rest => (giveUp? p).map fun p => { s with pending := p :: rest }

/-- Notes that a key may start at the cursor. -/
def saveKey? (s : Lexer) : Option Lexer :=
  if s.keyAllowed then do
    let s ← s.dropKey?
    let required := !s.inFlow && s.indent == s.cursor.column
    let k : PendingKey := ⟨s.slots, required, s.cursor.offset, s.cursor.line, s.cursor.column⟩
    some { s with
      pending := some k :: s.pending.drop 1
      items := .slot s.slots :: s.items
      slots := s.slots + 1 }
  else some s

/-- Passes blanks, comments and line breaks. A tab counts as a blank only where no block key can
start. The number bounds the lines that are left. -/
def skipToToken (s : Lexer) : Nat → Lexer
  | 0 => s
  | fuel + 1 =>
    let c := s.cursor
    let c := if c.column = 0 ∧ c.sees (· == '\ufeff') then c.advance 1 else c
    let c := c.skipWhile fun d => d == ' ' || ((s.inFlow || !s.keyAllowed) && d == '\t')
    let c := if c.sees (· == '#') then c.takeLine.2 else c
    if c.sees isBreak then
      skipToToken
        { s with cursor := c.takeBreak.2, keyAllowed := s.keyAllowed || !s.inFlow } fuel
    else { s with cursor := c }

def fetchDirective? (s : Lexer) : Option Lexer := do
  let s ← (s.unroll (-1)).dropKey?
  let (t, cursor) ← Directive.scan? (s.cursor.advance 1)
  some ({ s with cursor, keyAllowed := false }.push t)

def fetchDocumentMark? (t : Token) (s : Lexer) : Option Lexer := do
  let s ← (s.unroll (-1)).dropKey?
  some ({ s with cursor := s.cursor.advance 3, keyAllowed := false }.push t)

def fetchFlowStart? (t : Token) (s : Lexer) : Option Lexer := do
  let s ← s.saveKey?
  some ({ s with pending := none :: s.pending, keyAllowed := true }.pushMark t)

def fetchFlowEnd? (t : Token) (s : Lexer) : Option Lexer := do
  let s ← s.dropKey?
  let pending := if s.inFlow then s.pending.drop 1 else s.pending
  some ({ s with pending, keyAllowed := false }.pushMark t)

def fetchFlowEntry? (s : Lexer) : Option Lexer := do
  let s ← s.dropKey?
  some ({ s with keyAllowed := true }.pushMark .flowEntry)

def fetchBlockEntry? (s : Lexer) : Option Lexer := do
  if !s.inFlow && !s.keyAllowed then none
  else
    let s ← (s.roll .blockSequenceStart).dropKey?
    some ({ s with keyAllowed := true }.pushMark .blockEntry)

def fetchKey? (s : Lexer) : Option Lexer := do
  if !s.inFlow && !s.keyAllowed then none
  else
    let s ← (s.roll .blockMappingStart).dropKey?
    some ({ s with keyAllowed := !s.inFlow }.pushMark .key)

def fetchValue? (s : Lexer) : Option Lexer :=
  match s.pending with
  | some k :: rest =>
    let starts := s.opens k.column
    let s := if starts then s.deepen k.column else s
    some ({ s with
      keys := (k.slot, starts) :: s.keys
      pending := none :: rest
      keyAllowed := false }.pushMark .value)
  | _ =>
    if !s.inFlow && !s.keyAllowed then none
    else some ({ s.roll .blockMappingStart with keyAllowed := !s.inFlow }.pushMark .value)

def fetchName? (make : List Char → Token) (s : Lexer) : Option Lexer := do
  let s ← s.saveKey?
  let (name, cursor) ← scanName? (s.cursor.advance 1)
  some ({ s with cursor, keyAllowed := false }.push (make name))

def fetchTag? (s : Lexer) : Option Lexer := do
  let s ← s.saveKey?
  let (t, cursor) ← Tag.scan? s.inFlow s.cursor
  some ({ s with cursor, keyAllowed := false }.push t)

def fetchBlock? (style : Style) (s : Lexer) : Option Lexer := do
  let s ← s.dropKey?
  let (text, cursor) ← Block.scan? (style == .literal) s.indent (s.cursor.advance 1)
  some ({ s with cursor, keyAllowed := true }.push (.scalar style text))

def fetchQuoted? (style : Style) (quote : Char) (s : Lexer) : Option Lexer := do
  let s ← s.saveKey?
  let (text, cursor) ← Quoted.scan? quote (s.cursor.rest.length + 1) [] (s.cursor.advance 1)
  some ({ s with cursor, keyAllowed := false }.push (.scalar style text))

def fetchPlain? (s : Lexer) : Option Lexer := do
  let s ← s.saveKey?
  let (text, cursor, broken) ←
    Plain.scan? s.inFlow (s.indent + 1) (s.cursor.rest.length + 1) [] {} s.cursor
  some ({ s with cursor, keyAllowed := broken }.push (.scalar .plain text))

/-- Whether a plain scalar may start with a character, given whether a blank comes behind it, or a
blank, a break or the end. -/
def startsPlain (inFlow blankBehind endBehind : Bool) (d : Char) : Bool :=
  !(isBlank d || isBreak d || "-?:,[]\x7b\x7d#&*!|>'\"%@\x60".toList.contains d) ||
    (d == '-' && !blankBehind) || (!inFlow && (d == '?' || d == ':') && !endBehind)

/-- The next token, which starts with `d` at the cursor. -/
def fetchAt? (s : Lexer) (d : Char) : Option Lexer :=
  let c := s.cursor
  let ends := c.endsAfter 1
  if c.column = 0 ∧ d = '%' then s.fetchDirective?
  else if c.atIndicator '-' then s.fetchDocumentMark? .documentStart
  else if c.atIndicator '.' then s.fetchDocumentMark? .documentEnd
  else if d == '[' then s.fetchFlowStart? .flowSequenceStart
  else if d == '\x7b' then s.fetchFlowStart? .flowMappingStart
  else if d == ']' then s.fetchFlowEnd? .flowSequenceEnd
  else if d == '\x7d' then s.fetchFlowEnd? .flowMappingEnd
  else if d == ',' then s.fetchFlowEntry?
  else if d == '-' && ends then s.fetchBlockEntry?
  else if d == '?' && (s.inFlow || ends) then s.fetchKey?
  else if d == ':' && (s.inFlow || ends) then s.fetchValue?
  else if d == '*' then s.fetchName? .alias
  else if d == '&' then s.fetchName? .anchor
  else if d == '!' then s.fetchTag?
  else if d == '|' && !s.inFlow then s.fetchBlock? .literal
  else if d == '>' && !s.inFlow then s.fetchBlock? .folded
  else if d == '\'' then s.fetchQuoted? .singleQuoted '\''
  else if d == '"' then s.fetchQuoted? .doubleQuoted '"'
  else if startsPlain s.inFlow ((c.advance 1).sees isBlank) ends d then s.fetchPlain?
  else none

/-- Everything that is left. Each token takes a character, which bounds the number of tokens. -/
def run? : Nat → Lexer → Option Lexer
  | 0, _ => none
  | fuel + 1, s => do
    let s ← (s.skipToToken (s.cursor.rest.length + 1)).dropStale?
    let s := s.unroll s.cursor.column
    match s.cursor.rest with
    | [] => (s.unroll (-1)).dropKey?
    | d :: _ => run? fuel (← s.fetchAt? d)

/-- The tokens that were read, with the slots filled. -/
def tokens (s : Lexer) : List Token :=
  s.items.reverse.flatMap fun item =>
    match item with
    | .token t => [t]
    | .slot n =>
      match s.keys.lookup n with
      | some true => [.blockMappingStart, .key]
      | some false => [.key]
      | none => []

end Lexer

/-- The tokens of a text; nothing when it has a malformed token. -/
def Token.ofText? (cs : List Char) : Option (List Token) :=
  if cs.all isAllowed then
    (Lexer.run? (cs.length + 1) { cursor := { rest := cs } }).map (·.tokens)
  else none

end ClusterControl.Yaml
