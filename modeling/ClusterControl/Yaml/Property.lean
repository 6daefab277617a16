import ClusterControl.Yaml.Scalar
import ClusterControl.Yaml.Token

/-!
# Anchors, tags and directives

The short tokens that start with a mark of their own. Every scan gives the token and the cursor
behind it, or nothing when it is malformed.
-/

namespace ClusterControl.Yaml

/-- The name of an anchor or alias, whose mark is passed. -/
def scanName? (c : Cursor) : Option (List Char × Cursor) :=
  let (name, c) := c.takeWhile isWord
  if name.isEmpty then none
  else if c.endsAfter 0 || c.sees fun d => "?:,]\x7d%@\x60".toList.contains d then some (name, c)
  else none

namespace Tag

/-- The characters of tags beside escapes. A tag in angle brackets may hold three more. -/
def isPart (verbatim : Bool) (c : Char) : Bool :=
  isWord c || ";/?:@&=+$.!~*'()".toList.contains c || (verbatim && ",[]".toList.contains c)

/-- A byte in two hexadecimal digits after a percent sign. -/
def byte? : List Char → Option (UInt8 × List Char)
  | '%' :: a :: b :: rest => do
    some (.ofNat ((← Text.hexValue? a) * 16 + (← Text.hexValue? b)), rest)
  | _ => none

/-- The number of bytes of a character, which its first byte tells. -/
def width? (first : UInt8) : Option Nat :=
  if first < 0x80 then some 1
  else if first / 32 = 6 then some 2
  else if first / 16 = 14 then some 3
  else if first / 8 = 30 then some 4
  else none

/-- The further bytes of an escaped character. Their two upper bits mark them as such. -/
def trailing? : Nat → List Char → Option (List UInt8)
  | 0, _ => some []
  | k + 1, cs => do
    let (b, cs) ← byte? cs
    if b / 64 = 2 then some (b :: (← trailing? k cs)) else none

/-- The bytes of an escaped character. They have its form, whether or not there is one. -/
def scanEscape? (cs : List Char) : Option (List UInt8) := do
  let (b, rest) ← byte? cs
  some (b :: (← trailing? ((← width? b) - 1) rest))

/-- The bytes of the rest of a tag. What was read is kept in reverse. -/
def scanRest? (verbatim : Bool) : Nat → List UInt8 → Cursor → Option (List UInt8 × Cursor)
  | 0, _, _ => none
  | fuel + 1, read, c =>
    match c.rest with
    | [] => some (read.reverse, c)
    | d :: _ =>
      if d == '%' then do
        let bytes ← scanEscape? c.rest
        scanRest? verbatim fuel (bytes.reverse ++ read) (c.advance (3 * bytes.length))
      else if isPart verbatim d then scanRest? verbatim fuel (d.toUInt8 :: read) (c.advance 1)
      else some (read.reverse, c)

/-- A part of a tag. Something must be written there, though it may end before its first byte. -/
def scanPart? (verbatim : Bool) (c : Cursor) : Option (Tag × Cursor) := do
  let (bytes, c) ← scanRest? verbatim (c.rest.length + 1) [] c
  if bytes.isEmpty then none else some (upToZero bytes, c)

/-- What looks like a handle: a mark, a name, and perhaps another mark. -/
def scanHandle? (c : Cursor) : Option (List Char × Cursor) :=
  if c.sees (· == '!') then
    let (name, c) := (c.advance 1).takeWhile isWord
    if c.sees (· == '!') then some ('!' :: name ++ ['!'], c.advance 1)
    else some ('!' :: name, c)
  else none

/-- A tag that starts here. It may be followed by a comma inside flow collections. -/
def scan? (inFlow : Bool) (c : Cursor) : Option (Token × Cursor) := do
  let (token, c) ← (do
    if (c.advance 1).sees (· == '<') then
      let (suffix, c) ← scanPart? true (c.advance 2)
      if c.sees (· == '>') then some (Token.tag [] suffix, c.advance 1) else none
    else
      let (handle, c) ← scanHandle? c
      if 1 < handle.length && handle.getLast? == some '!' then
        let (suffix, c) ← scanPart? false c
        some (Token.tag handle suffix, c)
      else
        let (rest, c) ← scanRest? false (c.rest.length + 1) [] c
        match upToZero ((handle.drop 1).map Char.toUInt8 ++ rest) with
        | [] => some (Token.tag [] (ofString "!"), c)
        | suffix => some (Token.tag ['!'] suffix, c) : Option (Token × Cursor))
  if c.endsAfter 0 || (inFlow && c.sees (· == ',')) then some (token, c) else none

end Tag

namespace Directive

/-- A number of at most nine digits. -/
def scanNumber? (c : Cursor) : Option (Nat × Cursor) :=
  let (digits, c) := c.takeWhile Char.isDigit
  if digits.isEmpty || 9 < digits.length then none
  else some (digits.foldl (fun n d => n * 10 + (d.toNat - 48)) 0, c)

def scanVersion? (c : Cursor) : Option (Token × Cursor) := do
  let (major, c) ← scanNumber? (c.skipWhile isBlank)
  if c.sees (· == '.') then
    let (minor, c) ← scanNumber? (c.advance 1)
    some (.version major minor, c)
  else none

def scanTag? (c : Cursor) : Option (Token × Cursor) := do
  let (handle, c) ← Tag.scanHandle? (c.skipWhile isBlank)
  if 1 < handle.length && handle.getLast? != some '!' then none
  else if c.sees isBlank then
    let (start, c) ← Tag.scanPart? true (c.skipWhile isBlank)
    if c.endsAfter 0 then some (.tagDirective handle start, c) else none
  else none

/-- A directive whose mark is passed, up to the end of its line. -/
def scan? (c : Cursor) : Option (Token × Cursor) := do
  let (name, c) := c.takeWhile isWord
  if name.isEmpty || !c.endsAfter 0 then none
  else
    let (token, c) ← if name == "YAML".toList then scanVersion? c
      else if name == "TAG".toList then scanTag? c
      else none
    some (token, ← c.skipLineEnd?)

end Directive

end ClusterControl.Yaml
