import ClusterControl.Duration
import ClusterControl.Text.Hex
import ClusterControl.Yaml.Node

/-!
# Reading YAML nodes as values

A scalar is read for the type that is asked for. Numbers and booleans have to be plain, or literal
with the tag of their type. A text may be written in any style; a missing one is a plain scalar that
is empty or a null word.
-/

namespace ClusterControl.Yaml

abbrev Reader (α : Type) := Document → Node → Option α

def isNullWord (s : String) : Bool := s == "null" || s == "Null" || s == "NULL" || s == "~"

/-- The digits of a number in a base; nothing when there is no digit or another character. -/
def digits? (base : Nat) (cs : List Char) : Option Nat :=
  if cs.isEmpty then none
  else
    cs.foldl (fun n c => do some ((← n) * base + (← (Text.hexValue? c).filter (· < base))))
      (some 0)

/-- A whole number without a minus sign: decimal without leading zeros, or in another base behind
its mark. -/
def wholeNumber? (s : String) : Option Nat :=
  let cs := match s.toList with
    | '+' :: rest => rest
    | cs => cs
  match cs with
  | '0' :: 'x' :: rest => digits? 16 rest
  | '0' :: 'o' :: rest => digits? 8 rest
  | '0' :: 'b' :: rest => digits? 2 rest
  | '0' :: _ :: _ => none
  | cs => digits? 10 cs

def boolean? (s : String) : Option Bool :=
  if s == "true" || s == "True" || s == "TRUE" then some true
  else if s == "false" || s == "False" || s == "FALSE" then some false
  else none

namespace Reader

/-- The text of a scalar that can be of a type with a tag of its own. -/
def typedText? (tag : Tag) : Node → Option String
  | .scalar _ .plain text => some text
  | .scalar p .literal text => if p.tag == some tag then some text else none
  | _ => none

def word : Reader UInt64 := fun d n => do
  let k ← wholeNumber? (← typedText? (Tag.core "int") (← d.resolve n))
  if k < wordLimit then some (.ofNat k) else none

def bool : Reader Bool := fun d n => do
  boolean? (← typedText? (Tag.core "bool") (← d.resolve n))

def text : Reader String := fun d n => do
  match ← d.resolve n with
  | .scalar _ _ text => some text
  | _ => none

def optionalText : Reader (Option String) := fun d n => do
  match ← d.resolve n with
  | .scalar p .plain text =>
    match p.tag with
    | none => some (if text.isEmpty || isNullWord text then none else some text)
    | some tag =>
      if tag == Tag.core "null" then if isNullWord text then some none else none
      else some (some text)
  | .scalar _ _ text => some (some text)
  | _ => none

/-- One of a set of words: a scalar of any style, or a tag with nothing behind it. -/
def oneOf {α : Type} (ofName? : String → Option α) : Reader α := fun d n => do
  match ← d.resolve n with
  | .scalar p style text =>
    match p.tag.bind Tag.localName? with
    | some name =>
      if style == .plain && (text.isEmpty || isNullWord text) then ofName? name else none
    | none => ofName? text
  | _ => none

end Reader

structure Fields where
  document : Document
  values : List (String × Node)

namespace Fields

/-- The known fields among entries; nothing when a key is no scalar, or known and written twice. -/
def collect? (d : Document) (known : List String) :
    List (String × Node) → List (Node × Node) → Option (List (String × Node))
  | fields, [] => some fields
  | fields, (key, value) :: rest => do
    let name ← Reader.text d key
    if known.contains name then
      if fields.any (·.1 == name) then none
      else collect? d known ((name, value) :: fields) rest
    else collect? d known fields rest

/-- Opens a record with the given field names. A plain empty scalar is a record without fields. -/
def open? (known : List String) : Reader Fields := fun d n => do
  match ← d.resolve n with
  | .mapping _ entries => (collect? d known [] entries).map (⟨d, ·⟩)
  | .scalar _ .plain text => if text.isEmpty then some ⟨d, []⟩ else none
  | _ => none

def withDefault {α : Type} (f : Fields) (name : String) (default : α) (read : Reader α) :
    Option α :=
  match f.values.lookup name with
  | some n => read f.document n
  | none => some default

end Fields

end ClusterControl.Yaml
