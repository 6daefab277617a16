import ClusterControl.Yaml.Lexer
import ClusterControl.Yaml.Node

/-!
# The grammar of YAML

A text holds at most one document. Its tokens are read in one pass; every function gives the node
and what comes behind it, or nothing when the tokens fit no document. The number that each loop
takes bounds the depth of the calls: each level of nesting and each entry of a collection passes a
token.
-/

namespace ClusterControl.Yaml

/-- What is left to read: the tokens, and the numbers of the anchors so far by their names. -/
structure Remainder where
  tokens : List Token
  names : List (List Char × Nat) := []

namespace Remainder

def skip (r : Remainder) : Remainder := { r with tokens := r.tokens.drop 1 }

def stops (r : Remainder) (ts : List Token) : Bool :=
  match r.tokens with
  | [] => false
  | t :: _ => ts.contains t

/-- Gives a name the number of the names so far. -/
def nameAnchor (r : Remainder) (name : List Char) : Nat × Remainder :=
  let n := r.names.length
  let others := r.names.filter (·.1 != name)
  (n, { r with names := (name, n) :: others })

/-- The anchor and the tag at the front, in either order, each at most once. -/
def properties (r : Remainder) :
    Option (List Char) × Option (List Char × Tag) × Remainder :=
  match r.tokens with
  | .anchor a :: .tag h s :: rest => (some a, some (h, s), { r with tokens := rest })
  | .anchor a :: rest => (some a, none, { r with tokens := rest })
  | .tag h s :: .anchor a :: rest => (some a, some (h, s), { r with tokens := rest })
  | .tag h s :: rest => (none, some (h, s), { r with tokens := rest })
  | _ => (none, none, r)

end Remainder

abbrev Handles := List (List Char × Tag)

/-- The whole tag of a handle and a suffix; a tag without handle is whole already. -/
def Handles.tag? (handles : Handles) : List Char × Tag → Option Tag
  | ([], suffix) => some suffix
  | (handle, suffix) => (handles.lookup handle).map (· ++ suffix)

namespace Grammar

mutual

/-- A node. `block` allows block collections, `indentless` a sequence at the column of its key. -/
def node? (handles : Handles) (block indentless : Bool) :
    Nat → Remainder → Option (Node × Remainder)
  | 0, _ => none
  | fuel + 1, r =>
    match r.tokens with
    | .alias name :: _ => (r.names.lookup name).map fun n => (.alias n, r.skip)
    | _ => do
      let (anchor, written, r) := r.properties
      let tag ← match written with
        | none => some none
        | some t => (handles.tag? t).map some
      let (anchor, r) : Option Nat × Remainder := match anchor with
        | none => (none, r)
        | some name =>
          let (n, r) := r.nameAnchor name
          (some n, r)
      match r.tokens with
      | .scalar style text :: _ =>
        some (.scalar ⟨anchor, tag⟩ style (String.ofList text), r.skip)
      | .blockEntry :: _ =>
        if indentless then do
          let (items, r) ← indentlessItems? handles fuel r
          some (.sequence ⟨anchor, tag⟩ items, r)
        else if anchor.isSome || tag.isSome then some (.empty ⟨anchor, tag⟩, r)
        else none
      | .flowSequenceStart :: _ => do
        let (items, r) ← flowItems? handles true fuel r.skip
        some (.sequence ⟨anchor, tag⟩ items, r)
      | .flowMappingStart :: _ => do
        let (entries, r) ← flowEntries? handles true fuel r.skip
        some (.mapping ⟨anchor, tag⟩ entries, r)
      | t :: _ =>
        if block && t == .blockSequenceStart then do
          let (items, r) ← blockItems? handles fuel r.skip
          some (.sequence ⟨anchor, tag⟩ items, r)
        else if block && t == .blockMappingStart then do
          let (entries, r) ← blockEntries? handles fuel r.skip
          some (.mapping ⟨anchor, tag⟩ entries, r)
        else if anchor.isSome || tag.isSome then some (.empty ⟨anchor, tag⟩, r)
        else none
      | [] => if anchor.isSome || tag.isSome then some (.empty ⟨anchor, tag⟩, r) else none

def blockItems? (handles : Handles) : Nat → Remainder → Option (List Node × Remainder)
  | 0, _ => none
  | fuel + 1, r =>
    match r.tokens with
    | .blockEntry :: _ => do
      let (item, r) ← if r.skip.stops [.blockEntry, .blockEnd] then some (Node.empty {}, r.skip)
        else node? handles true false fuel r.skip
      let (items, r) ← blockItems? handles fuel r
      some (item :: items, r)
    | .blockEnd :: _ => some ([], r.skip)
    | _ => none

/-- The items of a sequence at the column of its key. -/
def indentlessItems? (handles : Handles) : Nat → Remainder → Option (List Node × Remainder)
  | 0, _ => none
  | fuel + 1, r =>
    match r.tokens with
    | .blockEntry :: _ => do
      let (item, r) ←
        if r.skip.stops [.blockEntry, .key, .value, .blockEnd] then some (Node.empty {}, r.skip)
        else node? handles true false fuel r.skip
      let (items, r) ← indentlessItems? handles fuel r
      some (item :: items, r)
    | _ => some ([], r)

/-- A key or a value of a block mapping whose mark is passed. -/
def blockPart? (handles : Handles) : Nat → Remainder → Option (Node × Remainder)
  | 0, _ => none
  | fuel + 1, r =>
    if r.stops [.key, .value, .blockEnd] then some (.empty {}, r)
    else node? handles true true fuel r

def blockEntries? (handles : Handles) : Nat → Remainder → Option (List (Node × Node) × Remainder)
  | 0, _ => none
  | fuel + 1, r =>
    match r.tokens with
    | .key :: _ => do
      let (k, r) ← blockPart? handles fuel r.skip
      let (v, r) ← match r.tokens with
        | .value :: _ => blockPart? handles fuel r.skip
        | _ => some (Node.empty {}, r)
      let (entries, r) ← blockEntries? handles fuel r
      some ((k, v) :: entries, r)
    | .blockEnd :: _ => some ([], r.skip)
    | _ => none

/-- The items of a flow sequence behind its start. A key makes an item a mapping of one entry; a key
with nothing behind it takes the next token with it. -/
def flowItems? (handles : Handles) (first : Bool) :
    Nat → Remainder → Option (List Node × Remainder)
  | 0, _ => none
  | fuel + 1, r =>
    match r.tokens with
    | .flowSequenceEnd :: _ => some ([], r.skip)
    | t :: _ => do
      let r ← if first then some r else if t == .flowEntry then some r.skip else none
      match r.tokens with
      | .flowSequenceEnd :: _ => some ([], r.skip)
      | .key :: _ => do
        let (k, r) ←
          if r.skip.stops [.value, .flowEntry, .flowSequenceEnd] then
            some (Node.empty {}, r.skip.skip)
          else node? handles false false fuel r.skip
        let (v, r) ← match r.tokens with
          | .value :: _ =>
            if r.skip.stops [.flowEntry, .flowSequenceEnd] then some (Node.empty {}, r.skip)
            else node? handles false false fuel r.skip
          | _ => some (Node.empty {}, r)
        let (items, r) ← flowItems? handles false fuel r
        some (.mapping {} [(k, v)] :: items, r)
      | _ => do
        let (item, r) ← node? handles false false fuel r
        let (items, r) ← flowItems? handles false fuel r
        some (item :: items, r)
    | [] => none

def flowEntries? (handles : Handles) (first : Bool) :
    Nat → Remainder → Option (List (Node × Node) × Remainder)
  | 0, _ => none
  | fuel + 1, r =>
    match r.tokens with
    | .flowMappingEnd :: _ => some ([], r.skip)
    | t :: _ => do
      let r ← if first then some r else if t == .flowEntry then some r.skip else none
      match r.tokens with
      | .flowMappingEnd :: _ => some ([], r.skip)
      | .key :: _ => do
        let (k, r) ←
          if r.skip.stops [.value, .flowEntry, .flowMappingEnd] then
            some (Node.empty {}, r.skip)
          else node? handles false false fuel r.skip
        let (v, r) ← match r.tokens with
          | .value :: _ =>
            if r.skip.stops [.flowEntry, .flowMappingEnd] then some (Node.empty {}, r.skip)
            else node? handles false false fuel r.skip
          | _ => some (Node.empty {}, r)
        let (entries, r) ← flowEntries? handles false fuel r
        some ((k, v) :: entries, r)
      | _ => do
        let (k, r) ← node? handles false false fuel r
        let (entries, r) ← flowEntries? handles false fuel r
        some ((k, .empty {}) :: entries, r)
    | [] => none

end

/-- The directives at the front: whether one gave the version, and the handles that they name. -/
def directives? : Bool → Handles → List Token → Option (Bool × Handles × List Token)
  | versioned, handles, .version major minor :: rest =>
    if versioned || major != 1 || !(minor == 1 || minor == 2) then none
    else directives? true handles rest
  | versioned, handles, .tagDirective handle start :: rest =>
    if (handles.lookup handle).isSome then none
    else directives? versioned ((handle, start) :: handles) rest
  | versioned, handles, rest => some (versioned, handles, rest)

/-- The handles that need no directive. -/
def defaultHandles : Handles :=
  [("!".toList, Tag.ofString "!"), ("!!".toList, Tag.core "")]

/-- Whether a document has no node of its own. -/
def isContentless : List Token → Bool
  | [] => true
  | .version _ _ :: _ | .tagDirective _ _ :: _ => true
  | .documentStart :: _ | .documentEnd :: _ => true
  | _ => false

/-- The root of a document whose directives are passed. -/
def root? (handles : Handles) (tokens : List Token) : Option (Node × List Token) :=
  (node? (handles ++ defaultHandles) true false (3 * tokens.length + 3) { tokens }).map
    fun (n, r) => (n, r.tokens)

/-- The document of a list of tokens. An explicit document starts with its mark, which has to follow
directives, and may be empty. -/
def document? (tokens : List Token) : Option Document :=
  match tokens with
  | [] => some (.ofRoot none)
  | .version _ _ :: _ | .tagDirective _ _ :: _ | .documentStart :: _ => do
    let (_, handles, rest) ← directives? false [] tokens
    match rest with
    | .documentStart :: rest =>
      if isContentless rest then finish? (.empty {}) rest
      else do
        let (n, rest) ← root? handles rest
        finish? n rest
    | _ => none
  | tokens => do
    let (n, rest) ← root? [] tokens
    finish? n rest
where
  /-- Only marks of its end may come behind a document. -/
  finish? (root : Node) (rest : List Token) : Option Document :=
    if rest.all (· == .documentEnd) then some (.ofRoot (some root)) else none

end Grammar

/-- The document of a text; nothing when the text is malformed. -/
def Document.ofText? (cs : List Char) : Option Document := do
  Grammar.document? (← Token.ofText? cs)

end ClusterControl.Yaml
