import ClusterControl.Yaml.Token

/-!
# Nodes of a YAML document

A node may carry an anchor and a tag. Anchors are numbered, and an alias names the number that its
anchor has where the alias stands.
-/

namespace ClusterControl.Yaml

structure Properties where
  anchor : Option Nat := none
  tag : Option Tag := none
deriving DecidableEq, Repr

inductive Node where
  | scalar (properties : Properties) (style : Style) (text : String)
  | sequence (properties : Properties) (items : List Node)
  | mapping (properties : Properties) (entries : List (Node × Node))
  | alias (anchor : Nat)

namespace Node

def empty (p : Properties) : Node := .scalar p .plain ""

mutual

/-- The nodes with anchors, in the order of their starts. -/
def anchored : Node → List (Nat × Node)
  | n@(.scalar p _ _) => (p.anchor.map fun a => (a, n)).toList
  | n@(.sequence p items) => (p.anchor.map fun a => (a, n)).toList ++ anchoredItems items
  | n@(.mapping p entries) => (p.anchor.map fun a => (a, n)).toList ++ anchoredEntries entries
  | .alias _ => []

def anchoredItems : List Node → List (Nat × Node)
  | [] => []
  | n :: rest => anchored n ++ anchoredItems rest

def anchoredEntries : List (Node × Node) → List (Nat × Node)
  | [] => []
  | (k, v) :: rest => anchored k ++ anchored v ++ anchoredEntries rest

end

end Node

/-- The document of a text: its node, or nothing in an empty text, and its nodes with anchors. -/
structure Document where
  root : Option Node
  anchors : List (Nat × Node)

namespace Document

def ofRoot (root : Option Node) : Document :=
  ⟨root, match root with
    | some n => n.anchored
    | none => []⟩

/-- The last node with the number of an anchor. -/
def target? (d : Document) (anchor : Nat) : Option Node := d.anchors.reverse.lookup anchor

/-- A node, or the one that an alias names. -/
def resolve (d : Document) (n : Node) : Option Node :=
  match n with
  | .alias a => d.target? a
  | n => some n

end Document

end ClusterControl.Yaml
