import ClusterControl.Aws.Error
import ClusterControl.Credential.Basic
import ClusterControl.Json.Decode
import ClusterControl.Text.Base64
import ClusterControl.Text.Blank

/-!
# Required actions

A policy document lists statements, each with resources and actions. The set of required actions
merges them by resource: resources in ascending order, the actions of a resource in the order in
which the statements first name them, and no resource without an action.
-/

namespace ClusterControl.Aws

/-- What counts of a statement: it requires each of its actions on each of its resources. -/
structure Statement where
  resources : List String
  actions : List String
deriving DecidableEq, Repr

namespace Statement

def oneOrMany : Json.Decoder (List String) := fun levels s => do
  match ← Json.Decoder.json levels s with
  | .text t => some [t]
  | .list items => Credential.textsOf? items
  | _ => none

def decode : Json.Decoder Statement := fun levels s => do
  let slots ← Json.Slots.open? false ["Resource", "Action"] levels s
  let resources ← slots.withDefault "Resource" [] oneOrMany
  let actions ← slots.withDefault "Action" [] oneOrMany
  some ⟨resources, actions⟩

def decodeDocument : Json.Decoder (List Statement) := fun levels s => do
  let slots ← Json.Slots.open? false ["Statement"] levels s
  slots.required "Statement" (.listOf decode)

end Statement

/-- The actions that are required on each resource. -/
structure RequiredActions where
  entries : List (String × List String)
deriving DecidableEq, Repr

namespace RequiredActions

/-- The resources with their actions, in the order in which they are gone through. -/
def toList (q : RequiredActions) : List (String × List String) := q.entries

def size (q : RequiredActions) : Nat := q.entries.length

def isEmpty (q : RequiredActions) : Bool := q.entries.isEmpty

/-- The actions of a list, each at its first place. -/
def merge (known new : List String) : List String :=
  new.foldl (fun known a => if known.contains a then known else known ++ [a]) known

def add (resource : String) (actions : List String) :
    List (String × List String) → List (String × List String)
  | [] => [(resource, merge [] actions)]
  | (r, known) :: rest =>
    if resource < r then (resource, merge [] actions) :: (r, known) :: rest
    else if resource = r then (r, merge known actions) :: rest
    else (r, known) :: add resource actions rest

def addStatement (entries : List (String × List String)) (s : Statement) :
    List (String × List String) :=
  s.resources.foldl (fun entries r => add r s.actions entries) entries

def ofStatements (statements : List Statement) : RequiredActions :=
  ⟨(statements.foldl addStatement []).filter fun e => !e.2.isEmpty⟩

def ofJson (text : String) : Except AwsError RequiredActions :=
  match Statement.decodeDocument.read? text with
  | some statements => .ok (ofStatements statements)
  | none => .error (.malformedPolicy (.document "not a policy document"))

/-- The set of a document in Base64, blanks around it allowed. -/
def ofBase64 (text : String) : Except AwsError RequiredActions :=
  match Base64.decode? (Text.strip text.toList) with
  | none => .error (.malformedPolicy (.base64 "not an encoding of bytes"))
  | some bytes =>
    match String.fromUTF8? ⟨bytes.toArray⟩ with
    | none => .error (.malformedPolicy (.utf8 "not a text"))
    | some json => ofJson json

end RequiredActions

end ClusterControl.Aws
