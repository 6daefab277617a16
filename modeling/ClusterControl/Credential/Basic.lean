import ClusterControl.Json.Decode
import ClusterControl.Text.Blank

/-!
# Cloud credentials

A credential names a platform and carries parameters of any JSON shape. A parameter of the wrong
shape counts as missing, and so does a blank text where a text with content is asked for.
-/

namespace ClusterControl

inductive Platform where
  | aws
  | mock
deriving DecidableEq, Repr

namespace Platform

def all : List Platform := [aws, mock]

def name : Platform → String
  | aws => "AWS"
  | mock => "MOCK"

def ofName? (s : String) : Option Platform := all.find? (·.name == s)

theorem ofName?_name (p : Platform) : ofName? p.name = some p := by cases p <;> decide

/-- The platform of a name in any case; otherwise the name in capitals. Only the letters from
`a` to `z` have a case here. -/
def parse (s : String) : Except String Platform :=
  let capitals := String.ofList (s.toList.map Char.toUpper)
  match ofName? capitals with
  | some p => .ok p
  | none => .error capitals

/-- What is said of a platform that is not known, given its name in capitals. -/
def unsupported (capitals : String) : String := "Unsupported cloud platform: " ++ capitals

def decode : Json.Decoder Platform := .oneOf ofName?

end Platform

inductive CredentialState where
  | created
  | verified
  | failed
  | permissionsMissing
  | deleted
deriving DecidableEq, Repr

namespace CredentialState

def all : List CredentialState := [created, verified, failed, permissionsMissing, deleted]

def name : CredentialState → String
  | created => "CREATED"
  | verified => "VERIFIED"
  | failed => "FAILED"
  | permissionsMissing => "PERMISSIONS_MISSING"
  | deleted => "DELETED"

def ofName? (s : String) : Option CredentialState := all.find? (·.name == s)

theorem ofName?_name (s : CredentialState) : ofName? s.name = some s := by cases s <;> decide

def decode : Json.Decoder CredentialState := .oneOf ofName?

end CredentialState

structure Credential where
  crn : String
  name : String
  platform : Platform
  parameters : Json.Members

namespace Credential

def withParameter (c : Credential) (key : String) (value : Json) : Credential :=
  { c with parameters := Json.Members.insert key value c.parameters }

def parameter? (c : Credential) (key : String) : Option Json :=
  Json.Members.get? key c.parameters

def textParameter? (c : Credential) (key : String) : Option String :=
  match c.parameter? key with
  | some (.text s) => some s
  | _ => none

/-- A text parameter that is not blank. -/
def contentParameter? (c : Credential) (key : String) : Option String :=
  (c.textParameter? key).filter fun s => !Text.isBlankText s

def boolParameter? (c : Credential) (key : String) : Option Bool :=
  match c.parameter? key with
  | some (.bool b) => some b
  | _ => none

def textsOf? : List Json → Option (List String)
  | [] => some []
  | .text s :: rest => (textsOf? rest).map (s :: ·)
  | _ :: _ => none

def textsParameter? (c : Credential) (key : String) : Option (List String) :=
  match c.parameter? key with
  | some (.list items) => textsOf? items
  | _ => none

/-- A state by its name, or by an object whose single member has that name and is `null`. -/
def stateParameter? (c : Credential) (key : String) : Option CredentialState :=
  match c.parameter? key with
  | some (.text s) => CredentialState.ofName? s
  | some (.object [(s, .null)]) => CredentialState.ofName? s
  | _ => none

def encode (c : Credential) : Json :=
  .object [("crn", .text c.crn), ("name", .text c.name), ("parameters", .object c.parameters),
    ("platform", .text c.platform.name)]

def decode : Json.Decoder Credential := fun levels s => do
  let slots ← Json.Slots.open? false ["crn", "name", "platform", "parameters"] levels s
  let crn ← slots.required "crn" .text
  let name ← slots.required "name" .text
  let platform ← slots.required "platform" Platform.decode
  let parameters ← slots.withDefault "parameters" [] .members
  some ⟨crn, name, platform, parameters⟩

end Credential

end ClusterControl
