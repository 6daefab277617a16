import ClusterControl.Credential.Basic

/-!
# The status of a credential

Outcomes that a user can act on are statuses and not errors: a rejected key, a missing
permission. The constructors at the end are the only statuses that the control plane makes.
-/

namespace ClusterControl

/-- Denied `action:resource` pairs. -/
structure MissingPermissions where
  denied : List String
deriving DecidableEq, Repr

namespace MissingPermissions

/-- Nothing when nothing was denied. -/
def ofDenied? (denied : List String) : Option MissingPermissions :=
  if denied.isEmpty then none else some ⟨denied⟩

def text (m : MissingPermissions) : String := "[" ++ ", ".intercalate m.denied ++ "]"

def encode (m : MissingPermissions) : Json := .texts m.denied

def decode : Json.Decoder MissingPermissions := fun levels s =>
  (Json.Decoder.listOf .text levels s).map (⟨·⟩)

end MissingPermissions

structure CredentialStatus where
  crn : String
  state : CredentialState
  reason : Option String := none
  cause : Option String := none
  missing : List String := []
deriving DecidableEq, Repr

namespace CredentialStatus

def created (c : Credential) : CredentialStatus := { crn := c.crn, state := .created }

def deleted (c : Credential) : CredentialStatus := { crn := c.crn, state := .deleted }

def verified (c : Credential) : CredentialStatus := { crn := c.crn, state := .verified }

def failed (c : Credential) (reason : String) (cause : Option String) : CredentialStatus :=
  { crn := c.crn, state := .failed, reason := some reason, cause }

def permissionsMissing (c : Credential) (m : MissingPermissions) : CredentialStatus :=
  { crn := c.crn, state := .permissionsMissing, missing := m.denied,
    reason := some ("You don't have permission for these actions which are required: " ++ m.text) }

def isVerified (s : CredentialStatus) : Bool := s.state == .verified

/-- The list of missing permissions is left out when it is empty. -/
def encode (s : CredentialStatus) : Json :=
  let tail := [("reason", Json.ofOption s.reason), ("state", .text s.state.name)]
  let tail := if s.missing.isEmpty then tail
    else ("missing_permissions", .texts s.missing) :: tail
  .object (("cause", Json.ofOption s.cause) :: ("credential_crn", .text s.crn) :: tail)

def decode : Json.Decoder CredentialStatus := fun levels s => do
  let slots ← Json.Slots.open? false
    ["credential_crn", "state", "reason", "cause", "missing_permissions"] levels s
  let crn ← slots.required "credential_crn" .text
  let state ← slots.required "state" CredentialState.decode
  let reason ← slots.optional "reason" .text
  let cause ← slots.optional "cause" .text
  let missing ← slots.withDefault "missing_permissions" [] (.listOf .text)
  some ⟨crn, state, reason, cause, missing⟩

end CredentialStatus

/-- What a user has to set up on the provider's side for a credential. -/
structure Prerequisites where
  platform : Platform
  accountId : Option String
  externalId : String
  policy : Option String
deriving DecidableEq, Repr

namespace Prerequisites

def encode (p : Prerequisites) : Json :=
  .object [("account_id", Json.ofOption p.accountId), ("external_id", .text p.externalId),
    ("platform", .text p.platform.name), ("policy_json", Json.ofOption p.policy)]

def decode : Json.Decoder Prerequisites := fun levels s => do
  let slots ← Json.Slots.open? false
    ["platform", "account_id", "external_id", "policy_json"] levels s
  let platform ← slots.required "platform" Platform.decode
  let accountId ← slots.optional "account_id" .text
  let externalId ← slots.required "external_id" .text
  let policy ← slots.optional "policy_json" .text
  some ⟨platform, accountId, externalId, policy⟩

end Prerequisites

end ClusterControl
