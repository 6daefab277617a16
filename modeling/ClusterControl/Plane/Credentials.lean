import ClusterControl.Aws.Connector
import ClusterControl.Plane.Error

/-!
# The life of a credential

A credential is created, verified and deleted through the connector of its platform. The mock
platform is always enabled and answers from the parameters of the credential; AWS is enabled when
it has a connector.
-/

namespace ClusterControl

namespace Mock

/-- The status that a credential of the mock platform asks for. -/
def verify (c : Credential) : CredentialStatus :=
  match (c.stateParameter? "mockState").getD .verified with
  | .failed => .failed c "Mock credential rejected" none
  | .permissionsMissing =>
    match MissingPermissions.ofDenied? ((c.textsParameter? "mockMissing").getD []) with
    | some m => .permissionsMissing c m
    | none => .verified c
  | _ => .verified c

def prerequisites (externalId : String) : Prerequisites := ⟨.mock, none, externalId, none⟩

end Mock

/-- The connectors of the enabled platforms. -/
structure Connectors where
  aws : Option Aws.Connector

namespace Connectors

def enabled (k : Connectors) : List Platform :=
  match k.aws with
  | some _ => [.aws, .mock]
  | none => [.mock]

def guarded {α : Type} (k : Connectors) (p : Platform) (a : α) : Except PlaneError α :=
  if k.enabled.contains p then .ok a else .error (.platformNotEnabled p)

def create (k : Connectors) (c : Credential) : Except PlaneError CredentialStatus :=
  k.guarded c.platform (.created c)

def delete (k : Connectors) (c : Credential) : Except PlaneError CredentialStatus :=
  k.guarded c.platform (.deleted c)

/-- Verifies a credential; only a credential of AWS leads to exchanges with the identity
service. -/
def verify (k : Connectors) (service : Aws.IdentityService) (c : Credential)
    (log : List Aws.Exchange) : Except PlaneError CredentialStatus × List Aws.Exchange :=
  match c.platform, k.aws with
  | .mock, _ => (.ok (Mock.verify c), log)
  | .aws, none => (.error (.platformNotEnabled .aws), log)
  | .aws, some connector =>
    let (status, log) := connector.verify service c log
    (.ok status, log)

def prerequisites (k : Connectors) (p : Platform) (externalId : String) :
    Except PlaneError Prerequisites :=
  match p, k.aws with
  | .mock, _ => .ok (Mock.prerequisites externalId)
  | .aws, none => .error (.platformNotEnabled .aws)
  | .aws, some connector => .ok (connector.prerequisites externalId)

end Connectors

end ClusterControl
