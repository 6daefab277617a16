import ClusterControl.Config.Lookup
import ClusterControl.Flow.Scheduler
import ClusterControl.Plane.Clusters
import ClusterControl.Plane.Credentials

/-!
# The control plane as a whole

A plane is built from its settings. It has an AWS connector when it is given an identity service,
and a scheduler with one handler for each kind of flow.
-/

namespace ClusterControl

structure Plane where
  settings : Settings
  connectors : Connectors

/-- Why there is no plane after a start from the configuration that is found. -/
inductive StartupError where
  | load (error : ConfigError)
  | build (error : PlaneError)
deriving DecidableEq, Repr

/-- What failed; the cause is not shown. -/
def StartupError.message : StartupError → String
  | load _ => "Failed to load control plane config"
  | build _ => "Failed to build control plane context"

namespace Plane

def connectorSettings (s : Settings) : Aws.ConnectorSettings where
  accountId := s.aws.accountId
  governmentCloud := s.aws.governmentCloud
  policyBase64 := s.aws.credentialPolicies.getD Aws.builtInPolicyBase64

/-- Builds a plane, told whether it has an identity service. -/
def build (s : Settings) (hasIdentityService : Bool) : Except PlaneError Plane :=
  if hasIdentityService then
    match Aws.Connector.new (connectorSettings s) with
    | .ok connector => .ok ⟨s, ⟨some connector⟩⟩
    | .error e => .error (.aws e)
  else .ok ⟨s, ⟨none⟩⟩

/-- The plane of the configuration that is found, without an identity service. -/
def start (env : Environment) (t : FileTree) : Except StartupError Plane :=
  match Settings.load env t with
  | .error e => .error (.load e)
  | .ok s =>
    match build s false with
    | .error e => .error (.build e)
    | .ok p => .ok p

def terms (p : Plane) : Poll.Terms := .ofConfig p.settings.pollConfig

def scheduler {σ : Type} (p : Plane) (clock : Nat) (provisioner : Provisioner σ) (world : σ) :
    Scheduler σ StackCall where
  handlers kind := some (Stack.handler clock p.terms provisioner kind)
  world := world

end Plane

end ClusterControl
