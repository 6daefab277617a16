import ClusterControl.Aws.BuiltInPolicy
import ClusterControl.Aws.Verification

/-!
# The AWS connector

A connector has settings whose policy can be read, and the required actions of that policy.
-/

namespace ClusterControl.Aws

structure ConnectorSettings where
  accountId : Option String := none
  governmentCloud : Bool := false
  policyBase64 : String := builtInPolicyBase64

structure Connector where
  settings : ConnectorSettings
  required : RequiredActions

namespace Connector

def new (settings : ConnectorSettings) : Except AwsError Connector :=
  (RequiredActions.ofBase64 settings.policyBase64).map fun required => ⟨settings, required⟩

def verify (k : Connector) (service : IdentityService) (c : Credential) (log : List Exchange) :
    CredentialStatus × List Exchange :=
  let (findings, log) :=
    examine service k.required (.ofCredential c k.settings.governmentCloud) log
  (statusOf c findings, log)

def prerequisites (k : Connector) (externalId : String) : Prerequisites :=
  ⟨.aws, k.settings.accountId, externalId, some k.settings.policyBase64⟩

end Connector

end ClusterControl.Aws
