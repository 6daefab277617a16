import ClusterControl.Calendar
import ClusterControl.Credential.Basic
import ClusterControl.Text.Quoted

/-!
# Access to AWS

An access has the parameters of a credential that count for AWS, and the session of a role once one
is open. A credential names exactly one method: a role, or a key pair. Diagnostics show neither the
secret key nor the secrets of a session.
-/

namespace ClusterControl.Aws

structure Session where
  accessKeyId : String
  secretAccessKey : String
  token : String
  expiration : Option Calendar.Timestamp := none
deriving DecidableEq

def optionText : Option String → String
  | none => "None"
  | some s => "Some(" ++ s ++ ")"

def Session.diagnostic (s : Session) : String :=
  "SessionCredentials \x7b access_key_id: " ++ Text.quote s.accessKeyId ++ ", expiration: " ++
    optionText (s.expiration.map (·.text)) ++ ", .. \x7d"

/-- How a credential authenticates. -/
inductive Method where
  | role (arn : String)
  | keyPair (accessKey : String)
deriving DecidableEq, Repr

inductive MethodFault where
  | both
  | incomplete
deriving DecidableEq, Repr

def MethodFault.message : MethodFault → String
  | both => "Please provide only the role arn or the access and secret key, not both"
  | incomplete => "Please provide both the access and secret key, or a role arn"

structure Access where
  name : String
  roleArn : Option String
  accessKey : Option String
  secretKey : Option String
  externalId : Option String
  region : Option String
  governmentCloud : Bool
  session : Option Session := none
deriving DecidableEq

namespace Access

/-- The access of a credential, with a default for whether it is one of the government cloud. -/
def ofCredential (c : Credential) (governmentCloud : Bool) : Access where
  name := c.name
  roleArn := c.contentParameter? "roleArn"
  accessKey := c.contentParameter? "accessKey"
  secretKey := c.contentParameter? "secretKey"
  externalId := c.contentParameter? "externalId"
  region := c.contentParameter? "region"
  governmentCloud := (c.boolParameter? "govCloud").getD governmentCloud

def withSession (a : Access) (s : Session) : Access := { a with session := some s }

def method (a : Access) : Except MethodFault Method :=
  match a.roleArn, a.accessKey, a.secretKey with
  | some arn, none, none => .ok (.role arn)
  | some _, _, _ => .error .both
  | none, some key, some _ => .ok (.keyPair key)
  | none, _, _ => .error .incomplete

/-- The environment variables with the credentials that assume roles. -/
def assumerVariables (a : Access) : String × String :=
  if a.governmentCloud then ("AWS_GOV_ACCESS_KEY_ID", "AWS_GOV_SECRET_ACCESS_KEY")
  else ("AWS_ACCESS_KEY_ID", "AWS_SECRET_ACCESS_KEY")

def diagnostic (a : Access) : String :=
  "AwsCredentialView \x7b name: " ++ Text.quote a.name ++
    ", role_arn: " ++ optionText (a.roleArn.map Text.quote) ++
    ", access_key: " ++ optionText (a.accessKey.map Text.quote) ++
    ", secret_key: " ++ optionText (a.secretKey.map fun _ => Text.quote "***") ++
    ", external_id: " ++ optionText (a.externalId.map Text.quote) ++
    ", region: " ++ optionText (a.region.map Text.quote) ++
    ", government_cloud: " ++ (if a.governmentCloud then "true" else "false") ++
    ", session: " ++ optionText (a.session.map (·.diagnostic)) ++ " \x7d"

end Access

end ClusterControl.Aws
