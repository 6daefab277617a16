import ClusterControl.Aws.Identity
import ClusterControl.Aws.RequiredActions
import ClusterControl.Credential.Status

/-!
# Verification of AWS credentials

A verification first uses the credential once, then simulates every required action for its
principal. It stops at the first call that fails. The exchanges with the identity service are kept
in order.
-/

namespace ClusterControl.Aws

/-- What a check of permissions finds. -/
inductive PermissionCheck where
  | granted
  | missing (permissions : MissingPermissions)
deriving DecidableEq, Repr

def PermissionCheck.ofDenied (denied : List String) : PermissionCheck :=
  match MissingPermissions.ofDenied? denied with
  | none => granted
  | some m => missing m

def deniedPairs (results : List Evaluation) : List String :=
  (results.filter (·.isDenied)).map (·.pair)

/-- The principal whose permissions are checked: the role, or whoever holds the key pair. -/
def principal (service : IdentityService) (access : Access) (log : List Exchange) :
    Method → Except AwsError String × List Exchange
  | .role arn => (.ok arn, log)
  | .keyPair _ =>
    let answer := service.callerIdentity log access
    (answer, log ++ [.callerIdentity access answer])

/-- The pairs that are denied to a principal among the required actions. -/
def simulateAll (service : IdentityService) (access : Access) (principal : String) :
    List (String × List String) → List Exchange → Except AwsError (List String) × List Exchange
  | [], log => (.ok [], log)
  | (resource, actions) :: rest, log =>
    let request : SimulationRequest := ⟨principal, actions, resource⟩
    let answer := service.simulate log access request
    let log := log ++ [.simulate access request answer]
    match answer with
    | .error e => (.error e, log)
    | .ok results =>
      match simulateAll service access principal rest log with
      | (.ok denied, log) => (.ok (deniedPairs results ++ denied), log)
      | (.error e, log) => (.error e, log)

def validate (service : IdentityService) (required : RequiredActions) (access : Access)
    (method : Method) (log : List Exchange) : Except AwsError PermissionCheck × List Exchange :=
  match principal service access log method with
  | (.error e, log) => (.error e, log)
  | (.ok principal, log) =>
    match simulateAll service access principal required.entries log with
    | (.error e, log) => (.error e, log)
    | (.ok denied, log) => (.ok (.ofDenied denied), log)

structure Rejection where
  reason : String
  cause : Option String
deriving DecidableEq, Repr

def Rejection.ofAssumption (access : Access) (arn : String) : AwsError → Rejection
  | .credentialsNotLoaded text =>
    let (keyId, secret) := access.assumerVariables
    ⟨"Unable to load AWS credentials: please make sure that you configured your assumer " ++
      keyId ++ " and " ++ secret ++ " to deployer.", some text⟩
  | e =>
    ⟨"Could not assume role '" ++ arn ++
      "': check if the role exists and if it's created with the correct external ID",
      some e.message⟩

def Rejection.ofKeys (accessKey : String) (e : AwsError) : Rejection :=
  if e.isClientFailure then
    ⟨"Unable to verify AWS credentials: please make sure the access key and secret key is correct. "
      ++ e.message, some e.message⟩
  else ⟨"Could not verify keys '" ++ accessKey ++ "': " ++ e.message, some e.message⟩

def Rejection.ofCheck (e : AwsError) : Rejection :=
  ⟨"Could not check the permissions of the credential: " ++ e.message, some e.message⟩

/-- Uses a credential once. The access that comes back has the session of an assumed role. -/
def connect (service : IdentityService) (access : Access) (log : List Exchange) :
    Method → Except Rejection Access × List Exchange
  | .role arn =>
    let answer := service.assumeRole log access
    (match answer with
      | .ok session => .ok (access.withSession session)
      | .error e => .error (.ofAssumption access arn e),
      log ++ [.assumeRole access answer])
  | .keyPair accessKey =>
    let answer := service.describeRegions log access
    (match answer with
      | .ok _ => .ok access
      | .error e => .error (.ofKeys accessKey e),
      log ++ [.describeRegions access answer])

def examine (service : IdentityService) (required : RequiredActions) (access : Access)
    (log : List Exchange) : Except Rejection PermissionCheck × List Exchange :=
  match access.method with
  | .error fault => (.error ⟨fault.message, none⟩, log)
  | .ok method =>
    match connect service access log method with
    | (.error r, log) => (.error r, log)
    | (.ok access, log) =>
      match validate service required access method log with
      | (.ok check, log) => (.ok check, log)
      | (.error e, log) => (.error (.ofCheck e), log)

def statusOf (c : Credential) : Except Rejection PermissionCheck → CredentialStatus
  | .ok .granted => .verified c
  | .ok (.missing m) => .permissionsMissing c m
  | .error r => .failed c r.reason r.cause

end ClusterControl.Aws
