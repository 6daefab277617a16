/-!
# Errors of the AWS platform
-/

namespace ClusterControl

/-- Where the reading of a policy fails. A reader may add a detail of its own. -/
inductive PolicyFault where
  | base64 (detail : String)
  | utf8 (detail : String)
  | document (detail : String)
deriving DecidableEq, Repr

def PolicyFault.message : PolicyFault → String
  | base64 detail => "invalid base64: " ++ detail
  | utf8 detail => "invalid utf-8: " ++ detail
  | document detail => detail

inductive AwsError where
  | credentialsNotLoaded (text : String)
  | client (text : String)
  | service (code text : String)
  | other (text : String)
  | malformedPolicy (fault : PolicyFault)
deriving DecidableEq, Repr

namespace AwsError

def message : AwsError → String
  | credentialsNotLoaded text => "Unable to load AWS credentials: " ++ text
  | client text => "AWS client error: " ++ text
  | service code text => "AWS service error [" ++ code ++ "]: " ++ text
  | other text => "Unexpected AWS failure: " ++ text
  | malformedPolicy fault => "Can not parse aws policy json: " ++ fault.message

/-- Whether the failure came from talking to the provider, as opposed to an unexpected one. -/
def isClientFailure : AwsError → Bool
  | credentialsNotLoaded _ | client _ | service _ _ => true
  | other _ | malformedPolicy _ => false

end AwsError

end ClusterControl
