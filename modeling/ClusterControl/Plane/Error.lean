import ClusterControl.Aws.Error
import ClusterControl.Config.Error
import ClusterControl.Credential.Basic
import ClusterControl.Flow.Error

/-!
# Errors of the control plane
-/

namespace ClusterControl

inductive PlaneError where
  | platformNotEnabled (platform : Platform)
  | invalidResourceState (id status : String)
  | config (error : ConfigError)
  | aws (error : AwsError)
  | flow (error : FlowError)
deriving DecidableEq, Repr

def PlaneError.message : PlaneError → String
  | platformNotEnabled p => "Platform " ++ p.name ++ " is not enabled on this control plane"
  | invalidResourceState id status =>
    "Resource " ++ id ++ " is " ++ status ++ ", operation not allowed"
  | config e => "Config error: " ++ e.message
  | aws e => "AWS error: " ++ e.message
  | flow e => e.message

end ClusterControl
