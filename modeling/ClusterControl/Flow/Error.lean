import ClusterControl.Poll.Basic

/-!
# Errors of flows

The causes for which a flow is not started, or does not end well, with their texts.
-/

namespace ClusterControl

inductive FlowError where
  | admissionRejected (resourceId : String)
  | acceptanceTimeout (resourceId : String) (timeout : Duration)
  | dispatchFailed (reason : String)
  | handlerNotFound (event : String)
  | cancelled (resourceId : String)
  | stepFailed (reason : String)
  | poll (error : PollError)
deriving DecidableEq, Repr

namespace FlowError

def message : FlowError → String
  | admissionRejected id =>
    "Resource " ++ id ++ " has flows under operation, request not allowed."
  | acceptanceTimeout id timeout =>
    "Flow for resource " ++ id ++ " was not accepted within " ++ timeout.secsText ++
      "s, request not allowed."
  | dispatchFailed reason => "Flow dispatch failed: " ++ reason
  | handlerNotFound event => "No flow handler registered for selector " ++ event
  | cancelled id => "Flow for resource " ++ id ++ " was cancelled"
  | stepFailed reason => "Flow step failed: " ++ reason
  | poll e => e.message

/-- Whether the request was turned down, as opposed to having gone wrong. -/
def isRejection : FlowError → Bool
  | admissionRejected _ | acceptanceTimeout _ _ => true
  | _ => false

end FlowError

end ClusterControl
