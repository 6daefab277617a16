import ClusterControl.Aws.Error
import ClusterControl.Aws.Access

/-!
# The identity service

Four calls let a credential be checked: a role is assumed, the regions are listed, the caller is
named, and actions are simulated. What the service answers may depend on all exchanges before.
-/

namespace ClusterControl.Aws

structure SimulationRequest where
  principal : String
  actions : List String
  resource : String
deriving DecidableEq, Repr

structure Evaluation where
  action : String
  resource : String
  decision : String
deriving DecidableEq, Repr

namespace Evaluation

def occursIn (word : List Char) : List Char → Bool
  | [] => word.isEmpty
  | c :: cs => word.isPrefixOf (c :: cs) || occursIn word cs

/-- A decision denies when it has the word `deny` in it, in any case. -/
def isDenied (e : Evaluation) : Bool :=
  occursIn ['d', 'e', 'n', 'y'] (e.decision.toList.map Char.toLower)

def pair (e : Evaluation) : String := e.action ++ ":" ++ e.resource

end Evaluation

/-- A call to the identity service with its answer. -/
inductive Exchange where
  | assumeRole (access : Access) (answer : Except AwsError Session)
  | describeRegions (access : Access) (answer : Except AwsError (List String))
  | callerIdentity (access : Access) (answer : Except AwsError String)
  | simulate (access : Access) (request : SimulationRequest)
      (answer : Except AwsError (List Evaluation))

/-- An identity service, its answers given by the exchanges so far. -/
structure IdentityService where
  assumeRole : List Exchange → Access → Except AwsError Session
  describeRegions : List Exchange → Access → Except AwsError (List String)
  callerIdentity : List Exchange → Access → Except AwsError String
  simulate : List Exchange → Access → SimulationRequest → Except AwsError (List Evaluation)

end ClusterControl.Aws
