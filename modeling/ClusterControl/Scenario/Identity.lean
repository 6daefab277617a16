import ClusterControl.Aws.Identity

/-!
# A scripted identity service

Each call has one answer or one error. A simulation decides by the first rule that fits an action
and the resource of the request, and may add results of its own.
-/

namespace ClusterControl.Scenario

open Aws

structure Rule where
  action : Option String
  resource : Option String
  decision : String

def Rule.fits (r : Rule) (action resource : String) : Bool :=
  r.action.all (· == action) && r.resource.all (· == resource)

structure Identity where
  session : Except AwsError Session
  regions : Except AwsError (List String)
  caller : Except AwsError String
  rules : List Rule
  extra : List Evaluation
  /-- The error of simulations, for one resource when it names one. -/
  failure : Option (AwsError × Option String)

namespace Identity

def decide (s : Identity) (resource action : String) : Evaluation :=
  match s.rules.find? (·.fits action resource) with
  | some r => ⟨action, resource, r.decision⟩
  | none => ⟨action, resource, "allowed"⟩

def simulate (s : Identity) (request : SimulationRequest) : Except AwsError (List Evaluation) :=
  match s.failure with
  | some (e, resource) =>
    if resource.all (· == request.resource) then .error e
    else .ok (request.actions.map (s.decide request.resource) ++ s.extra)
  | none => .ok (request.actions.map (s.decide request.resource) ++ s.extra)

def service (s : Identity) : IdentityService where
  assumeRole _ _ := s.session
  describeRegions _ _ := s.regions
  callerIdentity _ _ := s.caller
  simulate _ _ request := s.simulate request

end Identity

end ClusterControl.Scenario
