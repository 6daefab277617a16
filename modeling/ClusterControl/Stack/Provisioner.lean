import ClusterControl.Poll.Basic
import ClusterControl.Resource
import ClusterControl.Stack.Basic

/-!
# Provisioners

A provisioner carries out requests that change the stack of a resource, and shows the stack. Both
take their time, or for ever. What it answers may depend on the requests before.
-/

namespace ClusterControl

inductive ProvisionerError where
  | stackNotFound (name : String)
  | client (text : String)
deriving DecidableEq, Repr

def ProvisionerError.message : ProvisionerError → String
  | stackNotFound name => "Stack not found for " ++ name
  | client text => text

/-- What a provisioner can be asked to do with a stack. -/
inductive StackRequest where
  | create
  | repair (hostGroups : List String)
  | delete
deriving DecidableEq, Repr

/-- A call to a provisioner. -/
inductive StackCall where
  | status (resource : Resource)
  | request (resource : Resource) (request : StackRequest)
deriving DecidableEq, Repr

def StackCall.resource : StackCall → Resource
  | status r => r
  | request r _ => r

/-- A provisioner whose answers depend on a state of its own. The status of a stack also depends on
the number of the attempt and on the instant of the call. -/
structure Provisioner (σ : Type) where
  request : σ → Instant → Resource → StackRequest → Reply ProvisionerError Unit × σ
  status : σ → Resource → Nat → Instant → Reply Failure (Option StackView)

end ClusterControl
