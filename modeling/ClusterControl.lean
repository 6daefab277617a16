import ClusterControl.Json.Writer
import ClusterControl.Plane.Run
import ClusterControl.Proofs.Aws.Connector
import ClusterControl.Proofs.Aws.PolicyMerge
import ClusterControl.Proofs.Aws.PolicyText
import ClusterControl.Proofs.Aws.Secrets
import ClusterControl.Proofs.Config.Lookup
import ClusterControl.Proofs.Config.Usable
import ClusterControl.Proofs.Credential.Decoding
import ClusterControl.Proofs.Flow.Admission
import ClusterControl.Proofs.Flow.Answers
import ClusterControl.Proofs.Flow.Bus
import ClusterControl.Proofs.Flow.Isolation
import ClusterControl.Proofs.Flow.Relay
import ClusterControl.Proofs.Flow.Release
import ClusterControl.Proofs.Plane.Credentials
import ClusterControl.Proofs.Plane.Deployment
import ClusterControl.Proofs.Plane.Lifecycle
import ClusterControl.Proofs.Plane.Occupancy
import ClusterControl.Proofs.Poll.Bounds
import ClusterControl.Proofs.Poll.ClosedForm
import ClusterControl.Proofs.Poll.Limits
import ClusterControl.Proofs.Stack.Outcome
import ClusterControl.Proofs.Wire
import ClusterControl.Scenario.Bus
import ClusterControl.Scenario.Files
import ClusterControl.Scenario.Handlers
import ClusterControl.Scenario.Identity
import ClusterControl.Scenario.Polls
