import ClusterControl.Config.Error
import ClusterControl.Flow.Request

/-!
# Settings of the control plane

Every setting has a default, so that a configuration names only what differs. Settings are accepted
when the timeouts are positive and a poll has the time for at least one pause.
-/

namespace ClusterControl

structure FlowSettings where
  /-- Seconds that a requester waits for its acceptance. -/
  acceptanceTimeoutSecs : UInt64 := 10
  unwiredAcceptance : UnwiredPolicy := .reject
deriving DecidableEq

structure PollingSettings where
  sleepTimeSecs : UInt64 := 10
  durationMins : UInt64 := 60
  stopOnError : Bool := true
deriving DecidableEq

structure AwsSettings where
  /-- The policy that names the required actions, in Base64; there is one built in. -/
  credentialPolicies : Option String := none
  governmentCloud : Bool := false
  defaultRegion : String := "us-west-1"
  /-- The account that assumes the roles. -/
  accountId : Option String := none
deriving DecidableEq

structure Settings where
  flow : FlowSettings := {}
  polling : PollingSettings := {}
  aws : AwsSettings := {}
deriving DecidableEq

def Json.word (n : UInt64) : Json := .nat n.toNat

namespace FlowSettings

def encode (s : FlowSettings) : Json :=
  .object [("acceptance_timeout_secs", .word s.acceptanceTimeoutSecs),
    ("unwired_acceptance", .text s.unwiredAcceptance.name)]

def decode : Json.Decoder FlowSettings := fun levels s => do
  let d : FlowSettings := {}
  let slots ← Json.Slots.open? false ["acceptance_timeout_secs", "unwired_acceptance"] levels s
  let acceptanceTimeoutSecs ← slots.withDefault "acceptance_timeout_secs" d.acceptanceTimeoutSecs
    fun levels s => (Json.Decoder.word levels s).map .ofNat
  let unwiredAcceptance ← slots.withDefault "unwired_acceptance" d.unwiredAcceptance
    UnwiredPolicy.decode
  some ⟨acceptanceTimeoutSecs, unwiredAcceptance⟩

end FlowSettings

namespace PollingSettings

def encode (s : PollingSettings) : Json :=
  .object [("duration_mins", .word s.durationMins), ("sleep_time_secs", .word s.sleepTimeSecs),
    ("stop_on_error", .bool s.stopOnError)]

def decode : Json.Decoder PollingSettings := fun levels s => do
  let d : PollingSettings := {}
  let slots ← Json.Slots.open? false ["sleep_time_secs", "duration_mins", "stop_on_error"] levels s
  let sleepTimeSecs ← slots.withDefault "sleep_time_secs" d.sleepTimeSecs
    fun levels s => (Json.Decoder.word levels s).map .ofNat
  let durationMins ← slots.withDefault "duration_mins" d.durationMins
    fun levels s => (Json.Decoder.word levels s).map .ofNat
  let stopOnError ← slots.withDefault "stop_on_error" d.stopOnError .bool
  some ⟨sleepTimeSecs, durationMins, stopOnError⟩

end PollingSettings

namespace AwsSettings

def encode (s : AwsSettings) : Json :=
  .object [("account_id", Json.ofOption s.accountId),
    ("credential_policies_json", Json.ofOption s.credentialPolicies),
    ("default_region", .text s.defaultRegion), ("government_cloud", .bool s.governmentCloud)]

def decode : Json.Decoder AwsSettings := fun levels s => do
  let d : AwsSettings := {}
  let slots ← Json.Slots.open? false
    ["credential_policies_json", "government_cloud", "default_region", "account_id"] levels s
  let credentialPolicies ← slots.withDefault "credential_policies_json" d.credentialPolicies
    (.nullable .text)
  let governmentCloud ← slots.withDefault "government_cloud" d.governmentCloud .bool
  let defaultRegion ← slots.withDefault "default_region" d.defaultRegion .text
  let accountId ← slots.withDefault "account_id" d.accountId (.nullable .text)
  some ⟨credentialPolicies, governmentCloud, defaultRegion, accountId⟩

end AwsSettings

namespace Settings

def encode (s : Settings) : Json :=
  .object [("aws", s.aws.encode), ("flow", s.flow.encode), ("polling", s.polling.encode)]

def decode : Json.Decoder Settings := fun levels s => do
  let d : Settings := {}
  let slots ← Json.Slots.open? false ["flow", "polling", "aws"] levels s
  let flow ← slots.withDefault "flow" d.flow FlowSettings.decode
  let polling ← slots.withDefault "polling" d.polling PollingSettings.decode
  let aws ← slots.withDefault "aws" d.aws AwsSettings.decode
  some ⟨flow, polling, aws⟩

def positive : String := "0 より大きい値を指定してください"

def fault? (s : Settings) : Option ConfigError :=
  if s.flow.acceptanceTimeoutSecs = 0 then
    some (.invalidValue "flow.acceptance_timeout_secs" positive)
  else if s.polling.sleepTimeSecs = 0 then
    some (.invalidValue "polling.sleep_time_secs" positive)
  else if wordLimit ≤ s.polling.durationMins.toNat * 60 then
    some (.invalidValue "polling.duration_mins" "期限が大きすぎます")
  else if s.polling.durationMins.toNat * 60 < s.polling.sleepTimeSecs.toNat then
    some (.invalidValue "polling.duration_mins" "ポーリング間隔より短い期限は指定できません")
  else none

def validate (s : Settings) : Except ConfigError Settings :=
  match s.fault? with
  | some e => .error e
  | none => .ok s

def dispatcherConfig (s : Settings) : DispatcherConfig :=
  ⟨.ofSecs s.flow.acceptanceTimeoutSecs.toNat, s.flow.unwiredAcceptance⟩

/-- The deadline is cut at the longest duration of whole seconds. -/
def pollConfig (s : Settings) : PollConfig :=
  ⟨.ofSecs s.polling.sleepTimeSecs.toNat, .ofSecs (s.polling.durationMins.toNat * 60),
    s.polling.stopOnError⟩

end Settings

end ClusterControl
