import ClusterControl.Config.Settings
import ClusterControl.Yaml.Grammar
import ClusterControl.Yaml.Reading

/-!
# Settings from YAML

A configuration is a mapping of sections, each a mapping of settings. What is not written has its
default, an empty text is all defaults, and unknown names are passed over.
-/

namespace ClusterControl

def FlowSettings.read : Yaml.Reader FlowSettings := fun d n => do
  let s : FlowSettings := {}
  let f ← Yaml.Fields.open? ["acceptance_timeout_secs", "unwired_acceptance"] d n
  some
    { acceptanceTimeoutSecs := ←
        f.withDefault "acceptance_timeout_secs" s.acceptanceTimeoutSecs Yaml.Reader.word
      unwiredAcceptance := ←
        f.withDefault "unwired_acceptance" s.unwiredAcceptance (.oneOf UnwiredPolicy.ofName?) }

def PollingSettings.read : Yaml.Reader PollingSettings := fun d n => do
  let s : PollingSettings := {}
  let f ← Yaml.Fields.open? ["sleep_time_secs", "duration_mins", "stop_on_error"] d n
  some
    { sleepTimeSecs := ← f.withDefault "sleep_time_secs" s.sleepTimeSecs Yaml.Reader.word
      durationMins := ← f.withDefault "duration_mins" s.durationMins Yaml.Reader.word
      stopOnError := ← f.withDefault "stop_on_error" s.stopOnError Yaml.Reader.bool }

def AwsSettings.read : Yaml.Reader AwsSettings := fun d n => do
  let s : AwsSettings := {}
  let f ← Yaml.Fields.open?
    ["credential_policies_json", "government_cloud", "default_region", "account_id"] d n
  some
    { credentialPolicies := ←
        f.withDefault "credential_policies_json" s.credentialPolicies Yaml.Reader.optionalText
      governmentCloud := ← f.withDefault "government_cloud" s.governmentCloud Yaml.Reader.bool
      defaultRegion := ← f.withDefault "default_region" s.defaultRegion Yaml.Reader.text
      accountId := ← f.withDefault "account_id" s.accountId Yaml.Reader.optionalText }

namespace Settings

def read : Yaml.Reader Settings := fun d n => do
  let s : Settings := {}
  let f ← Yaml.Fields.open? ["flow", "polling", "aws"] d n
  some
    { flow := ← f.withDefault "flow" s.flow FlowSettings.read
      polling := ← f.withDefault "polling" s.polling PollingSettings.read
      aws := ← f.withDefault "aws" s.aws AwsSettings.read }

/-- The settings that a text writes, usable or not. -/
def parse? (source : String) : Option Settings := do
  let d ← Yaml.Document.ofText? source.toList
  match d.root with
  | none => some {}
  | some n => read d n

def ofYaml (source path : String) : Except ConfigError Settings :=
  match parse? source with
  | some s => s.validate
  | none => .error (.parse path "not a configuration")

end Settings

end ClusterControl
