import ClusterControl.Config.Settings
import ClusterControl.Credential.Status
import ClusterControl.Proofs.Json.Encoding
import ClusterControl.Stack.Basic

/-!
# Values on the wire

Each decoder inverts the encoding of its type, and the encodings have no number but whole ones of 64
bits. So a value is read back from the text of its encoding, whatever the order of the members. A
value that was read is one of those, whatever text it was read from.
-/

namespace ClusterControl

open Json (Decoder Slots)

namespace Json

/-- A value is read back from the text of its encoding with the members in any order, and from any
other text that writes the encoding. -/
structure ReadsBack {α : Type} (encode : α → Json) (decode : Decoder α) (a : α) : Prop where
  rendered : ∀ k, Reordered (encode a) k → decode.read? k.toText = some a
  written : ∀ text, Writes text (encode a) → decode.read? text = some a

structure RoundTrip {α : Type} (encode : α → Json) (decode : Decoder α) : Prop where
  encoded : ∀ a, ReadsBack encode decode a
  decoded : ∀ text a, decode.read? text = some a → ReadsBack encode decode a

variable {α : Type} {encode : α → Json} {decode : Decoder α} {a : α}

theorem readsBack_of_inverts (plain : (encode a).Plain)
    (inverts : decode.Inverts maxLevels (encode a) a) : ReadsBack encode decode a where
  rendered _ h := inverts.read? (writes_of_reordered plain h)
  written _ h := inverts.read? h

theorem roundTrip_of_inverts (plain : ∀ a, (encode a).Plain)
    (inverts : ∀ a, decode.Inverts maxLevels (encode a) a) : RoundTrip encode decode where
  encoded a := readsBack_of_inverts (plain a) (inverts a)
  decoded _ a _ := readsBack_of_inverts (plain a) (inverts a)

attribute [simp] Plain.null Plain.bool Plain.text

@[simp] theorem plain_nat {n : Nat} (h : n < wordLimit) : (nat n).Plain :=
  .number (by omega) (by omega)

@[simp] theorem plain_word (n : UInt64) : (word n).Plain := plain_nat n.toNat_lt

@[simp] theorem plain_ofOption (o : Option String) : (ofOption o).Plain := by
  cases o <;> simp [ofOption, option]

@[simp] theorem plain_texts (ts : List String) : (texts ts).Plain :=
  .list fun j hj => by
    obtain ⟨t, _, rfl⟩ := List.mem_map.mp hj
    exact .text t

@[simp] theorem plain_ofDuration (d : Duration) : (ofDuration d).Plain := by
  have hnanos : d.nanos < wordLimit := Nat.lt_trans d.nanos_lt (by decide)
  exact .object (by simp [hnanos, d.secs_lt])

/-- A word of 64 bits. -/
theorem Decoder.inverts_word {levels : Nat} (n : UInt64) :
    Decoder.Inverts (fun levels s => (Decoder.word levels s).map .ofNat) levels (.word n) n := by
  intro s h
  have hword : Decoder.word levels s = some n.toNat := inverts_natBelow n.toNat_lt s h
  simp only [hword, Option.map_some, UInt64.ofNat_toNat]

end Json

variable {levels : Nat}

namespace Resource

theorem plain_encode (r : Resource) : r.encode.Plain := .object (by simp)

theorem inverts_decode (r : Resource) : decode.Inverts (levels + 1) r.encode r := by
  intro s h
  refine Slots.bind_open?_of_written h (by simp) (by simp) fun slots hslots => ?_
  have hid : slots.required "id" .text = some r.id :=
    hslots.required (by simp) (Decoder.inverts_text _)
  have hname : slots.required "name" .text = some r.name :=
    hslots.required (by simp) (Decoder.inverts_text _)
  have hstatus : slots.required "status" ResourceStatus.decode = some r.status :=
    hslots.required (by simp) (Decoder.inverts_oneOf r.status.ofName?_name)
  simp only [hid, hname, hstatus, Option.bind_eq_bind, Option.bind_some]

end Resource

namespace Credential

/-- The parameters have no doubles and are nested so that a credential around them can be read. They
are held as members always are, each name once and in ascending order. -/
structure Writable (c : Credential) : Prop where
  whole : Json.Whole (.object c.parameters)
  held : Json.Held (Json.maxLevels - 1) (.object c.parameters)

variable {c : Credential}

theorem plain_encode (plain : Json.Plain (.object c.parameters)) : c.encode.Plain :=
  .object (by simp [plain])

theorem inverts_decode (held : Json.Held levels (.object c.parameters)) :
    decode.Inverts (levels + 1) c.encode c := by
  intro s h
  refine Slots.bind_open?_of_written h (by simp) (by simp) fun slots hslots => ?_
  have hcrn : slots.required "crn" .text = some c.crn :=
    hslots.required (by simp) (Decoder.inverts_text _)
  have hname : slots.required "name" .text = some c.name :=
    hslots.required (by simp) (Decoder.inverts_text _)
  have hplatform : slots.required "platform" Platform.decode = some c.platform :=
    hslots.required (by simp) (Decoder.inverts_oneOf c.platform.ofName?_name)
  have hparameters : slots.withDefault "parameters" [] .members = some c.parameters :=
    hslots.withDefault (by simp) (Decoder.inverts_members held)
  simp only [hcrn, hname, hplatform, hparameters, Option.bind_eq_bind, Option.bind_some]

theorem readsBack (h : c.Writable) : Json.ReadsBack encode decode c :=
  Json.readsBack_of_inverts (plain_encode (h.held.plain h.whole)) (inverts_decode h.held)

/-- The parameters that were read are nested one level less than the text may be. -/
theorem held_of_decode {s : Json.Syntax} (h : decode (levels + 2) s = some c) :
    Json.Held (levels + 1) (.object c.parameters) := by
  obtain ⟨slots, hslots, h⟩ := Option.bind_eq_some_iff.mp h
  obtain ⟨crn, _, h⟩ := Option.bind_eq_some_iff.mp h
  obtain ⟨name, _, h⟩ := Option.bind_eq_some_iff.mp h
  obtain ⟨platform, _, h⟩ := Option.bind_eq_some_iff.mp h
  obtain ⟨parameters, hparameters, h⟩ := Option.bind_eq_some_iff.mp h
  cases h
  have hlevels : slots.levels = levels + 1 := by
    simpa using (Slots.get?_of_open? hslots (List.mem_cons_self)).2.symm
  unfold Slots.withDefault at hparameters
  split at hparameters
  next x _ => exact Decoder.held_of_members (hlevels ▸ hparameters)
  next =>
    cases hparameters
    exact .object List.Pairwise.nil (by simp)

theorem readsBack_of_read {text : String} (h : decode.read? text = some c)
    (whole : Json.Whole (.object c.parameters)) : Json.ReadsBack encode decode c := by
  obtain ⟨s, _, hdecode⟩ := Option.bind_eq_some_iff.mp h
  exact readsBack ⟨whole, held_of_decode hdecode⟩

end Credential

namespace CredentialStatus

theorem plain_encode (s : CredentialStatus) : s.encode.Plain := by
  unfold encode
  cases s.missing.isEmpty <;> exact .object (by simp)

/-- The members that are always there, and the list of missing permissions unless it is empty. -/
theorem exists_members (s : CredentialStatus) : ∃ ms, s.encode = .object ms ∧
    (ms.map (·.1)).Nodup ∧
    (∀ m ∈ ms, m.1 ∈ ["credential_crn", "state", "reason", "cause", "missing_permissions"]) ∧
    ("credential_crn", .text s.crn) ∈ ms ∧ ("state", .text s.state.name) ∈ ms ∧
    ("reason", Json.ofOption s.reason) ∈ ms ∧ ("cause", Json.ofOption s.cause) ∈ ms ∧
    (("missing_permissions", .texts s.missing) ∈ ms ∨
      s.missing = [] ∧ "missing_permissions" ∉ ms.map (·.1)) := by
  unfold encode
  cases s.missing <;> exact ⟨_, rfl, by simp⟩

theorem inverts_decode (s : CredentialStatus) : decode.Inverts (levels + 2) s.encode s := by
  intro tree h
  obtain ⟨ms, hms, distinct, known, crn, state, reason, cause, missing⟩ := s.exists_members
  rw [hms] at h
  refine Slots.bind_open?_of_written h distinct known fun slots hslots => ?_
  have hcrn : slots.required "credential_crn" .text = some s.crn :=
    hslots.required crn (Decoder.inverts_text _)
  have hstate : slots.required "state" CredentialState.decode = some s.state :=
    hslots.required state (Decoder.inverts_oneOf s.state.ofName?_name)
  have hreason : slots.optional "reason" .text = some s.reason :=
    hslots.optional reason (Decoder.inverts_ofOption _)
  have hcause : slots.optional "cause" .text = some s.cause :=
    hslots.optional cause (Decoder.inverts_ofOption _)
  have hmissing : slots.withDefault "missing_permissions" [] (.listOf .text) = some s.missing := by
    rcases missing with missing | ⟨hempty, absent⟩
    · exact hslots.withDefault missing (Decoder.inverts_texts _)
    · rw [hempty]
      exact hslots.withDefault_absent (by simp) absent
  simp only [hcrn, hstate, hreason, hcause, hmissing, Option.bind_eq_bind, Option.bind_some]

end CredentialStatus

namespace Prerequisites

theorem plain_encode (p : Prerequisites) : p.encode.Plain := .object (by simp)

theorem inverts_decode (p : Prerequisites) : decode.Inverts (levels + 1) p.encode p := by
  intro s h
  refine Slots.bind_open?_of_written h (by simp) (by simp) fun slots hslots => ?_
  have hplatform : slots.required "platform" Platform.decode = some p.platform :=
    hslots.required (by simp) (Decoder.inverts_oneOf p.platform.ofName?_name)
  have haccount : slots.optional "account_id" .text = some p.accountId :=
    hslots.optional (by simp) (Decoder.inverts_ofOption _)
  have hexternal : slots.required "external_id" .text = some p.externalId :=
    hslots.required (by simp) (Decoder.inverts_text _)
  have hpolicy : slots.optional "policy_json" .text = some p.policy :=
    hslots.optional (by simp) (Decoder.inverts_ofOption _)
  simp only [hplatform, haccount, hexternal, hpolicy, Option.bind_eq_bind, Option.bind_some]

end Prerequisites

namespace StackView

theorem plain_encode (v : StackView) : v.encode.Plain := .object (by simp)

theorem inverts_decode (v : StackView) : decode.Inverts (levels + 1) v.encode v := by
  intro s h
  refine Slots.bind_open?_of_written h (by simp) (by simp) fun slots hslots => ?_
  have hstack : slots.required "stack_status" StackStatus.decode = some v.stackStatus :=
    hslots.required (by simp) (Decoder.inverts_oneOf v.stackStatus.ofName?_name)
  have hstackReason : slots.optional "stack_reason" .text = some v.stackReason :=
    hslots.optional (by simp) (Decoder.inverts_ofOption _)
  have hcluster : slots.required "cluster_status" StackStatus.decode = some v.clusterStatus :=
    hslots.required (by simp) (Decoder.inverts_oneOf v.clusterStatus.ofName?_name)
  have hclusterReason : slots.optional "cluster_reason" .text = some v.clusterReason :=
    hslots.optional (by simp) (Decoder.inverts_ofOption _)
  simp only [hstack, hstackReason, hcluster, hclusterReason, Option.bind_eq_bind, Option.bind_some]

end StackView

namespace RepairRequest

theorem plain_encode (r : RepairRequest) : r.encode.Plain := .object (by simp)

theorem inverts_decode (r : RepairRequest) : decode.Inverts (levels + 2) r.encode r := by
  intro s h
  refine Slots.bind_open?_of_written h (by simp) (by simp) fun slots hslots => ?_
  have hgroups : slots.required "host_groups" (.listOf .text) = some r.hostGroups :=
    hslots.required (by simp) (Decoder.inverts_texts _)
  simp only [hgroups, Option.bind_eq_bind, Option.bind_some]

end RepairRequest

namespace Payload

theorem plain_encode (p : Payload) : p.encode.Plain := by
  cases p with
  | none => exact .text "None"
  | repair r => exact .object (by simp [r.plain_encode])

theorem inverts_decode (p : Payload) : decode.Inverts (levels + 3) p.encode p := by
  intro s h
  cases p with
  | none =>
    cases h with
    | text spelled => simp only [decode, spelled]
  | repair r =>
    cases h with
    | object order members =>
      rw [List.perm_singleton.mp order] at members
      obtain ⟨⟨ps, t⟩, ns, hmember, hrest, rfl⟩ := List.forall₂_cons_left_iff.mp members
      cases hrest
      cases hmember with
      | mk spelled value =>
        have hread : RepairRequest.decode (levels + 2) t = some r := r.inverts_decode t value
        simp only [decode, spelled, Option.bind_eq_bind, Option.bind_some, hread, Option.map_some]

end Payload

namespace PollConfig

theorem plain_encode (c : PollConfig) : c.encode.Plain := .object (by simp)

theorem inverts_decode (c : PollConfig) : decode.Inverts (levels + 2) c.encode c := by
  intro s h
  refine Slots.bind_open?_of_written h (by simp) (by simp) fun slots hslots => ?_
  have hinterval : slots.required "interval" .duration = some c.interval :=
    hslots.required (by simp) (Decoder.inverts_duration _)
  have hdeadline : slots.required "deadline" .duration = some c.deadline :=
    hslots.required (by simp) (Decoder.inverts_duration _)
  have hstop : slots.required "stop_on_exception" .bool = some c.stopOnFailure :=
    hslots.required (by simp) (Decoder.inverts_bool _)
  simp only [hinterval, hdeadline, hstop, Option.bind_eq_bind, Option.bind_some]

end PollConfig

namespace FlowSettings

theorem plain_encode (s : FlowSettings) : s.encode.Plain := .object (by simp)

theorem inverts_decode (s : FlowSettings) : decode.Inverts (levels + 1) s.encode s := by
  intro tree h
  refine Slots.bind_open?_of_written h (by simp) (by simp) fun slots hslots => ?_
  have htimeout : slots.withDefault "acceptance_timeout_secs" 10
      (fun levels s => (Decoder.word levels s).map .ofNat) = some s.acceptanceTimeoutSecs :=
    hslots.withDefault (by simp) (Decoder.inverts_word _)
  have hunwired : slots.withDefault "unwired_acceptance" .reject UnwiredPolicy.decode =
      some s.unwiredAcceptance :=
    hslots.withDefault (by simp) (Decoder.inverts_oneOf s.unwiredAcceptance.ofName?_name)
  simp only [htimeout, hunwired, Option.bind_eq_bind, Option.bind_some]

end FlowSettings

namespace PollingSettings

theorem plain_encode (s : PollingSettings) : s.encode.Plain := .object (by simp)

theorem inverts_decode (s : PollingSettings) : decode.Inverts (levels + 1) s.encode s := by
  intro tree h
  refine Slots.bind_open?_of_written h (by simp) (by simp) fun slots hslots => ?_
  have hsleep : slots.withDefault "sleep_time_secs" 10
      (fun levels s => (Decoder.word levels s).map .ofNat) = some s.sleepTimeSecs :=
    hslots.withDefault (by simp) (Decoder.inverts_word _)
  have hduration : slots.withDefault "duration_mins" 60
      (fun levels s => (Decoder.word levels s).map .ofNat) = some s.durationMins :=
    hslots.withDefault (by simp) (Decoder.inverts_word _)
  have hstop : slots.withDefault "stop_on_error" true .bool = some s.stopOnError :=
    hslots.withDefault (by simp) (Decoder.inverts_bool _)
  simp only [hsleep, hduration, hstop, Option.bind_eq_bind, Option.bind_some]

end PollingSettings

namespace AwsSettings

theorem plain_encode (s : AwsSettings) : s.encode.Plain := .object (by simp)

theorem inverts_decode (s : AwsSettings) : decode.Inverts (levels + 1) s.encode s := by
  intro tree h
  refine Slots.bind_open?_of_written h (by simp) (by simp) fun slots hslots => ?_
  have hpolicies : slots.withDefault "credential_policies_json" none (.nullable .text) =
      some s.credentialPolicies :=
    hslots.withDefault (by simp) (Decoder.inverts_ofOption _)
  have hgovernment : slots.withDefault "government_cloud" false .bool = some s.governmentCloud :=
    hslots.withDefault (by simp) (Decoder.inverts_bool _)
  have hregion : slots.withDefault "default_region" "us-west-1" .text = some s.defaultRegion :=
    hslots.withDefault (by simp) (Decoder.inverts_text _)
  have haccount : slots.withDefault "account_id" none (.nullable .text) = some s.accountId :=
    hslots.withDefault (by simp) (Decoder.inverts_ofOption _)
  simp only [hpolicies, hgovernment, hregion, haccount, Option.bind_eq_bind, Option.bind_some]

end AwsSettings

namespace Settings

theorem plain_encode (s : Settings) : s.encode.Plain :=
  .object (by simp [s.flow.plain_encode, s.polling.plain_encode, s.aws.plain_encode])

theorem inverts_decode (s : Settings) : decode.Inverts (levels + 2) s.encode s := by
  intro tree h
  refine Slots.bind_open?_of_written h (by simp) (by simp) fun slots hslots => ?_
  have hflow : slots.withDefault "flow" {} FlowSettings.decode = some s.flow :=
    hslots.withDefault (by simp) s.flow.inverts_decode
  have hpolling : slots.withDefault "polling" {} PollingSettings.decode = some s.polling :=
    hslots.withDefault (by simp) s.polling.inverts_decode
  have haws : slots.withDefault "aws" {} AwsSettings.decode = some s.aws :=
    hslots.withDefault (by simp) s.aws.inverts_decode
  simp only [hflow, hpolling, haws, Option.bind_eq_bind, Option.bind_some]

end Settings

/-- Values go to the wire and back. Each type's encoding is read as the value that was encoded, in
whatever order its members are written. A value that was read from any text, whatever form the text
has, is then written and read as the same value. The parameters of a credential are held to whole
numbers and to the nesting that a text may have; those that were read never nest too deep. -/
theorem wire_round_trip :
    Json.RoundTrip Resource.encode Resource.decode ∧
    Json.RoundTrip CredentialStatus.encode CredentialStatus.decode ∧
    Json.RoundTrip Prerequisites.encode Prerequisites.decode ∧
    Json.RoundTrip StackView.encode StackView.decode ∧
    Json.RoundTrip Payload.encode Payload.decode ∧
    Json.RoundTrip RepairRequest.encode RepairRequest.decode ∧
    Json.RoundTrip PollConfig.encode PollConfig.decode ∧
    Json.RoundTrip Settings.encode Settings.decode ∧
    (∀ c : Credential, c.Writable → Json.ReadsBack Credential.encode Credential.decode c) ∧
    ∀ text c, Credential.decode.read? text = some c → Json.Whole (.object c.parameters) →
      Json.ReadsBack Credential.encode Credential.decode c :=
  ⟨Json.roundTrip_of_inverts Resource.plain_encode Resource.inverts_decode,
    Json.roundTrip_of_inverts CredentialStatus.plain_encode CredentialStatus.inverts_decode,
    Json.roundTrip_of_inverts Prerequisites.plain_encode Prerequisites.inverts_decode,
    Json.roundTrip_of_inverts StackView.plain_encode StackView.inverts_decode,
    Json.roundTrip_of_inverts Payload.plain_encode Payload.inverts_decode,
    Json.roundTrip_of_inverts RepairRequest.plain_encode RepairRequest.inverts_decode,
    Json.roundTrip_of_inverts PollConfig.plain_encode PollConfig.inverts_decode,
    Json.roundTrip_of_inverts Settings.plain_encode Settings.inverts_decode,
    fun _ => Credential.readsBack, fun _ _ => Credential.readsBack_of_read⟩

def Credential.limited : Credential where
  crn := "crn:cred:3"
  name := "two\nlines"
  platform := .aws
  parameters := [("limits", .object [("least", .number (.whole (-5)))]), ("regions", .texts ["eu"])]

theorem Credential.writable_limited : limited.Writable where
  whole := .object (by
    simp only [limited, List.forall_mem_cons]
    exact ⟨.object (by simp [Json.Whole.number]), .list (by simp [Json.Whole.text]), by simp⟩)
  held := .object (by decide) (by
    have hleast : Json.Held 124 (.number (.whole (-5))) := .whole (by decide) (by decide)
    simp only [limited, List.forall_mem_cons]
    exact ⟨.object (by decide) (by simp [hleast]), .list (by simp [Json.Held.text]), by simp⟩)

def Credential.listed : String := "[\"crn:cred:4\", \"\\u0064ev\", \x7b\"AWS\": null\x7d]"

theorem wire_round_trip_limited : Credential.limited.Writable ∧
    Credential.decode.read? Credential.limited.encode.toText = some Credential.limited ∧
    ∃ c, Credential.decode.read? Credential.listed = some c ∧ c.name = "dev" ∧
      Json.ReadsBack Credential.encode Credential.decode c := by
  obtain ⟨_, _, _, _, _, _, _, _, hencoded, hdecoded⟩ := wire_round_trip
  have hlimited := (hencoded _ Credential.writable_limited).rendered _ (.same _)
  have hread : (Credential.decode.read? Credential.listed).map
      (fun c => (c.name, c.parameters.length)) = some ("dev", 0) := by decide +kernel
  obtain ⟨c, hc, hname⟩ := Option.map_eq_some_iff.mp hread
  obtain ⟨hname, hempty⟩ := Prod.mk.inj hname
  have hwhole : Json.Whole (.object c.parameters) := by
    rw [List.eq_nil_of_length_eq_zero hempty]
    exact .object (by simp)
  exact ⟨Credential.writable_limited, hlimited, c, hc, hname, hdecoded _ c hc hwhole⟩

end ClusterControl
