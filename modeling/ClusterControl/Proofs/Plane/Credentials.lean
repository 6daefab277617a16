import ClusterControl.Plane.Run
import ClusterControl.Proofs.Aws.Connector
import Mathlib.Data.List.Forall2

/-!
# What is reported of a credential

A status is made in one of a few ways, whatever the parameters of the credential are and whatever
the identity service answers. So its parts always go together: what is missing, the reason and the
cause belong to the state. An operation fails only where the platform is not enabled, and then
nothing is asked of the service.
-/

namespace ClusterControl

namespace CredentialStatus

structure WellFormed (s : CredentialStatus) (crn : String) : Prop where
  crn_eq : s.crn = crn
  missing_iff : s.state = .permissionsMissing ↔ s.missing ≠ []
  reason_iff : s.reason.isSome ↔ s.state = .failed ∨ s.state = .permissionsMissing
  failed_of_cause : s.cause.isSome → s.state = .failed

inductive Verdict (c : Credential) : CredentialStatus → Prop
  | verified : Verdict c (.verified c)
  | failed (reason : String) (cause : Option String) : Verdict c (.failed c reason cause)
  | permissionsMissing {m : MissingPermissions} (h : m.denied ≠ []) :
      Verdict c (.permissionsMissing c m)

theorem wellFormed_created (c : Credential) : (created c).WellFormed c.crn := by
  constructor <;> simp [created]

theorem wellFormed_deleted (c : Credential) : (deleted c).WellFormed c.crn := by
  constructor <;> simp [deleted]

namespace Verdict

variable {c : Credential} {s : CredentialStatus}

theorem wellFormed (h : Verdict c s) : s.WellFormed c.crn := by
  cases h with
  | verified => constructor <;> simp [CredentialStatus.verified]
  | failed => constructor <;> simp [CredentialStatus.failed]
  | permissionsMissing h => constructor <;> simp [CredentialStatus.permissionsMissing, h]

theorem state_mem (h : Verdict c s) :
    s.state ∈ [CredentialState.verified, .failed, .permissionsMissing] := by
  cases h <;> simp [CredentialStatus.verified, CredentialStatus.failed,
    CredentialStatus.permissionsMissing]

end Verdict

end CredentialStatus

theorem MissingPermissions.denied_ne_nil {denied : List String} {m : MissingPermissions}
    (h : MissingPermissions.ofDenied? denied = some m) : m.denied ≠ [] := by
  unfold MissingPermissions.ofDenied? at h
  split at h
  next => cases h
  next hdenied =>
    cases h
    simpa using hdenied

theorem Mock.verdict_verify (c : Credential) : CredentialStatus.Verdict c (Mock.verify c) := by
  unfold Mock.verify
  split
  next => exact .failed _ _
  next =>
    split
    next hm => exact .permissionsMissing (MissingPermissions.denied_ne_nil hm)
    next => exact .verified
  next => exact .verified

theorem Aws.Connector.verdict_verify (k : Aws.Connector) (service : Aws.IdentityService)
    (c : Credential) (log : List Aws.Exchange) :
    CredentialStatus.Verdict c (k.verify service c log).1 := by
  by_cases hnamed : ∃ m, c.Names m
  · obtain ⟨m, hm⟩ := hnamed
    obtain ⟨_, _, _, _, report, _, hstatus⟩ := k.verify_named service log hm
    rw [hstatus]
    cases report with
    | error rejection => exact .failed _ _
    | ok denied =>
      rw [Except.map, Aws.statusOf_ofDenied]
      split
      next => exact .verified
      next hdenied => exact .permissionsMissing hdenied
  · obtain ⟨_, reason, hstatus⟩ := k.verify_unnamed service log fun m hm => hnamed ⟨m, hm⟩
    rw [hstatus]
    exact .failed _ _

namespace Connectors

variable {k : Connectors} {service : Aws.IdentityService} {c : Credential} {s : CredentialStatus}
  {log : List Aws.Exchange} {e : PlaneError} {states : List CredentialState}

/-- The mock platform always has a connector. -/
theorem mem_enabled {p : Platform} : p ∈ k.enabled ↔ p = .mock ∨ k.aws.isSome = true := by
  unfold enabled
  cases k.aws <;> cases p <;> simp

/-- The result of an operation: a status in one of the states of the operation whose parts go
together, or the error that the platform is not enabled. -/
def Answers (k : Connectors) (c : Credential) (states : List CredentialState) :
    Except PlaneError CredentialStatus → Prop
  | .ok s => c.platform ∈ k.enabled ∧ s.WellFormed c.crn ∧ s.state ∈ states
  | .error e => c.platform ∉ k.enabled ∧ e = .platformNotEnabled c.platform

theorem answers_guarded (hs : s.WellFormed c.crn) (hstate : s.state ∈ states) :
    k.Answers c states (k.guarded c.platform s) := by
  unfold guarded
  split
  next h => exact ⟨List.contains_iff_mem.mp h, hs, hstate⟩
  next h => exact ⟨fun hmem => h (List.contains_iff_mem.mpr hmem), rfl⟩

theorem answers_verify (k : Connectors) (service : Aws.IdentityService) (c : Credential)
    (log : List Aws.Exchange) :
    k.Answers c [.verified, .failed, .permissionsMissing] (k.verify service c log).1 := by
  unfold verify
  split
  next hp =>
    have hverdict := Mock.verdict_verify c
    exact ⟨mem_enabled.mpr (.inl hp), hverdict.wellFormed, hverdict.state_mem⟩
  next hp hk => exact ⟨by simp [mem_enabled, hp, hk], by rw [hp]⟩
  next connector hp hk =>
    have hverdict := connector.verdict_verify service c log
    exact ⟨mem_enabled.mpr (.inr (by rw [hk]; rfl)), hverdict.wellFormed, hverdict.state_mem⟩

/-- Without a connector there is nothing that could ask the service. -/
theorem log_verify (h : c.platform ∉ k.enabled) : (k.verify service c log).2 = log := by
  unfold verify
  split
  next => rfl
  next => rfl
  next connector hp hk => exact absurd (mem_enabled.mpr (.inr (by rw [hk]; rfl))) h

end Connectors

namespace CredentialStep

variable {k : Connectors} {service : Aws.IdentityService} {log : List Aws.Exchange}

def platform : CredentialStep → Platform
  | create c | verify c | delete c => c.platform
  | prerequisites p _ => p

def Reports (k : Connectors) : CredentialStep → CredentialReport → Prop
  | create c, .status result => k.Answers c [.created] result
  | verify c, .status result => k.Answers c [.verified, .failed, .permissionsMissing] result
  | delete c, .status result => k.Answers c [.deleted] result
  | prerequisites p _, .prerequisites result =>
    match result with
    | .ok given => p ∈ k.enabled ∧ given.platform = p
    | .error e => p ∉ k.enabled ∧ e = .platformNotEnabled p
  | _, _ => False

theorem reports_act (k : Connectors) (service : Aws.IdentityService) (log : List Aws.Exchange)
    (step : CredentialStep) : step.Reports k (step.act k service log).1 := by
  cases step with
  | create c =>
    exact Connectors.answers_guarded (CredentialStatus.wellFormed_created c) (List.mem_singleton_self _)
  | delete c =>
    exact Connectors.answers_guarded (CredentialStatus.wellFormed_deleted c) (List.mem_singleton_self _)
  | verify c => exact k.answers_verify service c log
  | prerequisites p externalId =>
    cases hk : k.aws <;> cases p <;>
      simp [act, Reports, Connectors.prerequisites, Connectors.mem_enabled, hk, Mock.prerequisites,
        Aws.Connector.prerequisites]

theorem log_act {step : CredentialStep} (h : step.platform ∉ k.enabled) :
    (step.act k service log).2 = log := by
  cases step with
  | create | delete | prerequisites => rfl
  | verify c => exact Connectors.log_verify h

/-- The reports of a list of steps. -/
theorem reports_run (k : Connectors) (service : Aws.IdentityService) (log : List Aws.Exchange)
    (steps : List CredentialStep) : List.Forall₂ (Reports k) steps (run k service log steps).1 := by
  induction steps generalizing log with
  | nil => exact .nil
  | cons step rest ih => exact .cons (reports_act k service log step) (ih _)

theorem log_run {steps : List CredentialStep} (h : ∀ step ∈ steps, step.platform ∉ k.enabled) :
    (run k service log steps).2 = log := by
  induction steps generalizing log with
  | nil => rfl
  | cons step rest ih =>
    obtain ⟨hstep, hrest⟩ := List.forall_mem_cons.mp h
    exact (ih hrest).trans (log_act hstep)

/-- Whatever a credential holds and whatever the service answers: in every run, each operation on a
credential reports a status whose parts go together, in a state of the operation, or, just when the
platform has no connector, the error that it is not enabled. Then the service is not asked. -/
theorem statuses_wellFormed (k : Connectors) (service : Aws.IdentityService)
    (log : List Aws.Exchange) :
    (∀ step : CredentialStep, step.Reports k (step.act k service log).1 ∧
      (step.platform ∉ k.enabled → (step.act k service log).2 = log)) ∧
    ∀ steps : List CredentialStep,
      List.Forall₂ (Reports k) steps (run k service log steps).1 ∧
      ((∀ step ∈ steps, step.platform ∉ k.enabled) → (run k service log steps).2 = log) :=
  ⟨fun step => ⟨reports_act k service log step, log_act⟩,
    fun steps => ⟨reports_run k service log steps, log_run⟩⟩

/-- A role on a plane without a connector. -/
theorem statuses_wellFormed_disabled :
    Platform.aws ∉ (Connectors.mk none).enabled ∧
      ((verify Aws.Connector.roleCredential).act ⟨none⟩ Aws.Connector.generous []).2 = [] := by
  have disabled : (verify Aws.Connector.roleCredential).platform ∉ (Connectors.mk none).enabled := by
    decide
  obtain ⟨hstep, _⟩ := statuses_wellFormed ⟨none⟩ Aws.Connector.generous []
  exact ⟨disabled, (hstep _).2 disabled⟩

end CredentialStep

end ClusterControl
