import ClusterControl.Aws.Connector
import ClusterControl.Proofs.Aws.Access
import ClusterControl.Proofs.Aws.RequiredActions
import ClusterControl.Proofs.Aws.Verification

/-!
# The verdict of a connector

A verification fails when the credential names no single method or when a call fails. Otherwise the
pairs that were denied decide, and a credential that is verified holds each pair of the policy.
-/

namespace ClusterControl.Aws

namespace Exchange

/-- The call has found that an action is allowed on a resource. -/
def Allows (resource action : String) : Exchange → Prop
  | simulate _ request (.ok results) =>
    request.resource = resource ∧ action ∈ request.actions ∧
      ∃ e ∈ results, e.action = action ∧ e.resource = resource ∧ ¬ Denies e.decision
  | _ => False

end Exchange

def IdentityService.AnswersAll (service : IdentityService) : Prop :=
  ∀ log access request results, service.simulate log access request = .ok results →
    ∀ a ∈ request.actions, ∃ e ∈ results, e.action = a ∧ e.resource = request.resource

section

variable {service : IdentityService} {access connected : Access} {principal : String}
  {entries : List (String × List String)} {log es : List Exchange} {x : Exchange}
  {method : Method}

/-- What the denied pairs make of the status of a credential. -/
theorem statusOf_ofDenied (c : Credential) (denied : List String) :
    statusOf c (.ok (.ofDenied denied)) =
      if denied = [] then .verified c else .permissionsMissing c ⟨denied⟩ := by
  cases denied <;> rfl

theorem reason_permissionsMissing (c : Credential) (m : MissingPermissions) :
    ∃ before after, (CredentialStatus.permissionsMissing c m).reason =
      some (before ++ ", ".intercalate m.denied ++ after) :=
  ⟨"You don't have permission for these actions which are required: " ++ "[", "]", by
    simp only [CredentialStatus.permissionsMissing, MissingPermissions.text, String.append_assoc]⟩

theorem Genuine.exists_log (h : Genuine service log es) (hx : x ∈ es) :
    ∃ before, x.Genuine service before := by
  induction es generalizing log with
  | nil => cases hx
  | cons y es ih =>
    rcases List.mem_cons.mp hx with rfl | hx
    · exact ⟨log, h.1⟩
    · exact ih h.2 hx

theorem answered_before_last_cons (hx : x.failed = false)
    (hes : ∀ y ∈ es.dropLast, y.failed = false) : ∀ y ∈ (x :: es).dropLast, y.failed = false := by
  cases es with
  | nil => simp
  | cons y es => exact List.forall_mem_cons.mpr ⟨hx, hes⟩

/-- Only the last simulation can have failed. -/
theorem Simulations.answered_before_last (h : Simulations access principal entries es) :
    ∀ x ∈ es.dropLast, x.failed = false := by
  induction h with
  | done => simp
  | failed => simp
  | answered _ ih => exact answered_before_last_cons rfl ih

theorem Simulations.access_eq (h : Simulations access principal entries es) :
    ∀ x ∈ es, x.access = access := by
  induction h with
  | done => simp
  | failed => simp [Exchange.access]
  | answered _ ih => exact List.forall_mem_cons.mpr ⟨rfl, ih⟩

/-- When no simulation fails, each required resource is simulated with all its actions. -/
theorem Simulations.covers (h : Simulations access principal entries es)
    (answered : ∀ x ∈ es, x.failed = false) {resource : String} {actions : List String}
    (required : (resource, actions) ∈ entries) :
    ∃ results, .simulate access ⟨principal, actions, resource⟩ (.ok results) ∈ es := by
  induction h with
  | done => cases required
  | failed => exact absurd (answered _ (List.mem_singleton_self _)) (by simp [Exchange.failed])
  | @answered _ _ _ results _ _ ih =>
    rcases List.mem_cons.mp required with hfirst | hrest
    · cases hfirst
      exact ⟨results, List.mem_cons_self⟩
    · obtain ⟨results, hmem⟩ := ih (List.forall_mem_cons.mp answered).2 hrest
      exact ⟨results, List.mem_cons_of_mem _ hmem⟩

/-- When no call fails, each required resource is simulated with all its actions. -/
theorem Trace.covers (h : Trace access entries method es)
    (answered : ∀ x ∈ es, x.failed = false) {resource : String} {actions : List String}
    (required : (resource, actions) ∈ entries) :
    ∃ connected principal results,
      .simulate connected ⟨principal, actions, resource⟩ (.ok results) ∈ es := by
  cases h with
  | roleRefused | keysRefused | callerRefused => simp [Exchange.failed] at answered
  | role simulations =>
    obtain ⟨results, hmem⟩ := simulations.covers (List.forall_mem_cons.mp answered).2 required
    exact ⟨_, _, results, List.mem_cons_of_mem _ hmem⟩
  | keyPair simulations =>
    have hrest := (List.forall_mem_cons.mp (List.forall_mem_cons.mp answered).2).2
    obtain ⟨results, hmem⟩ := simulations.covers hrest required
    exact ⟨_, _, results, List.mem_cons_of_mem _ (List.mem_cons_of_mem _ hmem)⟩

/-- When no call fails and nothing is denied, every required action is found to be allowed. -/
theorem Trace.allows (h : Trace access entries method es) (genuine : Genuine service log es)
    (answersAll : service.AnswersAll) (answered : ∀ x ∈ es, x.failed = false)
    (granted : es.flatMap Exchange.denied = []) {resource action : String}
    (required : RequiredActions.Lists entries resource action) :
    ∃ x ∈ es, x.Allows resource action := by
  obtain ⟨actions, hentry, haction⟩ := required
  obtain ⟨connected, principal, results, hmem⟩ := h.covers answered hentry
  obtain ⟨before, hanswer⟩ := genuine.exists_log hmem
  obtain ⟨e, he, hea, her⟩ := answersAll _ _ _ _ (Eq.symm hanswer) action haction
  have hnone : ∀ e ∈ results, ¬ Denies e.decision := by
    have hdenied := List.flatMap_eq_nil_iff.mp granted _ hmem
    simpa [Exchange.denied] using hdenied
  exact ⟨_, hmem, rfl, haction, e, he, hea, her, hnone e he⟩

/-- Only the last call can have failed. -/
theorem Trace.answered_before_last (h : Trace access entries method es) :
    ∀ x ∈ es.dropLast, x.failed = false := by
  cases h with
  | roleRefused | keysRefused => simp
  | callerRefused => simp [Exchange.failed]
  | role simulations => exact answered_before_last_cons rfl simulations.answered_before_last
  | keyPair simulations =>
    exact answered_before_last_cons rfl
      (answered_before_last_cons rfl simulations.answered_before_last)

/-- All calls are made with the same access, up to its session. -/
theorem Trace.access_eq (h : Trace access entries method es) (noSession : access.session = none) :
    ∀ x ∈ es, { x.access with session := none } = access := by
  obtain ⟨⟩ := access
  cases noSession
  cases h with
  | roleRefused | keysRefused | callerRefused => simp [Exchange.access]
  | role simulations =>
    refine List.forall_mem_cons.mpr ⟨rfl, fun x hx => ?_⟩
    rw [simulations.access_eq x hx]
    rfl
  | keyPair simulations =>
    refine List.forall_mem_cons.mpr ⟨rfl, List.forall_mem_cons.mpr ⟨rfl, fun x hx => ?_⟩⟩
    rw [simulations.access_eq x hx]

end

namespace Connector

variable {settings : ConnectorSettings} {k : Connector} {service : IdentityService}
  {c : Credential} {method : Method}

/-- A connector is made of settings whose policy can be read, with what the policy requires. -/
theorem new_eq_ok : new settings = .ok k ↔
    ∃ statements, Statement.ofBase64? settings.policyBase64 = some statements ∧
      k = ⟨settings, .ofStatements statements⟩ := by
  unfold new
  constructor
  · intro h
    cases hq : RequiredActions.ofBase64 settings.policyBase64 with
    | error e => rw [hq] at h; cases h
    | ok required =>
      obtain ⟨statements, hread, rfl⟩ := RequiredActions.ofBase64_eq_ok.mp hq
      rw [hq] at h
      cases h
      exact ⟨statements, hread, rfl⟩
  · rintro ⟨statements, hread, rfl⟩
    rw [RequiredActions.ofBase64_eq_ok.mpr ⟨statements, hread, rfl⟩]
    rfl

theorem verify_unnamed (k : Connector) (service : IdentityService) (log : List Exchange)
    (unnamed : ∀ m, ¬ c.Names m) :
    (k.verify service c log).2 = log ∧
      ∃ reason, (k.verify service c log).1 = .failed c reason none := by
  cases hm : (Access.ofCredential c k.settings.governmentCloud).method with
  | ok m => exact absurd (Access.method_ofCredential.mp hm) (unnamed m)
  | error fault =>
    simp only [verify, examine, hm]
    exact ⟨trivial, fault.message, rfl⟩

/-- The course of a verification, and the status that its report gives. -/
theorem verify_named (k : Connector) (service : IdentityService) (log : List Exchange)
    (named : c.Names method) :
    ∃ es, (k.verify service c log).2 = log ++ es ∧
      Trace (.ofCredential c k.settings.governmentCloud) k.required.entries method es ∧
      Genuine service log es ∧
      ∃ report, Reports es report ∧
        (k.verify service c log).1 = statusOf c (report.map PermissionCheck.ofDenied) := by
  have hmethod : (Access.ofCredential c k.settings.governmentCloud).method = .ok method :=
    Access.method_ofCredential.mpr named
  obtain ⟨es, hlog, htrace, hgenuine, report, hfindings, hreport⟩ := examine_spec hmethod
  exact ⟨es, hlog, htrace, hgenuine, report, hreport, by simp only [verify, hfindings]⟩

def runPolicy : ConnectorSettings where
  policyBase64 := "eyJTdGF0ZW1lbnQiOlt7IlJlc291cmNlIjoiKiIsIkFjdGlvbiI6ImVjMjpSdW4ifV19"

def runConnector : Connector := ⟨runPolicy, ⟨[("*", ["ec2:Run"])]⟩⟩

theorem read_runPolicy :
    Statement.ofBase64? runPolicy.policyBase64 = some [⟨["*"], ["ec2:Run"]⟩] := by
  decide +kernel

theorem new_runPolicy : new runPolicy = .ok runConnector :=
  new_eq_ok.mpr ⟨_, read_runPolicy, rfl⟩

def roleCredential : Credential where
  crn := "crn:cred:1"
  name := "dev"
  platform := .aws
  parameters := [("roleArn", .text "arn:aws:iam::1:role/dev")]

theorem names_roleCredential : roleCredential.Names (.role "arn:aws:iam::1:role/dev") := by
  have hmethod : (Access.ofCredential roleCredential false).method =
      .ok (.role "arn:aws:iam::1:role/dev") := rfl
  exact Access.method_ofCredential.mp hmethod

def generous : IdentityService where
  assumeRole _ _ := .ok ⟨"key", "secret", "token", none⟩
  describeRegions _ _ := .ok []
  callerIdentity _ _ := .ok "arn:aws:iam::1:user/dev"
  simulate _ _ request := .ok (request.actions.map fun a => ⟨a, request.resource, "allowed"⟩)

theorem answersAll_generous : generous.AnswersAll := by
  rintro _ _ request results ⟨⟩ a ha
  exact ⟨_, List.mem_map_of_mem ha, rfl, rfl⟩

/-- The calls of a verification. There are none when the credential does not name one method.
Otherwise they take the course of the method, and nothing follows a failed call. They are all made
with the access of the credential, up to its session, and the resources are taken in order. -/
theorem verify_trace (built : new settings = .ok k) (service : IdentityService) (c : Credential)
    (log : List Exchange) :
    ∃ es, (k.verify service c log).2 = log ++ es ∧ Genuine service log es ∧
      ((∀ m, ¬ c.Names m) → es = []) ∧
      (∀ m, c.Names m →
        Trace (.ofCredential c settings.governmentCloud) k.required.entries m es) ∧
      (∀ x ∈ es.dropLast, x.failed = false) ∧
      (∀ x ∈ es, { x.access with session := none } =
        Access.ofCredential c settings.governmentCloud) ∧
      RequiredActions.Ordered k.required.entries := by
  obtain ⟨statements, _, rfl⟩ := new_eq_ok.mp built
  by_cases hnamed : ∃ m, c.Names m
  · obtain ⟨m, hm⟩ := hnamed
    obtain ⟨es, hlog, htrace, hgenuine, _⟩ := verify_named _ service log hm
    refine ⟨es, hlog, hgenuine, fun hnone => absurd hm (hnone m), ?_,
      htrace.answered_before_last, htrace.access_eq rfl, RequiredActions.ordered_ofStatements⟩
    intro m' hm'
    exact hm.unique hm' ▸ htrace
  · have hnone : ∀ m, ¬ c.Names m := fun m hm => hnamed ⟨m, hm⟩
    refine ⟨[], ?_, trivial, fun _ => rfl, fun m hm => absurd hm (hnone m), by simp, by simp,
      RequiredActions.ordered_ofStatements⟩
    rw [(verify_unnamed _ service log hnone).1, List.append_nil]

theorem verify_trace_role :
    new runPolicy = .ok runConnector ∧
      Trace (.ofCredential roleCredential false) [("*", ["ec2:Run"])]
        (.role "arn:aws:iam::1:role/dev") (runConnector.verify generous roleCredential []).2 := by
  obtain ⟨es, hlog, _, _, htrace, _⟩ := verify_trace new_runPolicy generous roleCredential []
  rw [hlog]
  exact ⟨new_runPolicy, htrace _ names_roleCredential⟩

/-- The verdict of a verification. It fails just when the credential does not name one method or a
call fails. Otherwise it is positive just when no pair was denied, and else lists the denied pairs.
Where every requested action is answered, a positive verdict means that every pair of the policy
was found to be allowed. -/
theorem verify_verdict (built : new settings = .ok k) (service : IdentityService) (c : Credential)
    (log : List Exchange) :
    ∃ es, (k.verify service c log).2 = log ++ es ∧ Genuine service log es ∧
      ((∀ m, ¬ c.Names m) ∨ (∃ x ∈ es, x.failed = true) →
        (k.verify service c log).1.state = .failed ∧ (k.verify service c log).1.missing = []) ∧
      (∀ m, c.Names m → (∀ x ∈ es, x.failed = false) →
        if es.flatMap Exchange.denied = [] then (k.verify service c log).1.state = .verified
        else
          (k.verify service c log).1.state = .permissionsMissing ∧
          (k.verify service c log).1.missing = es.flatMap Exchange.denied ∧
          ∃ before after, (k.verify service c log).1.reason =
            some (before ++ ", ".intercalate (es.flatMap Exchange.denied) ++ after)) ∧
      (service.AnswersAll → (k.verify service c log).1.state = .verified →
        ∃ statements, Statement.ofBase64? settings.policyBase64 = some statements ∧
          ∀ s ∈ statements, ∀ r ∈ s.resources, ∀ a ∈ s.actions, ∃ x ∈ es, x.Allows r a) := by
  by_cases hnamed : ∃ m, c.Names m
  · obtain ⟨m, hm⟩ := hnamed
    obtain ⟨es, hlog, htrace, hgenuine, report, hreport, hstatus⟩ := verify_named k service log hm
    refine ⟨es, hlog, hgenuine, ?_, ?_, ?_⟩
    · rintro (hnone | ⟨x, hx, hf⟩)
      · exact absurd hm (hnone m)
      · cases report with
        | error rejection =>
          rw [hstatus]
          exact ⟨rfl, rfl⟩
        | ok denied =>
          rw [hreport.1 x hx] at hf
          cases hf
    · intro m' hm' hanswered
      cases report with
      | error rejection =>
        obtain ⟨x, hx, hf⟩ := hreport
        rw [hanswered x hx] at hf
        cases hf
      | ok denied =>
        obtain ⟨_, rfl⟩ := hreport
        rw [hstatus, Except.map, statusOf_ofDenied]
        split
        next => rfl
        next => exact ⟨rfl, rfl, reason_permissionsMissing c ⟨_⟩⟩
    · intro hanswers hverified
      cases report with
      | error rejection =>
        rw [hstatus] at hverified
        cases hverified
      | ok denied =>
        obtain ⟨hanswered, rfl⟩ := hreport
        rw [hstatus, Except.map, statusOf_ofDenied] at hverified
        split at hverified
        next hgranted =>
          obtain ⟨statements, hread, rfl⟩ := new_eq_ok.mp built
          refine ⟨statements, hread, fun s hs r hr a ha => ?_⟩
          exact htrace.allows hgenuine hanswers hanswered hgranted
            (RequiredActions.lists_ofStatements.mpr ⟨s, hs, hr, ha⟩)
        next => cases hverified
  · have hnone : ∀ m, ¬ c.Names m := fun m hm => hnamed ⟨m, hm⟩
    obtain ⟨hlog, reason, hstatus⟩ := verify_unnamed k service log hnone
    refine ⟨[], by rw [hlog, List.append_nil], trivial, ?_, fun m hm => absurd hm (hnone m), ?_⟩
    · rw [hstatus]
      exact fun _ => ⟨rfl, rfl⟩
    · rw [hstatus]
      intro _ h
      cases h

theorem verify_verdict_generous :
    new runPolicy = .ok runConnector ∧
      (runConnector.verify generous roleCredential []).1.state = .verified ∧
      ∃ x ∈ (runConnector.verify generous roleCredential []).2, x.Allows "*" "ec2:Run" := by
  have hverified : (runConnector.verify generous roleCredential []).1.state = .verified := by
    decide +kernel
  obtain ⟨es, hlog, _, _, _, hallows⟩ := verify_verdict new_runPolicy generous roleCredential []
  obtain ⟨statements, hread, hpairs⟩ := hallows answersAll_generous hverified
  cases read_runPolicy.symm.trans hread
  rw [hlog]
  refine ⟨new_runPolicy, hverified, ?_⟩
  exact hpairs _ (List.mem_singleton_self _) _ (List.mem_singleton_self _) _
    (List.mem_singleton_self _)

end Connector

end ClusterControl.Aws
