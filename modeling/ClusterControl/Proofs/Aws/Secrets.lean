import ClusterControl.Proofs.Aws.Verification
import ClusterControl.Aws.Connector

/-!
# Secrets in a verification

Two credentials differ in the secret key alone, and two services answer their calls alike but for
the secrets of the sessions. Then the two verifications give one status and make the same calls up
to the secrets, and no diagnostic tells them apart. A service may well look at the secrets of its
own run: it is compared on the calls that this run can make.
-/

namespace ClusterControl

structure Credential.SameButSecret (c c' : Credential) : Prop where
  crn : c.crn = c'.crn
  name : c.name = c'.name
  platform : c.platform = c'.platform
  parameters : ∀ key, key ≠ "secretKey" → c.parameter? key = c'.parameter? key
  secret : (c.contentParameter? "secretKey").isSome = (c'.contentParameter? "secretKey").isSome

namespace Aws

def Session.redacted (s : Session) : Session := { s with secretAccessKey := "", token := "" }

theorem Session.diagnostic_redacted (s : Session) : s.redacted.diagnostic = s.diagnostic := by
  cases s
  rfl

namespace Access

/-- An access without its secrets; whether there is a secret key stays known. -/
def redacted (a : Access) : Access :=
  { a with secretKey := a.secretKey.map fun _ => "", session := a.session.map Session.redacted }

theorem diagnostic_redacted (a : Access) : a.redacted.diagnostic = a.diagnostic := by
  have hsecret : (a.redacted.secretKey.map fun _ => Text.quote "***") =
      a.secretKey.map fun _ => Text.quote "***" := Option.map_map ..
  have hsession : a.redacted.session.map (·.diagnostic) = a.session.map (·.diagnostic) := by
    simp only [redacted, Option.map_map, Function.comp_def, Session.diagnostic_redacted]
  unfold diagnostic
  rw [hsecret, hsession]
  rfl

theorem method_redacted (a : Access) : a.redacted.method = a.method := by
  simp only [method, redacted]
  cases a.roleArn <;> cases a.accessKey <;> cases a.secretKey <;> rfl

theorem assumerVariables_redacted (a : Access) :
    a.redacted.assumerVariables = a.assumerVariables := rfl

theorem redacted_withSession (a : Access) (s : Session) :
    (a.withSession s).redacted = a.redacted.withSession s.redacted := rfl

theorem redacted_ofCredential {c c' : Credential} (same : c.SameButSecret c')
    (governmentCloud : Bool) :
    (ofCredential c governmentCloud).redacted = (ofCredential c' governmentCloud).redacted := by
  have hcontent : ∀ key, key ≠ "secretKey" → c.contentParameter? key = c'.contentParameter? key :=
    fun key hkey => by
      simp only [Credential.contentParameter?, Credential.textParameter?, same.parameters key hkey]
  have hgov : c.boolParameter? "govCloud" = c'.boolParameter? "govCloud" := by
    simp only [Credential.boolParameter?, same.parameters "govCloud" (by decide)]
  have hsecret : (c.contentParameter? "secretKey").map (fun _ => "") =
      (c'.contentParameter? "secretKey").map fun _ => "" := by
    have hsome := same.secret
    generalize c.contentParameter? "secretKey" = x, c'.contentParameter? "secretKey" = y at hsome
    cases x <;> cases y <;> first | rfl | cases hsome
  simp only [redacted, ofCredential, same.name, hgov, hsecret, hcontent "roleArn" (by decide),
    hcontent "accessKey" (by decide), hcontent "externalId" (by decide),
    hcontent "region" (by decide)]

end Access

/-- A call and its answer without their secrets. -/
def Exchange.redacted : Exchange → Exchange
  | assumeRole a answer => assumeRole a.redacted (answer.map Session.redacted)
  | describeRegions a answer => describeRegions a.redacted answer
  | callerIdentity a answer => callerIdentity a.redacted answer
  | simulate a request answer => simulate a.redacted request answer

/-- The diagnostic of the access of a call is fixed without the secrets. -/
theorem Exchange.diagnostic_redacted (x : Exchange) :
    x.redacted.access.diagnostic = x.access.diagnostic := by
  cases x <;> exact Access.diagnostic_redacted _

/-- Two runs so far: each service has answered its own calls, and the calls are the same up to the
secrets. -/
structure Parallel (service service' : IdentityService) (log log' es es' : List Exchange) : Prop where
  left : Genuine service log es
  right : Genuine service' log' es'
  calls : es.map Exchange.redacted = es'.map Exchange.redacted

inductive SameSession (es es' : List Exchange) : Option Session → Option Session → Prop
  | none : SameSession es es' none none
  | opened {a a' : Access} {s s' : Session}
      (call : (Exchange.assumeRole a (.ok s), Exchange.assumeRole a' (.ok s')) ∈ es.zip es') :
      SameSession es es' (some s) (some s')

/-- The accesses of one call in two runs: the same up to the secrets, each with the secrets of its
own run. -/
structure Twins (secret secret' : Option String) (es es' : List Exchange) (a a' : Access) : Prop where
  same : a.redacted = a'.redacted
  left : a.secretKey = secret
  right : a'.secretKey = secret'
  session : SameSession es es' a.session a'.session

/-- Two services that answer every call of two such runs alike, but for the secrets of a session. -/
structure AnswersAlike (service service' : IdentityService) (log log' : List Exchange)
    (secret secret' : Option String) : Prop where
  assumeRole {es es' : List Exchange} {a a' : Access} :
    Parallel service service' log log' es es' → Twins secret secret' es es' a a' →
    (service.assumeRole (log ++ es) a).map Session.redacted =
      (service'.assumeRole (log' ++ es') a').map Session.redacted
  describeRegions {es es' : List Exchange} {a a' : Access} :
    Parallel service service' log log' es es' → Twins secret secret' es es' a a' →
    service.describeRegions (log ++ es) a = service'.describeRegions (log' ++ es') a'
  callerIdentity {es es' : List Exchange} {a a' : Access} :
    Parallel service service' log log' es es' → Twins secret secret' es es' a a' →
    service.callerIdentity (log ++ es) a = service'.callerIdentity (log' ++ es') a'
  simulate {es es' : List Exchange} {a a' : Access} (request : SimulationRequest) :
    Parallel service service' log log' es es' → Twins secret secret' es es' a a' →
    service.simulate (log ++ es) a request = service'.simulate (log' ++ es') a' request

section

variable {service service' : IdentityService} {log log' es es' : List Exchange} {x x' : Exchange}
  {secret secret' : Option String} {a a' : Access} {method : Method}

theorem Genuine.snoc (h : Genuine service log es) (hx : x.Genuine service (log ++ es)) :
    Genuine service log (es ++ [x]) := by
  induction es generalizing log with
  | nil => exact ⟨by simpa using hx, trivial⟩
  | cons y es ih => exact ⟨h.1, ih h.2 (by simpa using hx)⟩

namespace Parallel

theorem nil : Parallel service service' log log' [] [] := ⟨trivial, trivial, rfl⟩

theorem length_eq (h : Parallel service service' log log' es es') : es.length = es'.length := by
  simpa using congrArg List.length h.calls

theorem snoc (h : Parallel service service' log log' es es') (hx : x.Genuine service (log ++ es))
    (hx' : x'.Genuine service' (log' ++ es')) (same : x.redacted = x'.redacted) :
    Parallel service service' log log' (es ++ [x]) (es' ++ [x']) :=
  ⟨h.left.snoc hx, h.right.snoc hx', by simp [h.calls, same]⟩

/-- The diagnostics of two runs are the same. -/
theorem diagnostics (h : Parallel service service' log log' es es') :
    es.map (·.access.diagnostic) = es'.map (·.access.diagnostic) := by
  have hshown : ∀ xs : List Exchange, xs.map (·.access.diagnostic) =
      (xs.map Exchange.redacted).map (·.access.diagnostic) := fun xs => by
    simp [Exchange.diagnostic_redacted]
  rw [hshown es, hshown es', h.calls]

end Parallel

/-- Sessions stay those of one call while the runs go on. -/
theorem SameSession.snoc {s s' : Option Session} (h : SameSession es es' s s')
    (hlength : es.length = es'.length) : SameSession (es ++ [x]) (es' ++ [x']) s s' := by
  cases h with
  | none => exact .none
  | opened call => exact .opened (List.zip_append hlength ▸ List.mem_append_left _ call)

namespace Twins

theorem snoc (h : Twins secret secret' es es' a a') (hlength : es.length = es'.length) :
    Twins secret secret' (es ++ [x]) (es' ++ [x']) a a' :=
  ⟨h.same, h.left, h.right, h.session.snoc hlength⟩

theorem method_eq (h : Twins secret secret' es es' a a') : a.method = a'.method := by
  rw [← a.method_redacted, h.same, a'.method_redacted]

theorem assumerVariables_eq (h : Twins secret secret' es es' a a') :
    a.assumerVariables = a'.assumerVariables := by
  rw [← a.assumerVariables_redacted, h.same, a'.assumerVariables_redacted]

/-- The session of a role that both runs have assumed. -/
theorem withSession {s s' : Session} (h : Twins secret secret' es es' a a')
    (hlength : es.length = es'.length) (hs : s.redacted = s'.redacted) :
    Twins secret secret' (es ++ [.assumeRole a (.ok s)]) (es' ++ [.assumeRole a' (.ok s')])
      (a.withSession s) (a'.withSession s') where
  same := by rw [Access.redacted_withSession, Access.redacted_withSession, h.same, hs]
  left := h.left
  right := h.right
  session := by
    have call : (Exchange.assumeRole a (.ok s), Exchange.assumeRole a' (.ok s')) ∈
        (es ++ [Exchange.assumeRole a (.ok s)]).zip (es' ++ [Exchange.assumeRole a' (.ok s')]) := by
      rw [List.zip_append hlength]
      exact List.mem_append_right _ (List.mem_singleton_self _)
    exact .opened call

theorem ofCredential {c c' : Credential} (same : c.SameButSecret c') (governmentCloud : Bool) :
    Twins (c.contentParameter? "secretKey") (c'.contentParameter? "secretKey") [] []
      (.ofCredential c governmentCloud) (.ofCredential c' governmentCloud) :=
  ⟨Access.redacted_ofCredential same governmentCloud, rfl, rfl, .none⟩

end Twins

inductive EndAlike {α : Type} (service service' : IdentityService) (log log' : List Exchange) :
    α × List Exchange → α × List Exchange → Prop
  | intro {es es' : List Exchange} (result : α) (runs : Parallel service service' log log' es es') :
      EndAlike service service' log log' (result, log ++ es) (result, log' ++ es')

inductive ConnectAlike (service service' : IdentityService) (log log' : List Exchange)
    (secret secret' : Option String) :
    Except Rejection Access × List Exchange → Except Rejection Access × List Exchange → Prop
  | refused {es es' : List Exchange} (r : Rejection)
      (runs : Parallel service service' log log' es es') :
      ConnectAlike service service' log log' secret secret' (.error r, log ++ es)
        (.error r, log' ++ es')
  | connected {es es' : List Exchange} {a a' : Access}
      (runs : Parallel service service' log log' es es') (twins : Twins secret secret' es es' a a') :
      ConnectAlike service service' log log' secret secret' (.ok a, log ++ es) (.ok a', log' ++ es')

theorem Twins.ofAssumption_eq (h : Twins secret secret' es es' a a') (arn : String) (e : AwsError) :
    Rejection.ofAssumption a arn e = .ofAssumption a' arn e := by
  unfold Rejection.ofAssumption
  rw [h.assumerVariables_eq]

variable (alike : AnswersAlike service service' log log' secret secret')

include alike

theorem simulateAll_alike (principal : String) (entries : List (String × List String))
    (runs : Parallel service service' log log' es es') (twins : Twins secret secret' es es' a a') :
    EndAlike service service' log log' (simulateAll service a principal entries (log ++ es))
      (simulateAll service' a' principal entries (log' ++ es')) := by
  induction entries generalizing es es' with
  | nil => exact .intro _ runs
  | cons entry rest ih =>
    obtain ⟨resource, actions⟩ := entry
    have hanswer := alike.simulate ⟨principal, actions, resource⟩ runs twins
    simp only [simulateAll, ← hanswer]
    generalize hgiven : service.simulate (log ++ es) a ⟨principal, actions, resource⟩ = answer
      at hanswer
    have hnext : Parallel service service' log log'
        (es ++ [.simulate a ⟨principal, actions, resource⟩ answer])
        (es' ++ [.simulate a' ⟨principal, actions, resource⟩ answer]) :=
      runs.snoc hgiven.symm hanswer (by simp only [Exchange.redacted, twins.same])
    simp only [List.append_assoc]
    cases answer with
    | error e => exact .intro _ hnext
    | ok results =>
      have hrest := ih hnext (twins.snoc runs.length_eq)
      dsimp only
      generalize simulateAll service a principal rest _ = r,
        simulateAll service' a' principal rest _ = r' at hrest
      cases hrest with
      | intro result hruns => cases result <;> exact .intro _ hruns

/-- Once the principal is known, its permissions are checked alike. -/
theorem validate_alike (required : RequiredActions) (method : Method)
    (runs : Parallel service service' log log' es es') (twins : Twins secret secret' es es' a a') :
    EndAlike service service' log log' (validate service required a method (log ++ es))
      (validate service' required a' method (log' ++ es')) := by
  cases method with
  | role arn =>
    have hall := simulateAll_alike alike arn required.entries runs twins
    simp only [validate, principal]
    generalize simulateAll service a arn _ _ = r, simulateAll service' a' arn _ _ = r' at hall
    cases hall with
    | intro result hruns => cases result <;> exact .intro _ hruns
  | keyPair accessKey =>
    have hanswer := alike.callerIdentity runs twins
    simp only [validate, principal, ← hanswer]
    generalize hgiven : service.callerIdentity (log ++ es) a = answer at hanswer
    have hnext : Parallel service service' log log' (es ++ [.callerIdentity a answer])
        (es' ++ [.callerIdentity a' answer]) :=
      runs.snoc hgiven.symm hanswer (by simp only [Exchange.redacted, twins.same])
    simp only [List.append_assoc]
    cases answer with
    | error e => exact .intro _ hnext
    | ok arn =>
      have hall := simulateAll_alike alike arn required.entries hnext (twins.snoc runs.length_eq)
      dsimp only
      generalize simulateAll service a arn _ _ = r, simulateAll service' a' arn _ _ = r' at hall
      cases hall with
      | intro result hruns => cases result <;> exact .intro _ hruns

theorem connect_alike (method : Method) (runs : Parallel service service' log log' es es')
    (twins : Twins secret secret' es es' a a') :
    ConnectAlike service service' log log' secret secret' (connect service a (log ++ es) method)
      (connect service' a' (log' ++ es') method) := by
  cases method with
  | role arn =>
    have hanswer := alike.assumeRole runs twins
    simp only [connect, List.append_assoc]
    generalize hleft : service.assumeRole (log ++ es) a = answer,
      hright : service'.assumeRole (log' ++ es') a' = answer' at hanswer
    have hnext : Parallel service service' log log' (es ++ [.assumeRole a answer])
        (es' ++ [.assumeRole a' answer']) :=
      runs.snoc hleft.symm hright.symm (by simp only [Exchange.redacted, twins.same, hanswer])
    cases answer with
    | error e =>
      cases answer' with
      | ok s' => cases hanswer
      | error e' =>
        cases hanswer
        dsimp only
        rw [twins.ofAssumption_eq]
        exact .refused _ hnext
    | ok s =>
      cases answer' with
      | error e' => cases hanswer
      | ok s' =>
        have hs : s.redacted = s'.redacted := Except.ok.inj hanswer
        exact .connected hnext (twins.withSession runs.length_eq hs)
  | keyPair accessKey =>
    have hanswer := alike.describeRegions runs twins
    simp only [connect, ← hanswer, List.append_assoc]
    generalize hgiven : service.describeRegions (log ++ es) a = answer at hanswer
    have hnext : Parallel service service' log log' (es ++ [.describeRegions a answer])
        (es' ++ [.describeRegions a' answer]) :=
      runs.snoc hgiven.symm hanswer (by simp only [Exchange.redacted, twins.same])
    cases answer with
    | error e => exact .refused _ hnext
    | ok regions => exact .connected hnext (twins.snoc runs.length_eq)

theorem examine_alike (required : RequiredActions)
    (runs : Parallel service service' log log' es es') (twins : Twins secret secret' es es' a a') :
    EndAlike service service' log log' (examine service required a (log ++ es))
      (examine service' required a' (log' ++ es')) := by
  unfold examine
  rw [← twins.method_eq]
  cases a.method with
  | error fault => exact .intro _ runs
  | ok method =>
    have hconnect := connect_alike alike method runs twins
    dsimp only
    generalize connect service a (log ++ es) method = r,
      connect service' a' (log' ++ es') method = r' at hconnect
    cases hconnect with
    | refused rejection hruns => exact .intro _ hruns
    | @connected _ _ b b' hruns htwins =>
      have hchecked := validate_alike alike required method hruns htwins
      dsimp only
      generalize validate service required b method _ = v,
        validate service' required b' method _ = v' at hchecked
      cases hchecked with
      | intro check hruns => cases check <;> exact .intro _ hruns

end

/-- A status names a credential, and nothing else of it. -/
theorem statusOf_congr {c c' : Credential} (h : c.crn = c'.crn)
    (findings : Except Rejection PermissionCheck) : statusOf c findings = statusOf c' findings := by
  unfold statusOf CredentialStatus.verified CredentialStatus.permissionsMissing
    CredentialStatus.failed
  rw [h]

namespace Connector

/-- Secrets do not show. Two credentials that differ in the secret key alone, verified by services
that answer alike up to the secrets of a session, get one status. The calls are the same up to the
secrets, and the diagnostic of each call's access is the same. -/
theorem verify_hides_secrets {k : Connector} {service service' : IdentityService}
    {c c' : Credential} {log log' : List Exchange} (same : c.SameButSecret c')
    (alike : AnswersAlike service service' log log' (c.contentParameter? "secretKey")
      (c'.contentParameter? "secretKey")) :
    (k.verify service c log).1 = (k.verify service' c' log').1 ∧
      ∃ es es', (k.verify service c log).2 = log ++ es ∧
        (k.verify service' c' log').2 = log' ++ es' ∧
        Genuine service log es ∧ Genuine service' log' es' ∧
        es.map Exchange.redacted = es'.map Exchange.redacted ∧
        es.map (·.access.diagnostic) = es'.map (·.access.diagnostic) := by
  have hexamined := examine_alike alike k.required .nil
    (.ofCredential same k.settings.governmentCloud)
  simp only [List.append_nil] at hexamined
  unfold verify
  generalize examine service k.required _ log = r, examine service' k.required _ log' = r'
    at hexamined
  cases hexamined with
  | intro findings runs =>
    exact ⟨statusOf_congr same.crn findings, _, _, rfl, rfl, runs.left, runs.right, runs.calls,
      runs.diagnostics⟩

def keyPairCredential (secret : String) : Credential where
  crn := "crn:cred:2"
  name := "dev"
  platform := .aws
  parameters := [("accessKey", .text "AKIA"), ("secretKey", .text secret)]

/-- A service that knows one secret key, and denies everything to whoever has it. -/
def suspicious (secret token : String) : IdentityService :=
  let known {α : Type} (a : Access) (answer : α) : Except AwsError α :=
    if a.secretKey = some secret then .ok answer else .error (.service "AuthFailure" "unknown key")
  { assumeRole := fun _ a => known a ⟨"key", secret, token, none⟩
    describeRegions := fun _ a => known a []
    callerIdentity := fun _ a => known a "arn:aws:iam::1:user/dev"
    simulate := fun _ a request =>
      known a (request.actions.map fun action => ⟨action, request.resource, "implicitDeny"⟩) }

theorem answersAlike_suspicious (secret secret' token token' : String) :
    AnswersAlike (suspicious secret token) (suspicious secret' token') [] [] (some secret)
      (some secret') where
  assumeRole _ twins := by simp [suspicious, twins.left, twins.right, Except.map, Session.redacted]
  describeRegions _ twins := by simp [suspicious, twins.left, twins.right]
  callerIdentity _ twins := by simp [suspicious, twins.left, twins.right]
  simulate _ _ twins := by simp [suspicious, twins.left, twins.right]

theorem verify_hides_secrets_rotated :
    (keyPairCredential "first").SameButSecret (keyPairCredential "second") ∧
      AnswersAlike (suspicious "first" "t") (suspicious "second" "u") [] [] (some "first")
        (some "second") ∧
      (verify ⟨{}, ⟨[("*", ["ec2:Run"])]⟩⟩ (suspicious "first" "t") (keyPairCredential "first")
          []).1 =
        (verify ⟨{}, ⟨[("*", ["ec2:Run"])]⟩⟩ (suspicious "second" "u") (keyPairCredential "second")
          []).1 := by
  have hsame : (keyPairCredential "first").SameButSecret (keyPairCredential "second") :=
    ⟨rfl, rfl, rfl, fun key hkey => by
      simp [Credential.parameter?, keyPairCredential, Json.Members.get?, Ne.symm hkey], by
      decide +kernel⟩
  have halike := answersAlike_suspicious "first" "second" "t" "u"
  exact ⟨hsame, halike, (verify_hides_secrets hsame halike).1⟩

end Connector

end Aws

end ClusterControl
