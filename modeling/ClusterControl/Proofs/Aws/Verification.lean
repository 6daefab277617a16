import ClusterControl.Aws.Connector
import ClusterControl.Proofs.Aws.Access
import ClusterControl.Proofs.Aws.RequiredActions

/-!
# The course of a verification

The exchanges of a verification follow a protocol: the method of the credential is tried once, then
each required resource is simulated in turn, and the first failure ends everything. The findings
depend on these exchanges alone.
-/

namespace ClusterControl.Aws

/-- A decision has the word `deny` in it, in any case. -/
def Denies (decision : String) : Prop :=
  ∃ before word after, decision.toList = before ++ word ++ after ∧
    word.map Char.toLower = ['d', 'e', 'n', 'y']

namespace Evaluation

theorem occursIn_iff {word : List Char} {cs : List Char} :
    occursIn word cs = true ↔ word <:+: cs := by
  induction cs with
  | nil => simp [occursIn, List.isEmpty_iff]
  | cons c cs ih =>
    rw [occursIn, Bool.or_eq_true, List.isPrefixOf_iff_prefix, ih, List.infix_cons_iff]

theorem isDenied_iff {e : Evaluation} : e.isDenied = true ↔ Denies e.decision := by
  unfold isDenied Denies
  rw [occursIn_iff]
  constructor
  · rintro ⟨before, after, h⟩
    rw [eq_comm, List.map_eq_append_iff] at h
    obtain ⟨front, last, hl, hf, _⟩ := h
    obtain ⟨first, word, hw, _, hword⟩ := List.map_eq_append_iff.mp hf
    exact ⟨first, word, last, by rw [hl, hw], hword⟩
  · rintro ⟨before, word, after, h, hword⟩
    exact ⟨before.map Char.toLower, after.map Char.toLower, by simp [h, ← hword]⟩

end Evaluation

instance (decision : String) : Decidable (Denies decision) :=
  decidable_of_iff _ (Evaluation.isDenied_iff (e := ⟨"", "", decision⟩))

namespace Exchange

def failed : Exchange → Bool
  | assumeRole _ (.error _) | describeRegions _ (.error _) | callerIdentity _ (.error _)
  | simulate _ _ (.error _) => true
  | _ => false

def access : Exchange → Access
  | assumeRole access _ | describeRegions access _ | callerIdentity access _
  | simulate access _ _ => access

/-- The denied pairs that the call has brought. -/
def denied : Exchange → List String
  | simulate _ _ (.ok results) =>
    (results.filter (Denies ·.decision)).map fun e => e.action ++ ":" ++ e.resource
  | _ => []

/-- The answer is the one that the service gives after the exchanges before. -/
def Genuine (service : IdentityService) (log : List Exchange) : Exchange → Prop
  | assumeRole access answer => answer = service.assumeRole log access
  | describeRegions access answer => answer = service.describeRegions log access
  | callerIdentity access answer => answer = service.callerIdentity log access
  | simulate access request answer => answer = service.simulate log access request

end Exchange

def Genuine (service : IdentityService) : List Exchange → List Exchange → Prop
  | _, [] => True
  | log, x :: es => x.Genuine service log ∧ Genuine service (log ++ [x]) es

/-- The simulations for a principal: one for each required resource with all its actions, up to the
first that fails. -/
inductive Simulations (access : Access) (principal : String) :
    List (String × List String) → List Exchange → Prop
  | done : Simulations access principal [] []
  | failed {resource : String} {actions : List String} {rest : List (String × List String)}
      {e : AwsError} :
      Simulations access principal ((resource, actions) :: rest)
        [.simulate access ⟨principal, actions, resource⟩ (.error e)]
  | answered {resource : String} {actions : List String} {rest : List (String × List String)}
      {results : List Evaluation} {es : List Exchange}
      (next : Simulations access principal rest es) :
      Simulations access principal ((resource, actions) :: rest)
        (.simulate access ⟨principal, actions, resource⟩ (.ok results) :: es)

/-- The exchanges of a verification with an access and its method. A role is assumed once, and its
session goes with every simulation. A key pair lists the regions and asks for the caller, who is
then the principal. -/
inductive Trace (access : Access) (entries : List (String × List String)) :
    Method → List Exchange → Prop
  | roleRefused {arn : String} {e : AwsError} :
      Trace access entries (.role arn) [.assumeRole access (.error e)]
  | role {arn : String} {session : Session} {es : List Exchange}
      (simulations : Simulations (access.withSession session) arn entries es) :
      Trace access entries (.role arn) (.assumeRole access (.ok session) :: es)
  | keysRefused {accessKey : String} {e : AwsError} :
      Trace access entries (.keyPair accessKey) [.describeRegions access (.error e)]
  | callerRefused {accessKey : String} {regions : List String} {e : AwsError} :
      Trace access entries (.keyPair accessKey)
        [.describeRegions access (.ok regions), .callerIdentity access (.error e)]
  | keyPair {accessKey : String} {regions : List String} {arn : String} {es : List Exchange}
      (simulations : Simulations access arn entries es) :
      Trace access entries (.keyPair accessKey)
        (.describeRegions access (.ok regions) :: .callerIdentity access (.ok arn) :: es)

/-- Findings depend on the calls that were made: a failed call leaves no findings, and otherwise
they are the pairs that were denied. -/
def Reports {ε : Type} (es : List Exchange) : Except ε (List String) → Prop
  | .error _ => ∃ x ∈ es, x.failed = true
  | .ok denied => (∀ x ∈ es, x.failed = false) ∧ denied = es.flatMap Exchange.denied

section

variable {ε : Type} {service : IdentityService} {access : Access} {principal : String}
  {entries : List (String × List String)} {log es : List Exchange} {x : Exchange}
  {method : Method}

theorem denied_simulate {request : SimulationRequest} {results : List Evaluation} :
    (Exchange.simulate access request (.ok results)).denied = deniedPairs results := by
  simp only [Exchange.denied, deniedPairs, ← Evaluation.isDenied_iff, Bool.decide_eq_true]
  rfl

theorem Reports.mapError {ε' : Type} {f : ε → ε'} {report : Except ε (List String)}
    (h : Reports es report) : Reports es (report.mapError f) := by
  cases report <;> exact h

theorem Reports.of_failed {e : ε} (h : x.failed = true) : Reports [x] (.error e) :=
  ⟨x, List.mem_singleton_self x, h⟩

theorem Reports.cons {report : Except ε (List String)} (h : Reports es report)
    (hx : x.failed = false) : Reports (x :: es) (report.map (x.denied ++ ·)) := by
  cases report with
  | error e =>
    obtain ⟨y, hy, hf⟩ := h
    exact ⟨y, List.mem_cons_of_mem x hy, hf⟩
  | ok denied =>
    obtain ⟨hes, rfl⟩ := h
    exact ⟨List.forall_mem_cons.mpr ⟨hx, hes⟩, rfl⟩

/-- An answer that denies nothing leaves the report as it is. -/
theorem Reports.cons_nil {report : Except ε (List String)} (h : Reports es report)
    (hx : x.failed = false) (hd : x.denied = []) : Reports (x :: es) report := by
  have hcons := h.cons hx
  rw [hd] at hcons
  cases report <;> exact hcons

/-- The simulations of a principal, and what they report. -/
theorem simulateAll_spec (service : IdentityService) (access : Access) (principal : String)
    (entries : List (String × List String)) (log : List Exchange) :
    ∃ es, (simulateAll service access principal entries log).2 = log ++ es ∧
      Simulations access principal entries es ∧ Genuine service log es ∧
      Reports es (simulateAll service access principal entries log).1 := by
  induction entries generalizing log with
  | nil => exact ⟨[], (List.append_nil log).symm, .done, trivial, by simp [simulateAll, Reports]⟩
  | cons entry rest ih =>
    obtain ⟨resource, actions⟩ := entry
    cases ha : service.simulate log access ⟨principal, actions, resource⟩ with
    | error e =>
      refine ⟨[.simulate access ⟨principal, actions, resource⟩ (.error e)], ?_, .failed,
        ⟨ha.symm, trivial⟩, ?_⟩
      · simp only [simulateAll, ha]
      · simp only [simulateAll, ha]
        exact .of_failed rfl
    | ok results =>
      let first := Exchange.simulate access ⟨principal, actions, resource⟩ (.ok results)
      obtain ⟨es, hlog, hsimulations, hgenuine, hreports⟩ := ih (log ++ [first])
      have hstep : simulateAll service access principal ((resource, actions) :: rest) log =
          (((simulateAll service access principal rest (log ++ [first])).1.map
              (first.denied ++ ·)),
            (simulateAll service access principal rest (log ++ [first])).2) := by
        simp only [simulateAll, ha, first, denied_simulate]
        split <;> simp_all [Except.map]
      rw [hstep]
      refine ⟨first :: es, ?_, .answered hsimulations, ⟨ha.symm, hgenuine⟩, ?_⟩
      · rw [hlog, ← List.append_cons]
      · exact hreports.cons rfl

/-- Once a credential is connected and its principal known, the simulations decide. -/
theorem examine_of_principal {required : RequiredActions} {connected : Access}
    {log₁ log₂ : List Exchange} (named : access.method = .ok method)
    (hconnect : connect service access log method = (.ok connected, log₁))
    (hprincipal : Aws.principal service connected log₁ method = (.ok principal, log₂)) :
    examine service required access log =
      (((simulateAll service connected principal required.entries log₂).1.mapError
          Rejection.ofCheck).map PermissionCheck.ofDenied,
        (simulateAll service connected principal required.entries log₂).2) := by
  simp only [examine, named, hconnect, validate, hprincipal]
  rcases simulateAll service connected principal required.entries log₂ with ⟨_ | _, _⟩ <;> rfl

/-- The course of an examination whose access names a method, and what it reports. -/
theorem examine_spec {required : RequiredActions} (named : access.method = .ok method) :
    ∃ es, (examine service required access log).2 = log ++ es ∧
      Trace access required.entries method es ∧ Genuine service log es ∧
      ∃ report, (examine service required access log).1 = report.map PermissionCheck.ofDenied ∧
        Reports es report := by
  cases method with
  | role arn =>
    cases ha : service.assumeRole log access with
    | error e =>
      refine ⟨[.assumeRole access (.error e)], ?_, .roleRefused, ⟨ha.symm, trivial⟩,
        .error (.ofAssumption access arn e), ?_, .of_failed rfl⟩ <;>
      simp only [examine, named, connect, ha, Except.map]
    | ok session =>
      let first := Exchange.assumeRole access (.ok session)
      obtain ⟨es, hlog, hsimulations, hgenuine, hreports⟩ := simulateAll_spec service
        (access.withSession session) arn required.entries (log ++ [first])
      have hconnect : connect service access log (.role arn) =
          (.ok (access.withSession session), log ++ [first]) := by simp only [connect, ha, first]
      rw [examine_of_principal named hconnect rfl]
      exact ⟨first :: es, by rw [hlog, ← List.append_cons], .role hsimulations,
        ⟨ha.symm, hgenuine⟩, _, rfl, (hreports.mapError).cons_nil rfl rfl⟩
  | keyPair accessKey =>
    cases ha : service.describeRegions log access with
    | error e =>
      refine ⟨[.describeRegions access (.error e)], ?_, .keysRefused, ⟨ha.symm, trivial⟩,
        .error (.ofKeys accessKey e), ?_, .of_failed rfl⟩ <;>
      simp only [examine, named, connect, ha, Except.map]
    | ok regions =>
      let first := Exchange.describeRegions access (.ok regions)
      have hconnect : connect service access log (.keyPair accessKey) =
          (.ok access, log ++ [first]) := by simp only [connect, ha, first]
      cases hc : service.callerIdentity (log ++ [first]) access with
      | error e =>
        refine ⟨[first, .callerIdentity access (.error e)], ?_, .callerRefused,
          ⟨ha.symm, hc.symm, trivial⟩, .error (.ofCheck e), ?_,
          (Reports.of_failed rfl).cons_nil rfl rfl⟩ <;>
        simp [examine, named, hconnect, validate, Aws.principal, hc, Except.map]
      | ok arn =>
        let second := Exchange.callerIdentity access (.ok arn)
        obtain ⟨es, hlog, hsimulations, hgenuine, hreports⟩ := simulateAll_spec service
          access arn required.entries (log ++ [first] ++ [second])
        have hprincipal : Aws.principal service access (log ++ [first]) (.keyPair accessKey) =
            (.ok arn, log ++ [first] ++ [second]) := by simp only [Aws.principal, hc, second]
        rw [examine_of_principal named hconnect hprincipal, hlog]
        exact ⟨first :: second :: es, by simp, .keyPair hsimulations,
          ⟨ha.symm, hc.symm, hgenuine⟩, _, rfl,
          ((hreports.mapError).cons_nil rfl rfl).cons_nil rfl rfl⟩

end

end ClusterControl.Aws
