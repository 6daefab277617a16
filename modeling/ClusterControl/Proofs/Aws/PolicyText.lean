import ClusterControl.Plane.Basic
import ClusterControl.Proofs.Aws.Connector
import ClusterControl.Proofs.Text.Base64

/-!
# Policies in Base64

A connector gets its policy as the Base64 of a document, with any blanks around it. Such a text is
read as the document itself is, and every other text is malformed. So a plane with an identity
service is built just from the texts of documents that are policies, and what it hands out to users
is the text of what it enforces.
-/

namespace ClusterControl.Aws

/-- The text is the Base64 of a document, with blanks around it. -/
def Wraps (text document : String) : Prop :=
  ∃ before cs after, text.toList = before ++ cs ++ after ∧
    (∀ c ∈ before, Text.isBlank c = true) ∧ (∀ c ∈ after, Text.isBlank c = true) ∧
    Base64.Encodes document.toUTF8.data.toList cs

def Readable (text : String) : Prop :=
  ∃ document q, Wraps text document ∧ RequiredActions.ofJson document = .ok q

namespace RequiredActions

variable {text document : String} {q : RequiredActions} {e : AwsError}

theorem not_isBlank_of_encodes {bytes : List UInt8} {cs : List Char}
    (h : Base64.Encodes bytes cs) : ∀ c ∈ cs, Text.isBlank c = false := by
  obtain ⟨values, _, padding, _, _, hvalues, rfl, _⟩ := Base64.encodes_iff.mp h
  have hall : ∀ i : Fin 64, Text.isBlank (Base64.symbol i.val) = false := by decide
  intro c hc
  rcases List.mem_append.mp hc with hc | hc
  · obtain ⟨v, hv, rfl⟩ := List.mem_map.mp hc
    exact hall ⟨v, hvalues v hv⟩
  · rw [List.eq_of_mem_replicate hc]
    decide

/-- What a text wraps is the Base64 between its blanks. -/
theorem wraps_iff :
    Wraps text document ↔ Base64.Encodes document.toUTF8.data.toList (Text.strip text.toList) := by
  constructor
  · rintro ⟨before, cs, after, htext, hbefore, hafter, h⟩
    rw [htext, Text.strip_of_solid hbefore hafter (not_isBlank_of_encodes h)]
    exact h
  · intro h
    obtain ⟨before, after, hbefore, hafter, htext⟩ := Text.exists_strip text.toList
    exact ⟨before, _, after, htext, hbefore, hafter, h⟩

theorem fromUTF8?_eq_some {bytes : List UInt8} :
    String.fromUTF8? ⟨bytes.toArray⟩ = some document ↔ document.toUTF8.data.toList = bytes := by
  unfold String.fromUTF8?
  constructor
  · intro h
    split at h
    next =>
      cases h
      rfl
    next => cases h
  · rintro rfl
    rw [Array.toArray_toList]
    exact dif_pos document.isValidUTF8

theorem ofBase64_of_wraps (h : Wraps text document) : ofBase64 text = ofJson document := by
  unfold ofBase64
  rw [Base64.decode?_eq_some.mpr (wraps_iff.mp h)]
  simp only [fromUTF8?_eq_some.mpr rfl]

theorem ofJson_eq_error (h : ofJson document = .error e) : ∃ fault, e = .malformedPolicy fault := by
  unfold ofJson at h
  split at h
  · cases h
  · cases h
    exact ⟨_, rfl⟩

/-- A text is malformed, or it wraps a document. -/
theorem ofBase64_cases (text : String) :
    (∃ document, Wraps text document ∧ ofBase64 text = ofJson document) ∨
      ∃ fault, ofBase64 text = .error (.malformedPolicy fault) := by
  cases hbytes : Base64.decode? (Text.strip text.toList) with
  | none => exact .inr ⟨.base64 "not an encoding of bytes", by simp only [ofBase64, hbytes]⟩
  | some bytes =>
    cases hdocument : String.fromUTF8? ⟨bytes.toArray⟩ with
    | none => exact .inr ⟨.utf8 "not a text", by simp only [ofBase64, hbytes, hdocument]⟩
    | some document =>
      have hwraps : Wraps text document := by
        rw [wraps_iff, fromUTF8?_eq_some.mp hdocument]
        exact Base64.decode?_eq_some.mp hbytes
      exact .inl ⟨document, hwraps, ofBase64_of_wraps hwraps⟩

theorem ofBase64_eq_ok_iff :
    ofBase64 text = .ok q ↔ ∃ document, Wraps text document ∧ ofJson document = .ok q := by
  constructor
  · intro h
    rcases ofBase64_cases text with ⟨document, hwraps, hread⟩ | ⟨fault, hfault⟩
    · exact ⟨document, hwraps, hread ▸ h⟩
    · rw [hfault] at h
      cases h
  · rintro ⟨document, hwraps, hread⟩
    rw [ofBase64_of_wraps hwraps, hread]

theorem readable_iff : Readable text ↔ ∃ q, ofBase64 text = .ok q := by
  simp only [Readable, ofBase64_eq_ok_iff]
  exact exists_comm

theorem malformed_of_not_readable (h : ¬ Readable text) :
    ∃ fault, ofBase64 text = .error (.malformedPolicy fault) := by
  rcases ofBase64_cases text with ⟨document, hwraps, hread⟩ | hfault
  · cases hplain : ofJson document with
    | ok q => exact absurd ⟨document, q, hwraps, hplain⟩ h
    | error e =>
      obtain ⟨fault, rfl⟩ := ofJson_eq_error hplain
      exact ⟨fault, hread.trans hplain⟩
  · exact hfault

end RequiredActions

section BuiltIn

theorem toList_loop (bytes : ByteArray) (i : Nat) (front : List UInt8) :
    ByteArray.toList.loop bytes i front = front.reverse ++ bytes.data.toList.drop i := by
  fun_induction ByteArray.toList.loop bytes i front with
  | case1 i front hi ih =>
    have hlength : i < bytes.data.toList.length := by simpa using hi
    have hget : bytes.get! i = bytes.data[i]! := by
      cases bytes
      rfl
    rw [ih, List.drop_eq_getElem_cons hlength, hget, getElem!_pos bytes.data i hi]
    simp
  | case2 i front hi =>
    have hlength : bytes.data.toList.length ≤ i := by simpa using hi
    rw [List.drop_eq_nil_of_le hlength, List.append_nil]

theorem wraps_encode (document : String) :
    Wraps (String.ofList (Base64.encode document.toUTF8.toList)) document := by
  have hbytes : document.toUTF8.toList = document.toUTF8.data.toList :=
    toList_loop document.toUTF8 0 []
  refine ⟨[], _, [], ?_, by simp, by simp, Base64.encodes_encode _⟩
  rw [String.toList_ofList, hbytes, List.nil_append, List.append_nil]

theorem readable_encode {document : String}
    (h : (Statement.decodeDocument.read? document).isSome = true) :
    Readable (String.ofList (Base64.encode document.toUTF8.toList)) := by
  obtain ⟨statements, hstatements⟩ := Option.isSome_iff_exists.mp h
  refine ⟨document, .ofStatements statements, wraps_encode document, ?_⟩
  simp only [RequiredActions.ofJson, hstatements]

theorem read_builtInPolicy : (Statement.decodeDocument.read? builtInPolicy).isSome = true := by
  unfold Json.Decoder.read? builtInPolicy
  simp only [String.toList_join, List.map_cons, List.map_nil, List.flatMap_cons,
    List.flatMap_nil, String.toList_append, String.reduceToList]
  decide +kernel

theorem readable_builtInPolicyBase64 : Readable builtInPolicyBase64 := by
  unfold builtInPolicyBase64
  exact readable_encode read_builtInPolicy

end BuiltIn

section Enforcement

variable {access access' : Access} {principal principal' : String} {method : Method}
  {entries entries' : List (String × List String)} {es : List Exchange}

/-- Simulations that do not fail tell what is required. -/
theorem Simulations.determines (h : Simulations access principal entries es)
    (h' : Simulations access' principal' entries' es) (answered : ∀ x ∈ es, x.failed = false) :
    entries = entries' := by
  induction h generalizing entries' with
  | done =>
    cases h'
    rfl
  | failed => exact absurd (answered _ (List.mem_singleton_self _)) (by simp [Exchange.failed])
  | answered _ ih =>
    cases h' with
    | answered next => rw [ih next (List.forall_mem_cons.mp answered).2]

theorem Trace.determines (h : Trace access entries method es)
    (h' : Trace access entries' method es) (answered : ∀ x ∈ es, x.failed = false) :
    entries = entries' := by
  cases h with
  | roleRefused | keysRefused | callerRefused => simp [Exchange.failed] at answered
  | role simulations =>
    cases h' with
    | role simulations' =>
      exact simulations.determines simulations' (List.forall_mem_cons.mp answered).2
  | keyPair simulations =>
    cases h' with
    | keyPair simulations' =>
      exact simulations.determines simulations'
        (List.forall_mem_cons.mp (List.forall_mem_cons.mp answered).2).2

end Enforcement

namespace Connector

/-- Verifications simulate what a set requires. -/
def Enforces (k : Connector) (q : RequiredActions) : Prop :=
  ∀ (service : IdentityService) (c : Credential) (log : List Exchange) (m : Method), c.Names m →
    ∃ es, (k.verify service c log).2 = log ++ es ∧
      Trace (.ofCredential c k.settings.governmentCloud) q.entries m es

theorem answered_generous {log es : List Exchange} (h : Genuine generous log es) :
    ∀ x ∈ es, x.failed = false := by
  intro x hx
  obtain ⟨before, hgenuine⟩ := h.exists_log hx
  cases x <;> cases hgenuine <;> rfl

/-- The set that is enforced is the one that was read from the policy, and no other. -/
theorem enforces_iff (k : Connector) (q : RequiredActions) : k.Enforces q ↔ q = k.required := by
  constructor
  · intro h
    obtain ⟨es, hlog, htrace, hgenuine, _⟩ := verify_named k generous [] names_roleCredential
    obtain ⟨es', hlog', htrace'⟩ := h generous roleCredential [] _ names_roleCredential
    obtain rfl : es' = es := List.append_cancel_left (hlog'.symm.trans hlog)
    have hentries := htrace'.determines htrace (answered_generous hgenuine)
    cases q
    exact congrArg RequiredActions.mk hentries
  · rintro rfl service c log m named
    obtain ⟨es, hlog, htrace, _⟩ := verify_named k service log named
    exact ⟨es, hlog, htrace⟩

theorem new_cases (settings : ConnectorSettings) :
    (Readable settings.policyBase64 ∧ ∃ k, new settings = .ok k) ∨
      (¬ Readable settings.policyBase64 ∧
        ∃ fault, new settings = .error (.malformedPolicy fault)) := by
  unfold new
  by_cases h : Readable settings.policyBase64
  · obtain ⟨q, hq⟩ := RequiredActions.readable_iff.mp h
    exact .inl ⟨h, ⟨settings, q⟩, by rw [hq]; rfl⟩
  · obtain ⟨fault, hfault⟩ := RequiredActions.malformed_of_not_readable h
    exact .inr ⟨h, fault, by rw [hfault]; rfl⟩

/-- The policy of the prerequisites is read as what is enforced. -/
theorem policy_prerequisites {settings : ConnectorSettings} {k : Connector}
    (built : new settings = .ok k) (externalId : String) :
    ∃ text q, (k.prerequisites externalId).policy = some text ∧
      RequiredActions.ofBase64 text = .ok q ∧ ∀ q', k.Enforces q' ↔ q' = q := by
  obtain ⟨statements, hread, rfl⟩ := new_eq_ok.mp built
  exact ⟨_, _, rfl, RequiredActions.ofBase64_eq_ok.mpr ⟨statements, hread, rfl⟩, enforces_iff _⟩

end Connector

theorem build_cases (s : Settings) :
    (Readable (Plane.connectorSettings s).policyBase64 ∧
        ∃ k, Plane.build s true = .ok ⟨s, ⟨some k⟩⟩ ∧
          Connector.new (Plane.connectorSettings s) = .ok k) ∨
      (¬ Readable (Plane.connectorSettings s).policyBase64 ∧
        ∃ fault, Plane.build s true = .error (.aws (.malformedPolicy fault))) := by
  rcases Connector.new_cases (Plane.connectorSettings s) with ⟨h, k, hk⟩ | ⟨h, fault, hfault⟩
  · exact .inl ⟨h, k, by simp only [Plane.build, hk, if_true], hk⟩
  · exact .inr ⟨h, fault, by simp only [Plane.build, hfault, if_true]⟩

/-- Policies in Base64. A document has one encoding. With blanks around it, it is read as the
document is, and no other text is read at all. Connectors and planes are built from just the texts
that can be read, the built-in policy among them; otherwise the policy is malformed. The policy
that the prerequisites of a connector name is read as the one set that the connector enforces. -/
theorem encoded_as_plain :
    (∀ document : String, ∃! cs, Base64.Encodes document.toUTF8.data.toList cs) ∧
    (∀ text document, Wraps text document →
      RequiredActions.ofBase64 text = RequiredActions.ofJson document) ∧
    (∀ document e, RequiredActions.ofJson document = .error e →
      ∃ fault, e = .malformedPolicy fault) ∧
    (∀ text q, RequiredActions.ofBase64 text = .ok q →
      ∃ document, Wraps text document ∧ RequiredActions.ofJson document = .ok q) ∧
    (∀ settings : ConnectorSettings,
      (Readable settings.policyBase64 ∧ ∃ k, Connector.new settings = .ok k) ∨
        (¬ Readable settings.policyBase64 ∧
          ∃ fault, Connector.new settings = .error (.malformedPolicy fault))) ∧
    (∀ s : Settings,
      let text := s.aws.credentialPolicies.getD builtInPolicyBase64
      (Readable text ∧ ∃ p, Plane.build s true = .ok p) ∨
        (¬ Readable text ∧
          ∃ fault, Plane.build s true = .error (.aws (.malformedPolicy fault)))) ∧
    Readable builtInPolicyBase64 ∧
    (∀ settings k externalId, Connector.new settings = .ok k →
      ∃ text q, (k.prerequisites externalId).policy = some text ∧
        RequiredActions.ofBase64 text = .ok q ∧ ∀ q', k.Enforces q' ↔ q' = q) ∧
    (∀ s p externalId, Plane.build s true = .ok p →
      ∃ k given text q, p.connectors.aws = some k ∧
        p.connectors.prerequisites .aws externalId = .ok given ∧ given.policy = some text ∧
        RequiredActions.ofBase64 text = .ok q ∧ ∀ q', k.Enforces q' ↔ q' = q) := by
  refine ⟨fun document => ⟨_, Base64.encodes_encode _, fun cs hcs => ?_⟩,
    fun text document => RequiredActions.ofBase64_of_wraps,
    fun document e => RequiredActions.ofJson_eq_error,
    fun text q => RequiredActions.ofBase64_eq_ok_iff.mp, Connector.new_cases, fun s => ?_,
    readable_builtInPolicyBase64, fun settings k externalId built =>
      Connector.policy_prerequisites built externalId, fun s p externalId built => ?_⟩
  · exact (Base64.encodes_encode _).unique hcs
  · rcases build_cases s with ⟨h, k, hk, _⟩ | hfault
    · exact .inl ⟨h, _, hk⟩
    · exact .inr hfault
  · rcases build_cases s with ⟨_, k, hk, hnew⟩ | ⟨_, fault, hfault⟩
    · cases hk.symm.trans built
      obtain ⟨text, q, hpolicy, hread, henforces⟩ :=
        Connector.policy_prerequisites hnew externalId
      exact ⟨k, _, text, q, rfl, rfl, hpolicy, hread, henforces⟩
    · cases hfault.symm.trans built

theorem encoded_as_plain_run :
    (∃ document, Wraps Connector.runPolicy.policyBase64 document ∧
      RequiredActions.ofJson document = .ok ⟨[("*", ["ec2:Run"])]⟩) ∧
    ∃ text q, (Connector.runConnector.prerequisites "ext-1").policy = some text ∧
      RequiredActions.ofBase64 text = .ok q ∧ ∀ q', Connector.runConnector.Enforces q' ↔ q' = q := by
  obtain ⟨_, _, _, hread, _, _, _, hprerequisites, _⟩ := encoded_as_plain
  have hrun : RequiredActions.ofBase64 Connector.runPolicy.policyBase64 =
      .ok ⟨[("*", ["ec2:Run"])]⟩ :=
    RequiredActions.ofBase64_eq_ok.mpr ⟨_, Connector.read_runPolicy, rfl⟩
  exact ⟨hread _ _ hrun, hprerequisites _ _ "ext-1" Connector.new_runPolicy⟩

end ClusterControl.Aws
