import ClusterControl.Aws.Access

/-!
# The method of a credential

A credential names a role when it has a role and neither key, and a key pair when it has both keys
and no role. Only texts that are not blank count.
-/

namespace ClusterControl

namespace Credential

variable {c : Credential} {key text : String}

def Gives (c : Credential) (key text : String) : Prop :=
  c.parameter? key = some (.text text) ∧ Text.isBlankText text = false

/-- A parameter is missing, or no text, or a blank one. -/
def Lacks (c : Credential) (key : String) : Prop :=
  ∀ text, c.parameter? key = some (.text text) → Text.isBlankText text = true

theorem contentParameter?_eq_some : c.contentParameter? key = some text ↔ c.Gives key text := by
  unfold contentParameter? textParameter? Gives
  rw [Option.filter_eq_some_iff]
  cases c.parameter? key with
  | none => simp
  | some value => cases value <;> simp

theorem contentParameter?_eq_none : c.contentParameter? key = none ↔ c.Lacks key := by
  unfold contentParameter? textParameter? Lacks
  rw [Option.filter_eq_none_iff]
  cases c.parameter? key with
  | none => simp
  | some value => cases value <;> simp

inductive Names (c : Credential) : Aws.Method → Prop
  | role {arn : String} (role : c.Gives "roleArn" arn) (noKey : c.Lacks "accessKey")
      (noSecret : c.Lacks "secretKey") : Names c (.role arn)
  | keyPair {accessKey secret : String} (noRole : c.Lacks "roleArn")
      (key : c.Gives "accessKey" accessKey) (secret : c.Gives "secretKey" secret) :
      Names c (.keyPair accessKey)

end Credential

namespace Aws.Access

/-- The access of a credential has the method that the credential names. -/
theorem method_ofCredential {c : Credential} {governmentCloud : Bool} {m : Method} :
    (ofCredential c governmentCloud).method = .ok m ↔ c.Names m := by
  have hgives : ∀ key text, c.contentParameter? key = some text ↔ c.Gives key text :=
    fun _ _ => Credential.contentParameter?_eq_some
  have hlacks : ∀ key, c.contentParameter? key = none ↔ c.Lacks key :=
    fun _ => Credential.contentParameter?_eq_none
  constructor
  · intro h
    unfold method ofCredential at h
    dsimp only at h
    split at h
    next arn hr ha hs =>
      cases h
      exact .role ((hgives _ _).mp hr) ((hlacks _).mp ha) ((hlacks _).mp hs)
    next => cases h
    next accessKey secret hr ha hs =>
      cases h
      exact .keyPair ((hlacks _).mp hr) ((hgives _ _).mp ha) ((hgives _ _).mp hs)
    next => cases h
  · intro h
    cases h with
    | role role noKey noSecret =>
      simp [method, ofCredential, (hgives _ _).mpr role, (hlacks _).mpr noKey,
        (hlacks _).mpr noSecret]
    | keyPair noRole key secret =>
      simp [method, ofCredential, (hlacks _).mpr noRole, (hgives _ _).mpr key,
        (hgives _ _).mpr secret]

end Aws.Access

/-- A credential names one method at most. -/
theorem Credential.Names.unique {c : Credential} {m m' : Aws.Method} (h : c.Names m)
    (h' : c.Names m') : m = m' := by
  have hmethod : ∀ {m}, c.Names m → (Aws.Access.ofCredential c false).method = .ok m :=
    Aws.Access.method_ofCredential.mpr
  exact Except.ok.inj ((hmethod h).symm.trans (hmethod h'))

end ClusterControl
