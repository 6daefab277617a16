import ClusterControl.Credential.Status
import ClusterControl.Proofs.Json.Fields

/-!
# Statuses that are read from texts

A status that the control plane makes lists missing permissions just when its state says so, and a
list of missing permissions has an entry. The decoders do not look at this: they take the state and
the list as the text gives them, each by itself. So it holds of what was read just when it holds of
the text.
-/

namespace ClusterControl

open Json (Syntax)

theorem CredentialState.name_of_ofName? {t : String} {state : CredentialState}
    (h : CredentialState.ofName? t = some state) : state.name = t := by
  have hfound := List.find?_some h
  exact beq_iff_eq.mp hfound

theorem CredentialState.name_injective {a b : CredentialState} (h : a.name = b.name) : a = b := by
  have hname := CredentialState.ofName?_name a
  rw [h, CredentialState.ofName?_name] at hname
  exact (Option.some.inj hname).symm

namespace MissingPermissions

theorem ofDenied?_eq_some {m : MissingPermissions} :
    ofDenied? m.denied = some m ↔ m.denied ≠ [] := by
  unfold ofDenied?
  cases hm : m.denied with
  | nil => simp
  | cons => simp [← hm]

/-- A list of denied pairs is read from a list of texts, the empty list not excepted. -/
theorem items_of_read {text : String} {m : MissingPermissions}
    (h : decode.read? text = some m) :
    ∃ items, Syntax.read? text.toList = some (.list items) ∧
      List.Forall₂ Syntax.IsText items m.denied := by
  obtain ⟨tree, htree, hdecode⟩ := Option.bind_eq_some_iff.mp h
  obtain ⟨denied, hdenied, rfl⟩ := Option.map_eq_some_iff.mp hdecode
  obtain ⟨items, rfl, hitems⟩ := Json.Decoder.listOf_text_eq_some hdenied
  exact ⟨items, htree, hitems⟩

end MissingPermissions

namespace CredentialStatus

def fields : List String := ["credential_crn", "state", "reason", "cause", "missing_permissions"]

/-- A text's own state and list of missing permissions are those of a status. -/
structure Given (s : CredentialStatus) (state : Syntax) (missing : Option Syntax) : Prop where
  state_word : state.IsWord s.state.name
  missing_texts : missing = none ∧ s.missing = [] ∨
    ∃ items, missing = some (.list items) ∧ List.Forall₂ Syntax.IsText items s.missing

variable {s : CredentialStatus} {state : Syntax} {missing : Option Syntax}

theorem Given.state_iff (h : Given s state missing) (other : CredentialState) :
    s.state = other ↔ state.IsWord other.name := by
  constructor
  · rintro rfl
    exact h.state_word
  · exact fun hother => CredentialState.name_injective (h.state_word.unique hother)

theorem Given.missing_iff (h : Given s state missing) :
    s.missing ≠ [] ↔ ∃ x xs, missing = some (.list (x :: xs)) := by
  rcases h.missing_texts with ⟨rfl, hnone⟩ | ⟨items, rfl, hitems⟩
  · simp [hnone]
  · generalize s.missing = texts at hitems
    cases hitems <;> simp

/-- State and list are read from their fields alone. -/
theorem given_of_decode {levels : Nat} {tree : Syntax} (h : decode levels tree = some s) :
    ∃ state, tree.field? fields "state" = some state ∧
      Given s state (tree.field? fields "missing_permissions") := by
  obtain ⟨slots, hslots, h⟩ := Option.bind_eq_some_iff.mp h
  obtain ⟨crn, _, h⟩ := Option.bind_eq_some_iff.mp h
  obtain ⟨state, hstate, h⟩ := Option.bind_eq_some_iff.mp h
  obtain ⟨reason, _, h⟩ := Option.bind_eq_some_iff.mp h
  obtain ⟨cause, _, h⟩ := Option.bind_eq_some_iff.mp h
  obtain ⟨missing, hmissing, h⟩ := Option.bind_eq_some_iff.mp h
  cases h
  have hget : ∀ name ∈ fields, slots.get? name = tree.field? fields name :=
    fun name hname => (Json.Slots.get?_of_open? hslots hname).1
  obtain ⟨x, hx, hread⟩ := Option.bind_eq_some_iff.mp hstate
  obtain ⟨t, hword, hname⟩ := Json.Decoder.isWord_of_oneOf hread
  rw [← CredentialState.name_of_ofName? hname] at hword
  refine ⟨x, hget "state" (by decide) ▸ hx, hword, ?_⟩
  rw [← hget "missing_permissions" (by decide)]
  unfold Json.Slots.withDefault at hmissing
  split at hmissing
  next y hy =>
    obtain ⟨items, rfl, hitems⟩ := Json.Decoder.listOf_text_eq_some hmissing
    exact .inr ⟨items, hy, hitems⟩
  next hy =>
    cases hmissing
    exact .inl ⟨hy, rfl⟩

/-- What was read keeps to what the constructors establish just when the text does. A list of denied
pairs is one that the constructor makes unless the text is an empty list. A status lists missing
permissions just when its state says so unless the two fields of the text, each read by itself, are
at odds. -/
theorem coherent_iff_text (text : String) :
    (∀ m, MissingPermissions.decode.read? text = some m →
      (MissingPermissions.ofDenied? m.denied = some m ↔
        Syntax.read? text.toList ≠ some (.list []))) ∧
    ∀ s, CredentialStatus.decode.read? text = some s →
      ∃ tree state, Syntax.read? text.toList = some tree ∧
        tree.field? fields "state" = some state ∧
        Given s state (tree.field? fields "missing_permissions") ∧
        ((s.missing ≠ [] ↔ s.state = .permissionsMissing) ↔
          ((∃ x xs, tree.field? fields "missing_permissions" = some (.list (x :: xs))) ↔
            state.IsWord "PERMISSIONS_MISSING")) := by
  constructor
  · intro m hm
    obtain ⟨items, hread, hitems⟩ := MissingPermissions.items_of_read hm
    rw [MissingPermissions.ofDenied?_eq_some, hread]
    generalize m.denied = denied at hitems
    cases hitems <;> simp
  · intro s hs
    obtain ⟨tree, htree, hdecode⟩ := Option.bind_eq_some_iff.mp hs
    obtain ⟨state, hstate, hgiven⟩ := given_of_decode hdecode
    refine ⟨tree, state, htree, hstate, hgiven, ?_⟩
    rw [hgiven.missing_iff, hgiven.state_iff]
    rfl

theorem coherent_iff_text_denied :
    ∃ tree state, Syntax.read? "[\"crn\", \"PERMISSIONS_MISSING\", null, null, [\"a:b\"]]".toList =
        some tree ∧ tree.field? fields "state" = some state ∧
      Given ⟨"crn", .permissionsMissing, none, none, ["a:b"]⟩ state
        (tree.field? fields "missing_permissions") := by
  obtain ⟨_, hstatus⟩ :=
    coherent_iff_text "[\"crn\", \"PERMISSIONS_MISSING\", null, null, [\"a:b\"]]"
  obtain ⟨tree, state, htree, hstate, hgiven, _⟩ :=
    hstatus ⟨"crn", .permissionsMissing, none, none, ["a:b"]⟩ (by decide +kernel)
  exact ⟨tree, state, htree, hstate, hgiven⟩

/-- The decoders admit an empty list of denied pairs, a state that says permissions are missing
without any, and missing permissions in another state. -/
theorem incoherent_texts :
    (∃ m, MissingPermissions.decode.read? "[]" = some m ∧ m.denied = []) ∧
    (∃ s, decode.read? "[\"crn\", \"PERMISSIONS_MISSING\", null, null]" = some s ∧
      s.state = .permissionsMissing ∧ s.missing = []) ∧
    ∃ s, decode.read? ("\x7b\"credential_crn\": \"crn\", \"state\": \"VERIFIED\", " ++
        "\"missing_permissions\": [\"a:b\"]\x7d") = some s ∧
      s.state = .verified ∧ s.missing ≠ [] := by
  refine ⟨⟨⟨[]⟩, by decide +kernel, rfl⟩,
    ⟨⟨"crn", .permissionsMissing, none, none, []⟩, by decide +kernel, rfl, rfl⟩,
    ⟨"crn", .verified, none, none, ["a:b"]⟩, by decide +kernel, rfl, by decide⟩

end CredentialStatus

end ClusterControl
