import ClusterControl.Aws.RequiredActions

/-!
# What a policy requires

A set of required actions lists an action for a resource just when one statement of the policy names
both. Its resources ascend, so that each stands once.
-/

namespace ClusterControl.Aws

namespace RequiredActions

variable {entries : List (String × List String)} {resource action r a : String}
  {actions known new : List String} {s : Statement} {statements : List Statement}

def Lists (entries : List (String × List String)) (resource action : String) : Prop :=
  ∃ actions, (resource, actions) ∈ entries ∧ action ∈ actions

def Ordered (entries : List (String × List String)) : Prop :=
  (entries.map (·.1)).Pairwise (· < ·)

theorem mem_merge : a ∈ merge known new ↔ a ∈ known ∨ a ∈ new := by
  induction new generalizing known with
  | nil => simp [merge]
  | cons b new ih =>
    have hstep : merge known (b :: new) =
        merge (if known.contains b then known else known ++ [b]) new := rfl
    rw [hstep, ih, List.mem_cons]
    split
    next hb =>
      have hab : a = b → a ∈ known := fun h => h ▸ List.contains_iff_mem.mp hb
      grind
    next => grind

theorem lists_cons {entry : String × List String} :
    Lists (entry :: entries) r a ↔ (r = entry.1 ∧ a ∈ entry.2) ∨ Lists entries r a := by
  obtain ⟨resource, actions⟩ := entry
  simp [Lists, or_and_right, exists_or, Prod.mk.injEq, and_assoc]

theorem lists_add :
    Lists (add resource actions entries) r a ↔
      Lists entries r a ∨ (r = resource ∧ a ∈ actions) := by
  induction entries with
  | nil =>
    simp only [add, lists_cons, mem_merge, List.not_mem_nil, false_or]
    exact or_comm
  | cons entry entries ih =>
    obtain ⟨x, known⟩ := entry
    simp only [add]
    split
    · simp only [lists_cons, mem_merge, List.not_mem_nil, false_or]
      exact or_comm
    · split
      next hx =>
        simp only [lists_cons, mem_merge]
        grind
      next => grind [lists_cons]

theorem mem_resources_add :
    r ∈ (add resource actions entries).map (·.1) ↔ r = resource ∨ r ∈ entries.map (·.1) := by
  induction entries with
  | nil => simp [add]
  | cons entry entries ih =>
    obtain ⟨x, known⟩ := entry
    simp only [add]
    split
    · simp
    · split
      next hx => simp [hx]
      next =>
        simp only [List.map_cons, List.mem_cons, ih]
        exact or_left_comm

theorem Ordered.add (h : Ordered entries) : Ordered (add resource actions entries) := by
  induction entries with
  | nil => simp [RequiredActions.add, Ordered]
  | cons entry entries ih =>
    obtain ⟨x, known⟩ := entry
    obtain ⟨hx, hrest⟩ := List.pairwise_cons.mp h
    simp only [RequiredActions.add]
    split
    next hlt =>
      refine List.pairwise_cons.mpr ⟨?_, h⟩
      intro y hy
      rcases List.mem_cons.mp hy with rfl | hy
      · exact hlt
      · exact String.lt_trans hlt (hx y hy)
    next hnlt =>
      split
      next => exact List.pairwise_cons.mpr ⟨hx, hrest⟩
      next hne =>
        refine List.pairwise_cons.mpr ⟨?_, ih hrest⟩
        intro y hy
        rcases mem_resources_add.mp hy with rfl | hy
        · exact Std.lt_of_le_of_ne (String.not_lt.mp hnlt) (Ne.symm hne)
        · exact hx y hy

theorem lists_addStatement :
    Lists (addStatement entries s) r a ↔
      Lists entries r a ∨ (r ∈ s.resources ∧ a ∈ s.actions) := by
  obtain ⟨resources, actions⟩ := s
  simp only [addStatement]
  induction resources generalizing entries with
  | nil => simp
  | cons x resources ih =>
    rw [List.foldl_cons, ih, lists_add, List.mem_cons]
    grind

theorem Ordered.addStatement (h : Ordered entries) : Ordered (addStatement entries s) := by
  unfold RequiredActions.addStatement
  generalize s.resources = resources
  induction resources generalizing entries with
  | nil => exact h
  | cons x resources ih => exact ih h.add

/-- An action is required on a resource just when some statement names both. -/
theorem lists_ofStatements :
    Lists (ofStatements statements).entries r a ↔
      ∃ s ∈ statements, r ∈ s.resources ∧ a ∈ s.actions := by
  have hfold : ∀ entries, Lists (statements.foldl addStatement entries) r a ↔
      Lists entries r a ∨ ∃ s ∈ statements, r ∈ s.resources ∧ a ∈ s.actions := by
    induction statements with
    | nil => simp
    | cons s statements ih =>
      intro entries
      rw [List.foldl_cons, ih, lists_addStatement]
      simp [or_assoc]
  have hfilter : Lists (ofStatements statements).entries r a ↔
      Lists (statements.foldl addStatement []) r a := by
    constructor
    · rintro ⟨actions, h, ha⟩
      exact ⟨actions, (List.mem_filter.mp h).1, ha⟩
    · rintro ⟨actions, h, ha⟩
      refine ⟨actions, List.mem_filter.mpr ⟨h, ?_⟩, ha⟩
      cases actions with
      | nil => cases ha
      | cons => rfl
  rw [hfilter, hfold]
  simp [Lists]

theorem Ordered.foldl (h : Ordered entries) :
    Ordered (statements.foldl RequiredActions.addStatement entries) := by
  induction statements generalizing entries with
  | nil => exact h
  | cons s statements ih => exact ih h.addStatement

/-- The required resources ascend. -/
theorem ordered_ofStatements : Ordered (ofStatements statements).entries :=
  List.Pairwise.sublist (List.filter_sublist.map _) (Ordered.foldl .nil)

end RequiredActions

namespace Statement

def ofBase64? (text : String) : Option (List Statement) := do
  let bytes ← Base64.decode? (Text.strip text.toList)
  let json ← String.fromUTF8? ⟨bytes.toArray⟩
  decodeDocument.read? json

end Statement

namespace RequiredActions

/-- A policy text is read just when it has statements, and then as what they require. -/
theorem ofBase64_eq_ok {text : String} {q : RequiredActions} :
    ofBase64 text = .ok q ↔
      ∃ statements, Statement.ofBase64? text = some statements ∧ q = ofStatements statements := by
  unfold ofBase64 Statement.ofBase64? ofJson
  cases Base64.decode? (Text.strip text.toList) with
  | none => simp
  | some bytes =>
    simp only [Option.bind_eq_bind, Option.bind_some]
    cases String.fromUTF8? ⟨bytes.toArray⟩ with
    | none => simp
    | some json =>
      simp only [Option.bind_some]
      cases Statement.decodeDocument.read? json with
      | none => simp
      | some statements => simp [eq_comm]

end RequiredActions

end ClusterControl.Aws
