import ClusterControl.Proofs.Aws.RequiredActions
import ClusterControl.Proofs.Json.Records
import Mathlib.Data.Finset.Card
import Mathlib.Data.List.Perm.Basic

/-!
# How a policy is merged

The statements of a policy are gone through in their order, and for each of them its resources.
After every step the actions of a resource are those that the statements so far name for it, each at
its first place. What a set lists does not depend on how the policy is worded: on the order of its
statements, on repetitions, on whether a statement names several resources or actions, and on
whether a single text stands in a list.
-/

namespace ClusterControl.Aws

namespace Statement

def ofJson? (text : String) : Option (List Statement) := decodeDocument.read? text

/-- The actions that statements name for a resource, one after the other. -/
def told (statements : List Statement) (resource : String) : List String :=
  (statements.filter (resource ∈ ·.resources)).flatMap (·.actions)

end Statement

namespace RequiredActions

open Statement (told)

variable {entries : List (String × List String)} {resource action r a : String}
  {actions known new : List String} {s : Statement} {statements : List Statement}

/-- Merging keeps every action at its first place. -/
theorem merge_eraseDups : merge known.eraseDups new = (known ++ new).eraseDups := by
  induction new generalizing known with
  | nil => simp [merge]
  | cons a new ih =>
    have hstep : (if known.eraseDups.contains a then known.eraseDups
        else known.eraseDups ++ [a]) = (known ++ [a]).eraseDups := by
      rw [List.eraseDups_append]
      by_cases ha : a ∈ known <;> simp [List.removeAll, List.eraseDups_cons, ha]
    calc merge known.eraseDups (a :: new)
        = merge (known ++ [a]).eraseDups new := by rw [← hstep]; rfl
      _ = (known ++ a :: new).eraseDups := by rw [ih, List.append_assoc]; rfl

theorem merge_of_subset (h : new ⊆ known) : merge known new = known := by
  induction new with
  | nil => rfl
  | cons a new ih =>
    obtain ⟨ha, hnew⟩ := List.cons_subset.mp h
    simp only [merge, List.foldl_cons, List.contains_iff_mem.mpr ha, if_true]
    exact ih hnew

theorem nodup_merge (h : known.Nodup) : (merge known new).Nodup := by
  induction new generalizing known with
  | nil => exact h
  | cons a new ih =>
    simp only [merge, List.foldl_cons]
    split
    next => exact ih h
    next ha =>
      refine ih (List.nodup_append.mpr ⟨h, List.nodup_singleton a, ?_⟩)
      rintro b hb c hc rfl
      rw [List.mem_singleton.mp hc] at hb
      exact ha (List.contains_iff_mem.mpr hb)

def actionsOf (entries : List (String × List String)) (r : String) : List String :=
  ((entries.find? (·.1 == r)).map (·.2)).getD []

theorem actionsOf_cons {entry : String × List String} :
    actionsOf (entry :: entries) r = if entry.1 = r then entry.2 else actionsOf entries r := by
  by_cases h : entry.1 = r <;> simp [actionsOf, h]

/-- Below the first resource of an ordered list there are no actions. -/
theorem actionsOf_of_lt (h : ∀ x ∈ entries.map (·.1), r < x) : actionsOf entries r = [] := by
  have hnone : entries.find? (·.1 == r) = none := by
    refine List.find?_eq_none.mpr fun e he heq => ?_
    have hlt := h e.1 (List.mem_map_of_mem he)
    rw [beq_iff_eq.mp heq] at hlt
    exact String.lt_irrefl r hlt
  simp [actionsOf, hnone]

theorem actionsOf_of_mem (ordered : Ordered entries) (h : (r, actions) ∈ entries) :
    actionsOf entries r = actions := by
  induction entries with
  | nil => cases h
  | cons entry entries ih =>
    obtain ⟨hfirst, hrest⟩ := List.pairwise_cons.mp ordered
    rw [actionsOf_cons]
    rcases List.mem_cons.mp h with rfl | h
    · rw [if_pos rfl]
    · have hlt := hfirst r (List.mem_map_of_mem h)
      have hne : entry.1 ≠ r := fun heq => String.lt_irrefl r (heq ▸ hlt)
      rw [if_neg hne]
      exact ih hrest h

theorem actionsOf_add (ordered : Ordered entries) :
    actionsOf (add resource actions entries) r =
      if resource = r then merge (actionsOf entries r) actions else actionsOf entries r := by
  induction entries with
  | nil => simp only [add, actionsOf_cons]; rfl
  | cons entry entries ih =>
    obtain ⟨x, known⟩ := entry
    obtain ⟨hfirst, hrest⟩ := List.pairwise_cons.mp ordered
    simp only [add]
    split
    next hlt =>
      rw [actionsOf_cons]
      refine ite_congr rfl (fun h => ?_) fun _ => rfl
      subst h
      rw [actionsOf_of_lt]
      intro y hy
      rcases List.mem_cons.mp hy with rfl | hy
      · exact hlt
      · exact String.lt_trans hlt (hfirst y hy)
    next =>
      split
      next hx =>
        subst hx
        simp only [actionsOf_cons]
        split <;> rfl
      next hne =>
        simp only [actionsOf_cons, ih hrest]
        by_cases hx : x = r
        · subst hx
          simp only [if_true, if_neg hne]
        · simp only [if_neg hx]

/-- A statement adds its actions to those of each of its resources, however often it names it. -/
theorem actionsOf_addStatement (ordered : Ordered entries) :
    actionsOf (addStatement entries s) r =
      if r ∈ s.resources then merge (actionsOf entries r) s.actions else actionsOf entries r := by
  unfold addStatement
  generalize s.resources = resources
  induction resources generalizing entries with
  | nil => simp
  | cons x resources ih =>
    rw [List.foldl_cons, ih ordered.add, actionsOf_add ordered]
    by_cases hx : x = r
    · have hagain : merge (merge (actionsOf entries r) s.actions) s.actions =
          merge (actionsOf entries r) s.actions :=
        merge_of_subset fun a ha => mem_merge.mpr (.inr ha)
      simp [hx, hagain]
    · simp [hx, Ne.symm hx]

/-- After some statements the actions of a resource are those that they name for it. -/
theorem actionsOf_foldl (before : List Statement) (ordered : Ordered entries)
    (h : actionsOf entries r = (told before r).eraseDups) :
    actionsOf (statements.foldl addStatement entries) r =
      (told (before ++ statements) r).eraseDups := by
  induction statements generalizing entries before with
  | nil => simpa using h
  | cons s statements ih =>
    rw [List.append_cons]
    refine ih (before ++ [s]) ordered.addStatement ?_
    rw [actionsOf_addStatement ordered, h]
    by_cases hr : r ∈ s.resources
    · simp [told, hr, merge_eraseDups]
    · simp [told, hr]

/-- Merging actions into none leaves each at its first place. -/
theorem actionsOf_ofStatements :
    actionsOf (statements.foldl addStatement []) r = (told statements r).eraseDups :=
  actionsOf_foldl [] .nil rfl

theorem nodup_eraseDups : known.eraseDups.Nodup := by
  have h : merge [].eraseDups known = ([] ++ known).eraseDups := merge_eraseDups
  rw [List.nil_append, List.eraseDups_nil] at h
  exact h ▸ nodup_merge .nil

/-- What a set has to do with the statements that it was read from. -/
structure Merges (statements : List Statement) (q : RequiredActions) : Prop where
  lists : ∀ r a, Lists q.toList r a ↔ ∃ s ∈ statements, r ∈ s.resources ∧ a ∈ s.actions
  ascends : (q.toList.map (·.1)).Pairwise (· < ·)
  actions : ∀ r actions, (r, actions) ∈ q.toList →
    actions ≠ [] ∧ actions.Nodup ∧ actions = (told statements r).eraseDups
  size : q.size = q.toList.length
  counts : q.size =
    ((statements.filter (·.actions ≠ [])).flatMap (·.resources)).toFinset.card
  isEmpty : q.isEmpty = true ↔ q.toList = []
  blank : q.isEmpty = true ↔ ∀ s ∈ statements, s.resources = [] ∨ s.actions = []

theorem actions_ne_nil (h : (r, actions) ∈ (ofStatements statements).entries) : actions ≠ [] := by
  rintro rfl
  cases (List.mem_filter.mp h).2

/-- A resource is in the set just when a statement with some action names it. -/
theorem mem_resources_ofStatements :
    r ∈ (ofStatements statements).entries.map (·.1) ↔
      r ∈ (statements.filter (·.actions ≠ [])).flatMap (·.resources) := by
  constructor
  · intro h
    obtain ⟨⟨r, actions⟩, hmem, rfl⟩ := List.mem_map.mp h
    obtain ⟨a, ha⟩ := List.exists_mem_of_ne_nil _ (actions_ne_nil hmem)
    obtain ⟨s, hs, hr, has⟩ := lists_ofStatements.mp ⟨actions, hmem, ha⟩
    have hne : s.actions ≠ [] := List.ne_nil_of_mem has
    exact List.mem_flatMap.mpr ⟨s, List.mem_filter.mpr ⟨hs, decide_eq_true hne⟩, hr⟩
  · intro h
    obtain ⟨s, hs, hr⟩ := List.mem_flatMap.mp h
    obtain ⟨hs, hne⟩ := List.mem_filter.mp hs
    obtain ⟨a, ha⟩ := List.exists_mem_of_ne_nil _ (of_decide_eq_true hne)
    obtain ⟨actions, hmem, -⟩ := lists_ofStatements.mpr ⟨s, hs, hr, ha⟩
    exact List.mem_map_of_mem (f := Prod.fst) hmem

theorem merges_ofStatements : Merges statements (ofStatements statements) where
  lists _ _ := lists_ofStatements
  ascends := ordered_ofStatements
  actions r actions h := by
    have hordered : Ordered (statements.foldl addStatement []) := Ordered.foldl List.Pairwise.nil
    have htold : actions = (told statements r).eraseDups := by
      rw [← actionsOf_of_mem hordered (List.mem_filter.mp h).1, actionsOf_ofStatements]
    exact ⟨actions_ne_nil h, htold ▸ nodup_eraseDups, htold⟩
  size := rfl
  counts := by
    have hnodup : ((ofStatements statements).entries.map (·.1)).Nodup :=
      List.Pairwise.imp Std.ne_of_lt ordered_ofStatements
    have hsame : ((ofStatements statements).entries.map (·.1)).toFinset =
        ((statements.filter (·.actions ≠ [])).flatMap (·.resources)).toFinset := by
      ext r
      rw [List.mem_toFinset, List.mem_toFinset, mem_resources_ofStatements]
    rw [← hsame, List.toFinset_card_of_nodup hnodup, List.length_map]
    rfl
  isEmpty := List.isEmpty_iff
  blank := by
    rw [isEmpty, List.isEmpty_iff, ← List.map_eq_nil_iff (f := (·.1)),
      List.eq_nil_iff_forall_not_mem]
    simp only [mem_resources_ofStatements, List.mem_flatMap, List.mem_filter, decide_eq_true_eq]
    constructor
    · intro h s hs
      rw [or_iff_not_imp_right]
      exact fun hne => List.eq_nil_iff_forall_not_mem.mpr fun r hr => h r ⟨s, ⟨hs, hne⟩, hr⟩
    · rintro h r ⟨s, ⟨hs, hne⟩, hr⟩
      rcases h s hs with hnil | hnil
      · rw [hnil] at hr
        cases hr
      · exact hne hnil

/-- A policy text is read just when it has statements, and then as what they require. -/
theorem ofJson_eq_ok {text : String} {q : RequiredActions} :
    ofJson text = .ok q ↔
      ∃ statements, Statement.ofJson? text = some statements ∧ q = ofStatements statements := by
  unfold ofJson Statement.ofJson?
  cases Statement.decodeDocument.read? text with
  | none => simp
  | some statements => simp [eq_comm]

end RequiredActions

namespace Statement

/-- Another wording of some statements: in another order, with repetitions, and with one statement
for each resource or for each action of a statement. -/
inductive Reworded : List Statement → List Statement → Prop
  | permuted {ss ts : List Statement} (h : ss.Perm ts) : Reworded ss ts
  | repeated {s : Statement} {ss : List Statement} (h : s ∈ ss) : Reworded ss (s :: ss)
  | perResource {s : Statement} {ss : List Statement} :
      Reworded (s :: ss) (s.resources.map (⟨[·], s.actions⟩) ++ ss)
  | perAction {s : Statement} {ss : List Statement} :
      Reworded (s :: ss) (s.actions.map (⟨s.resources, [·]⟩) ++ ss)
  | trans {ss ts us : List Statement} (first : Reworded ss ts) (second : Reworded ts us) :
      Reworded ss us

/-- However statements are worded, they name the same actions for a resource. -/
theorem Reworded.names_iff {ss ts : List Statement} (h : Reworded ss ts) (r a : String) :
    (∃ s ∈ ss, r ∈ s.resources ∧ a ∈ s.actions) ↔ ∃ s ∈ ts, r ∈ s.resources ∧ a ∈ s.actions := by
  induction h with
  | permuted h => simp only [h.mem_iff]
  | repeated h =>
    simp only [List.exists_mem_cons_iff]
    exact (or_iff_right_of_imp fun hs => ⟨_, h, hs⟩).symm
  | perResource =>
    simp only [List.exists_mem_cons_iff, List.mem_append, or_and_right, exists_or, List.mem_map]
    refine or_congr_left ⟨?_, ?_⟩
    · rintro ⟨hr, ha⟩
      exact ⟨_, ⟨r, hr, rfl⟩, List.mem_singleton_self r, ha⟩
    · rintro ⟨_, ⟨x, hx, rfl⟩, hr, ha⟩
      exact ⟨List.mem_singleton.mp hr ▸ hx, ha⟩
  | perAction =>
    simp only [List.exists_mem_cons_iff, List.mem_append, or_and_right, exists_or, List.mem_map]
    refine or_congr_left ⟨?_, ?_⟩
    · rintro ⟨hr, ha⟩
      exact ⟨_, ⟨a, ha, rfl⟩, hr, List.mem_singleton_self a⟩
    · rintro ⟨_, ⟨x, hx, rfl⟩, hr, ha⟩
      exact ⟨hr, List.mem_singleton.mp ha ▸ hx⟩
  | trans _ _ first second => exact first.trans second

open Json (Syntax Piece Rewritten)

inductive Boxed : Syntax → Syntax → Prop
  | same {s : Syntax} : Boxed s s
  | boxed {ps : List Piece} : Boxed (.text ps) (.list [.text ps])

inductive Relisted : Syntax → Syntax → Prop
  | same {s : Syntax} : Relisted s s
  | fields {xs ys : List Syntax} (h : List.Forall₂ (Rewritten Boxed) xs ys) :
      Relisted (.list xs) (.list ys)

variable {levels : Nat} {s t : Syntax}

theorem oneOrMany_boxed (h : Boxed s t) :
    oneOrMany (levels + 1) s = oneOrMany (levels + 1) t := by
  cases h with
  | same => rfl
  | @boxed ps =>
    unfold oneOrMany Json.Decoder.json
    simp only [Json.ofSyntax?, Json.itemsOfSyntax?, Option.bind_eq_bind]
    cases Piece.text? ps <;> rfl

theorem decode_boxed (h : Rewritten Boxed s t) :
    decode (levels + 2) s = decode (levels + 2) t := by
  refine Json.bind_eq_bind (Json.Slots.open?_rewritten (levels + 1) h) ?_
  intro a b hab
  have hreads : ∀ s t, Boxed s t → oneOrMany (levels + 1) s = oneOrMany (levels + 1) t :=
    fun _ _ hst => oneOrMany_boxed hst
  rw [hab.withDefault_eq "Resource" hreads, hab.withDefault_eq "Action" hreads]

theorem listOf_relisted (h : Relisted s t) :
    Json.Decoder.listOf decode (levels + 3) s = Json.Decoder.listOf decode (levels + 3) t := by
  cases h with
  | same => rfl
  | fields h =>
    simp only [Json.Decoder.listOf]
    induction h with
    | nil => rfl
    | cons hxy _ ih => simp only [List.mapM_cons, decode_boxed hxy, ih]

theorem decodeDocument_relisted (h : Rewritten Relisted s t) :
    decodeDocument (levels + 4) s = decodeDocument (levels + 4) t := by
  refine Json.bind_eq_bind (Json.Slots.open?_rewritten (levels + 3) h) ?_
  intro a b hab
  exact hab.required_eq fun s t hst => listOf_relisted hst

/-- The texts of one policy, some texts of its statements standing in lists of their own. -/
def Boxes (text other : String) : Prop :=
  ∃ s t, Syntax.read? text.toList = some s ∧ Syntax.read? other.toList = some t ∧
    Rewritten Relisted s t

theorem ofJson?_of_boxes {text other : String} (h : Boxes text other) :
    ofJson? other = ofJson? text := by
  obtain ⟨s, t, hs, ht, hst⟩ := h
  unfold ofJson? Json.Decoder.read?
  rw [hs, ht]
  exact (decodeDocument_relisted hst).symm

end Statement

namespace RequiredActions

/-- Whatever policy is accepted is merged by resource. The set lists an action for a resource just
when one statement names both. It has each resource once, in ascending order, with the actions that
the statements name for it, each at its first place, and none without an action. So no other
wording of the statements changes what is listed, and a list around a single text changes nothing
at all. -/
theorem merge_law {text : String} {q : RequiredActions} (accepted : ofJson text = .ok q) :
    ∃ statements, Statement.ofJson? text = some statements ∧ Merges statements q ∧
      (∀ other q' statements', ofJson other = .ok q' →
        Statement.ofJson? other = some statements' → Statement.Reworded statements statements' →
          ∀ r a, Lists q'.toList r a ↔ Lists q.toList r a) ∧
      ∀ other, Statement.Boxes text other → ofJson other = .ok q := by
  obtain ⟨statements, hread, rfl⟩ := ofJson_eq_ok.mp accepted
  refine ⟨statements, hread, merges_ofStatements, ?_, ?_⟩
  · intro other q' statements' hother hread' hworded r a
    obtain ⟨_, hread'', rfl⟩ := ofJson_eq_ok.mp hother
    cases hread'.symm.trans hread''
    rw [merges_ofStatements.lists, merges_ofStatements.lists]
    exact (hworded.names_iff r a).symm
  · intro other hboxes
    exact ofJson_eq_ok.mpr ⟨statements, (Statement.ofJson?_of_boxes hboxes).trans hread, rfl⟩

def overlapping : String :=
  "\x7b\"Statement\": [" ++
    "\x7b\"Resource\": [\"b\", \"*\"], \"Action\": [\"put\", \"get\", \"put\"]\x7d, " ++
    "\x7b\"Resource\": \"b\", \"Action\": [\"get\", \"list\"]\x7d]\x7d"

theorem merge_law_overlapping :
    let q : RequiredActions := ⟨[("*", ["put", "get"]), ("b", ["put", "get", "list"])]⟩
    let statements : List Statement :=
      [⟨["b", "*"], ["put", "get", "put"]⟩, ⟨["b"], ["get", "list"]⟩]
    ofJson overlapping = .ok q ∧ Statement.ofJson? overlapping = some statements ∧
      Merges statements q := by
  intro q statements
  have read : Statement.ofJson? overlapping = some statements := by decide +kernel
  have accepted : ofJson overlapping = .ok q :=
    ofJson_eq_ok.mpr ⟨statements, read, by decide +kernel⟩
  obtain ⟨statements', hread, hmerges, -⟩ := merge_law accepted
  cases read.symm.trans hread
  exact ⟨accepted, read, hmerges⟩

end RequiredActions

end ClusterControl.Aws
