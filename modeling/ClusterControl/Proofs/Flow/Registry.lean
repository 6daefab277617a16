import ClusterControl.Flow.Registry
import Mathlib.Data.List.Nodup

/-!
# Unique registries

A registry is unique when it has at most one entry for a resource. On a unique registry a look-up is
membership, a claim appends one entry, and a release removes one flow and nothing else.

A registry is accounted for by a list of flows when its entries are those of the flows that hold
their resource, each once. Claims, releases and clean-ups keep the accounts.
-/

namespace ClusterControl.Flow.Registry

def Unique (g : Registry) : Prop := (g.map Entry.resourceId).Nodup

theorem unique_nil : Unique [] := List.nodup_nil

variable {g h : Registry} {resourceId : String} {e : Entry} {c : Context}

theorem Unique.eq (hg : g.Unique) {d : Entry} (he : e ∈ g) (hd : d ∈ g)
    (hr : e.resourceId = d.resourceId) : e = d :=
  List.inj_on_of_nodup_map hg he hd hr

theorem mem_of_flow? (hf : g.flow? resourceId = some e) : e ∈ g ∧ e.resourceId = resourceId := by
  refine ⟨List.mem_of_find?_eq_some hf, ?_⟩
  simpa using List.find?_some hf

theorem flow?_eq_none : g.flow? resourceId = none ↔ ∀ e ∈ g, e.resourceId ≠ resourceId := by
  simp [flow?]

theorem Unique.flow?_eq_some (hg : g.Unique) :
    g.flow? resourceId = some e ↔ e ∈ g ∧ e.resourceId = resourceId := by
  constructor
  · exact mem_of_flow?
  · rintro ⟨he, hr⟩
    cases hf : g.flow? resourceId with
    | none => exact absurd hr (flow?_eq_none.mp hf e he)
    | some d =>
      obtain ⟨hd, hdr⟩ := mem_of_flow? hf
      rw [hg.eq he hd (hr.trans hdr.symm)]

theorem isRunning_iff : g.isRunning resourceId = true ↔ ∃ e ∈ g, e.resourceId = resourceId := by
  unfold isRunning
  cases hf : g.flow? resourceId with
  | none => simpa using flow?_eq_none.mp hf
  | some e => simpa using ⟨e, mem_of_flow? hf⟩

theorem Unique.append (hg : g.Unique) (hr : g.isRunning e.resourceId = false) :
    Unique (g ++ [e]) := by
  have hn : ¬ ∃ d ∈ g, d.resourceId = e.resourceId := by
    rw [← isRunning_iff, hr]
    exact Bool.false_ne_true
  simp only [Unique, List.map_append, List.map_cons, List.map_nil]
  refine List.Nodup.append hg (List.nodup_singleton _) ?_
  intro r hm hs
  obtain ⟨d, hd, rfl⟩ := List.mem_map.mp hm
  exact hn ⟨d, hd, List.mem_singleton.mp hs⟩

theorem Unique.filter (hg : g.Unique) (p : Entry → Bool) : Unique (g.filter p) :=
  List.Nodup.sublist (List.filter_sublist.map _) hg

/-- A release removes the entries of one flow: it looks for the resource first, and on a unique
registry finds the flow there or nowhere. -/
theorem release_eq_filter (hg : g.Unique) {id : Id}
    (hown : ∀ e ∈ g, e.id = id → e.resourceId = resourceId) :
    g.release resourceId id = g.filter (·.id != id) := by
  unfold release
  cases hf : g.flow? resourceId with
  | none =>
    have hn := flow?_eq_none.mp hf
    symm
    apply List.filter_eq_self.mpr
    intro d hd
    have hne : d.id ≠ id := fun hi => hn d hd (hown d hd hi)
    simpa using hne
  | some e =>
    obtain ⟨he, hr⟩ := mem_of_flow? hf
    by_cases hi : e.id = id
    · -- The entry found is the only one of its resource and the only one of its flow.
      simp only [hi, if_true]
      apply List.filter_congr
      intro d hd
      have hiff : d.resourceId = resourceId ↔ d.id = id := by
        constructor
        · intro hdr
          rw [hg.eq hd he (hdr.trans hr.symm), hi]
        · exact hown d hd
      simp [bne, hiff]
    · simp only [hi, if_false]
      symm
      apply List.filter_eq_self.mpr
      intro d hd
      have hne : d.id ≠ id := by
        intro hdi
        rw [hg.eq hd he ((hown d hd hdi).trans hr.symm)] at hdi
        exact hi hdi
      simpa using hne

/-- No release removes an entry of another flow. -/
theorem mem_release (hg : g.Unique) {id : Id} (he : e ∈ g) (hi : e.id ≠ id) :
    e ∈ g.release resourceId id := by
  unfold release
  split
  next d hf =>
    obtain ⟨hd, hr⟩ := mem_of_flow? hf
    split
    next hdi =>
      refine List.mem_filter.mpr ⟨he, ?_⟩
      have hne : e.resourceId ≠ resourceId := by
        intro her
        rw [hg.eq he hd (her.trans hr.symm)] at hi
        exact hi hdi
      simpa using hne
    next => exact he
  next => exact he

/-- The entries of a registry are those of the flows of `cs` that hold their resource. The flows
have numbers of their own, all below `bound`, and were admitted in the order of their numbers. -/
structure Accounts (g : Registry) (cs : List Context) (holds : Context → Bool) (bound : Id) :
    Prop where
  registered : g.Perm ((cs.filter holds).map Entry.ofContext)
  unique : g.Unique
  ordered : g.Pairwise (·.id < ·.id)
  distinct : (cs.map Context.id).Nodup
  fresh : ∀ c ∈ cs, c.id < bound

namespace Accounts

variable {cs ds : List Context} {holds keeps : Context → Bool} {bound : Id}

theorem nil : Accounts [] [] holds bound :=
  ⟨.refl _, unique_nil, .nil, List.nodup_nil, by simp⟩

theorem mem_iff (a : Accounts g cs holds bound) :
    e ∈ g ↔ ∃ c ∈ cs, holds c = true ∧ Entry.ofContext c = e := by
  rw [a.registered.mem_iff]
  simp [and_assoc]

theorem mem (a : Accounts g cs holds bound) (hc : c ∈ cs) (hh : holds c = true) :
    Entry.ofContext c ∈ g :=
  a.mem_iff.mpr ⟨c, hc, hh, rfl⟩

theorem eq_of_id (a : Accounts g cs holds bound) {d : Context} (hc : c ∈ cs) (hd : d ∈ cs)
    (hi : c.id = d.id) : c = d :=
  List.inj_on_of_nodup_map a.distinct hc hd hi

/-- The entry of a flow stands under the resource of the flow. -/
theorem own (a : Accounts g cs holds bound) (hc : c ∈ cs) :
    ∀ e ∈ g, e.id = c.id → e.resourceId = c.start.resource.id := by
  intro e he hi
  obtain ⟨d, hd, _, rfl⟩ := a.mem_iff.mp he
  rw [a.eq_of_id hc hd hi.symm]
  rfl

theorem id_lt (a : Accounts g cs holds bound) (he : e ∈ g) : e.id < bound := by
  obtain ⟨d, hd, _, rfl⟩ := a.mem_iff.mp he
  exact a.fresh d hd

theorem perm (a : Accounts g cs holds bound) (hp : cs.Perm ds) : Accounts g ds holds bound where
  registered := a.registered.trans ((hp.filter holds).map _)
  unique := a.unique
  ordered := a.ordered
  distinct := (hp.map _).nodup_iff.mp a.distinct
  fresh c hc := a.fresh c (hp.mem_iff.mpr hc)

theorem congr (a : Accounts g cs holds bound) (hk : ∀ c ∈ cs, holds c = keeps c) :
    Accounts g cs keeps bound :=
  { a with registered := List.filter_congr hk ▸ a.registered }

theorem mono (a : Accounts g cs holds bound) {later : Id} (hb : bound ≤ later) :
    Accounts g cs holds later :=
  { a with fresh := fun c hc => Nat.lt_of_lt_of_le (a.fresh c hc) hb }

private theorem distinct_cons (a : Accounts g cs holds c.id) :
    ((c :: cs).map Context.id).Nodup := by
  simp only [List.map_cons, List.nodup_cons, List.mem_map, not_exists, not_and]
  refine ⟨?_, a.distinct⟩
  intro d hd hi
  exact Nat.lt_irrefl _ (hi ▸ a.fresh d hd)

private theorem fresh_cons (a : Accounts g cs holds c.id) :
    ∀ d ∈ c :: cs, d.id < c.id + 1 := by
  intro d hd
  rcases List.mem_cons.mp hd with rfl | hd
  · exact Nat.lt_succ_self _
  · exact Nat.lt_succ_of_lt (a.fresh d hd)

/-- A new flow outside the registry. -/
theorem cons (a : Accounts g cs holds c.id) (hc : holds c = false) :
    Accounts g (c :: cs) holds (c.id + 1) where
  registered := by simpa [hc] using a.registered
  unique := a.unique
  ordered := a.ordered
  distinct := a.distinct_cons
  fresh := a.fresh_cons

/-- A new flow with an idle resource. -/
theorem claim (a : Accounts g cs holds c.id) (hc : holds c = true)
    (hr : g.isRunning c.start.resource.id = false) :
    Accounts (g ++ [.ofContext c]) (c :: cs) holds (c.id + 1) where
  registered := by
    simp only [List.filter_cons, hc, if_true, List.map_cons]
    exact (List.perm_append_singleton _ _).trans (a.registered.cons _)
  unique := a.unique.append hr
  ordered := by
    refine List.pairwise_append.mpr ⟨a.ordered, List.pairwise_singleton _ _, ?_⟩
    intro e he d hd
    rw [List.mem_singleton.mp hd]
    exact a.id_lt he
  distinct := a.distinct_cons
  fresh := a.fresh_cons

/-- A flow gives its resource back, if it has one. -/
theorem release (a : Accounts g cs holds bound) (hc : c ∈ cs) :
    Accounts (g.release c.start.resource.id c.id) cs (fun d => holds d && d.id != c.id) bound := by
  have hf := release_eq_filter a.unique (a.own hc)
  refine ⟨?_, ?_, ?_, a.distinct, a.fresh⟩
  · have hp := a.registered.filter (·.id != c.id)
    rw [List.filter_map, List.filter_filter] at hp
    rw [hf]
    simpa only [Function.comp_def, Entry.ofContext, Bool.and_comm] using hp
  · rw [hf]
    exact a.unique.filter _
  · rw [hf]
    exact a.ordered.filter _

theorem tail (a : Accounts g (c :: cs) holds bound) (hc : holds c = false) :
    Accounts g cs holds bound where
  registered := by simpa [hc] using a.registered
  unique := a.unique
  ordered := a.ordered
  distinct := (List.nodup_cons.mp a.distinct).2
  fresh d hd := a.fresh d (List.mem_cons_of_mem _ hd)

/-- A flow gives its resource back and is gone. -/
theorem release_tail (a : Accounts g (c :: cs) holds bound) :
    Accounts (g.release c.start.resource.id c.id) cs holds bound := by
  have hr := (a.release List.mem_cons_self).tail (by simp)
  apply hr.congr
  intro d hd
  have hne : d.id ≠ c.id := by
    intro hi
    exact (List.nodup_cons.mp a.distinct).1 (hi ▸ List.mem_map_of_mem hd)
  simp [hne]

end Accounts

end ClusterControl.Flow.Registry
