import ClusterControl.Proofs.Json.Writing

/-!
# Values of any shape

A value of any shape is read as it is held: numbers of 64 bits, members in ascending order. A value
that is held is read back from every tree that writes it, since members that ascend can be put
together from any order in one way only.
-/

namespace ClusterControl.Json

namespace Members

variable {name : String} {value : Json} {m : String × Json} {ms ks : Members}

theorem mem_insert (h : m ∈ insert name value ms) : m = (name, value) ∨ m ∈ ms := by
  induction ms with
  | nil => exact .inl (List.mem_singleton.mp h)
  | cons entry ms ih =>
    obtain ⟨n, v⟩ := entry
    simp only [insert] at h
    split at h
    · exact List.mem_cons.mp h
    · split at h
      · exact (List.mem_cons.mp h).imp_right (List.mem_cons_of_mem _)
      · rcases List.mem_cons.mp h with rfl | h
        · exact .inr List.mem_cons_self
        · exact (ih h).imp_right (List.mem_cons_of_mem _)

theorem Ascending.insert (h : Ascending ms) : Ascending (insert name value ms) := by
  induction ms with
  | nil => exact List.pairwise_singleton _ _
  | cons entry ms ih =>
    obtain ⟨n, v⟩ := entry
    obtain ⟨hn, hrest⟩ := List.pairwise_cons.mp h
    simp only [Members.insert]
    split
    next hlt =>
      refine List.pairwise_cons.mpr ⟨fun a ha => ?_, h⟩
      rcases List.mem_cons.mp ha with rfl | ha
      · exact hlt
      · exact String.lt_trans hlt (hn a ha)
    next hnlt =>
      split
      next heq => exact heq ▸ h
      next hne =>
        refine List.pairwise_cons.mpr ⟨fun a ha => ?_, ih hrest⟩
        obtain ⟨m, hm, rfl⟩ := List.mem_map.mp ha
        rcases mem_insert hm with rfl | hm
        · exact Std.lt_of_le_of_ne (String.not_lt.mp hnlt) (Ne.symm hne)
        · exact hn _ (List.mem_map_of_mem hm)

/-- A new name adds a member and changes none. -/
theorem insert_perm (h : name ∉ ms.map (·.1)) : (insert name value ms).Perm ((name, value) :: ms) := by
  induction ms with
  | nil => exact .refl _
  | cons entry ms ih =>
    obtain ⟨n, v⟩ := entry
    rw [List.map_cons, List.mem_cons, not_or] at h
    simp only [insert, h.1, if_false]
    split
    · exact .refl _
    · exact ((ih h.2).cons _).trans (.swap ..)

/-- Members put together one after another. -/
theorem ascending_foldl (settings : List (String × Json)) (h : Ascending ms) :
    Ascending (settings.foldl (fun m s => insert s.1 s.2 m) ms) := by
  induction settings generalizing ms with
  | nil => exact h
  | cons s settings ih => exact ih h.insert

theorem ascending_ofList (settings : List (String × Json)) : Ascending (ofList settings) :=
  ascending_foldl settings List.Pairwise.nil

theorem mem_foldl {settings : List (String × Json)}
    (h : m ∈ settings.foldl (fun m s => insert s.1 s.2 m) ms) : m ∈ settings ∨ m ∈ ms := by
  induction settings generalizing ms with
  | nil => exact .inr h
  | cons s settings ih =>
    rcases ih h with h | h
    · exact .inl (List.mem_cons_of_mem _ h)
    · rcases mem_insert h with rfl | h
      · exact .inl List.mem_cons_self
      · exact .inr h

theorem mem_of_mem_ofList {settings : List (String × Json)} (h : m ∈ ofList settings) :
    m ∈ settings :=
  (mem_foldl h).resolve_right (List.not_mem_nil)

theorem foldl_perm {settings : List (String × Json)}
    (h : ((settings ++ ms).map (·.1)).Nodup) :
    (settings.foldl (fun m s => insert s.1 s.2 m) ms).Perm (settings ++ ms) := by
  induction settings generalizing ms with
  | nil => exact .refl _
  | cons s settings ih =>
    have hnew : s.1 ∉ ms.map (·.1) := fun hs => by
      rw [List.cons_append, List.map_cons, List.nodup_cons] at h
      exact h.1 (by rw [List.map_append]; exact List.mem_append_right _ hs)
    have hmiddle : (settings ++ insert s.1 s.2 ms).Perm (s :: settings ++ ms) :=
      ((insert_perm hnew).append_left settings).trans List.perm_middle
    exact (ih ((hmiddle.map (·.1)).nodup_iff.mpr h)).trans hmiddle

theorem Ascending.nodup (h : Ascending ms) : (ms.map (·.1)).Nodup := by
  refine List.Pairwise.imp ?_ h
  intro a b hlt heq
  exact String.lt_irrefl a (heq ▸ hlt)

/-- Members that ascend are put together again from any order. -/
theorem ofList_of_perm (h : Ascending ms) (hks : ks.Perm ms) : ofList ks = ms := by
  have hnodup : (ks.map (·.1)).Nodup := (hks.map (·.1)).nodup_iff.mpr h.nodup
  have hperm : (ofList ks).Perm ms := by
    have hfold := @foldl_perm [] ks
    rw [List.append_nil] at hfold
    exact (hfold hnodup).trans hks
  have hunique : ∀ a b : String × Json, a ∈ ofList ks → b ∈ ms → a.1 < b.1 → b.1 < a.1 → a = b :=
    fun a b _ _ hab hba => absurd hba (String.lt_asymm hab)
  exact hperm.eq_of_pairwise hunique (List.pairwise_map.mp (ascending_ofList ks))
    (List.pairwise_map.mp h)

end Members

/-! ## Numbers -/

theorem Numeral.absorb_lt {n : Nat} (h : n < wordLimit) (ds : List Nat) :
    (absorb n ds).1 < wordLimit := by
  induction ds generalizing n with
  | nil => exact h
  | cons d ds ih =>
    unfold absorb
    split
    next hd => exact ih hd
    next => exact h

/-- A double is read as one. -/
theorem Numeral.held_real? {negative : Bool} {n levels : Nat} {e : Int} {x : Number}
    (h : real? negative n e = some x) : Held levels (.number x) := by
  obtain ⟨_, _, h⟩ := Option.bind_eq_some_iff.mp h
  obtain ⟨y, _, ⟨⟩⟩ := Option.bind_eq_some_iff.mp h
  exact .real _

theorem Numeral.held_whole? {negative : Bool} {n levels : Nat} {x : Number} (hn : n < wordLimit)
    (h : whole? negative n = some x) : Held levels (.number x) := by
  have hlimit : wordLimit = 2 ^ 64 := rfl
  have hhalf : Nat.pow 2 63 = 2 ^ 63 := rfl
  unfold whole? at h
  split at h
  next =>
    cases h
    exact .whole (by omega) (by omega)
  next =>
    split at h
    next hrange =>
      cases h
      exact .whole (by omega) (by omega)
    next => exact held_real? h

theorem Numeral.held_value? {a : Numeral} {levels : Nat} {x : Number} (h : a.value? = some x) :
    Held levels (.number x) := by
  have hwhole : (absorb 0 a.whole).1 < wordLimit := absorb_lt (by decide) a.whole
  unfold value? at h
  dsimp only at h
  split at h
  next => exact held_whole? hwhole h
  next =>
    split at h
    next => exact held_real? h
    next =>
      split at h
      next => exact held_real? h
      next =>
        split at h
        next => cases h
        next => exact held_real? h

/-! ## Values -/

variable {levels : Nat} {j : Json} {s : Syntax}

/-- Induction over the parts of a tree. -/
@[elab_as_elim]
theorem Syntax.induction {motive : Syntax → Prop} (null : motive .null)
    (bool : ∀ b, motive (.bool b)) (number : ∀ n, motive (.number n))
    (text : ∀ t, motive (.text t)) (list : ∀ items, (∀ s ∈ items, motive s) → motive (.list items))
    (object : ∀ members, (∀ m ∈ members, motive m.2) → motive (.object members)) (s : Syntax) :
    motive s :=
  @Syntax.rec motive (fun items => ∀ s ∈ items, motive s) (fun ms => ∀ m ∈ ms, motive m.2)
    (fun m => motive m.2) null bool number text list object (by simp)
    (fun _ _ hs hss => List.forall_mem_cons.mpr ⟨hs, hss⟩) (by simp)
    (fun _ _ hm hms => List.forall_mem_cons.mpr ⟨hm, hms⟩) (fun _ _ h => h) s

/-- The items of a list are read one by one. -/
theorem itemsOfSyntax?_eq_some {js : List Json} {ss : List Syntax} :
    itemsOfSyntax? levels ss = some js ↔
      List.Forall₂ (fun s j => ofSyntax? levels s = some j) ss js := by
  induction ss generalizing js with
  | nil => simp [itemsOfSyntax?, eq_comm]
  | cons s ss ih =>
    rw [itemsOfSyntax?, List.forall₂_cons_left_iff]
    simp only [Option.bind_eq_bind, Option.bind_eq_some_iff, ih]
    constructor
    · rintro ⟨j, hj, js, hjs, ⟨⟩⟩
      exact ⟨j, js, hj, hjs, rfl⟩
    · rintro ⟨j, js, hj, hjs, rfl⟩
      exact ⟨j, hj, js, hjs, rfl⟩

/-- The members of an object are read one by one. -/
theorem membersOfSyntax?_eq_some {ms : Members} {ns : List (List Piece × Syntax)} :
    membersOfSyntax? levels ns = some ms ↔
      List.Forall₂ (fun n m => Piece.text? n.1 = some m.1 ∧ ofSyntax? levels n.2 = some m.2)
        ns ms := by
  induction ns generalizing ms with
  | nil => simp [membersOfSyntax?, eq_comm]
  | cons n ns ih =>
    rw [membersOfSyntax?, List.forall₂_cons_left_iff]
    simp only [Option.bind_eq_bind, Option.bind_eq_some_iff, ih]
    constructor
    · rintro ⟨name, hname, j, hj, ms, hms, ⟨⟩⟩
      exact ⟨(name, j), ms, ⟨hname, hj⟩, hms, rfl⟩
    · rintro ⟨⟨name, j⟩, ms, ⟨hname, hj⟩, hms, rfl⟩
      exact ⟨name, hname, j, hj, ms, hms, rfl⟩

theorem held_members {ms : Members} {ns : List (List Piece × Syntax)}
    (h : membersOfSyntax? levels ns = some ms)
    (held : ∀ n ∈ ns, ∀ j, ofSyntax? levels n.2 = some j → Held levels j) :
    Held (levels + 1) (.object (Members.ofList ms)) := by
  refine .object (Members.ascending_ofList ms) fun m hm => ?_
  obtain ⟨n, hn, _, hvalue⟩ :=
    exists_of_mem_right (membersOfSyntax?_eq_some.mp h) (Members.mem_of_mem_ofList hm)
  exact held n hn _ hvalue

/-- What is read is held, and nested to the levels that were left. -/
theorem held_of_ofSyntax? (h : ofSyntax? levels s = some j) : Held levels j := by
  induction s using Syntax.induction generalizing levels j with
  | null =>
    cases h
    exact .null
  | bool b =>
    cases h
    exact .bool b
  | number x =>
    obtain ⟨n, hn, rfl⟩ := Option.map_eq_some_iff.mp h
    exact Numeral.held_value? hn
  | text ps =>
    obtain ⟨t, _, rfl⟩ := Option.map_eq_some_iff.mp h
    exact .text t
  | list ss ih =>
    cases levels with
    | zero => cases h
    | succ levels =>
      obtain ⟨js, hjs, rfl⟩ := Option.map_eq_some_iff.mp h
      refine .list fun j hj => ?_
      obtain ⟨s, hs, hread⟩ := exists_of_mem_right (itemsOfSyntax?_eq_some.mp hjs) hj
      exact ih s hs hread
  | object ns ih =>
    cases levels with
    | zero => cases h
    | succ levels =>
      obtain ⟨ms, hms, rfl⟩ := Option.map_eq_some_iff.mp h
      exact held_members hms fun n hn j hj => ih n hn hj

/-- Members are read back, in whatever order they are written. -/
theorem ofList_membersOfSyntax? {ms ks : Members} {ns : List (List Piece × Syntax)}
    (order : ks.Perm ms) (members : List.Forall₂ WrittenMember ks ns) (ascending : ms.Ascending)
    (read : ∀ m ∈ ms, ∀ s, Written m.2 s → ofSyntax? levels s = some m.2) :
    (membersOfSyntax? levels ns).map Members.ofList = some ms := by
  have hread : membersOfSyntax? levels ns = some ks := by
    refine membersOfSyntax?_eq_some.mpr (forall₂_imp_of_mem members ?_).flip
    rintro m hm _ ⟨hname, hvalue⟩
    exact ⟨hname, read _ (order.subset hm) _ hvalue⟩
  rw [hread, Option.map_some, Members.ofList_of_perm ascending order]

/-- A value that is held is read back from every tree that writes it. -/
theorem ofSyntax?_of_written (held : Held levels j) (h : Written j s) :
    ofSyntax? levels s = some j := by
  induction held generalizing s with
  | null | bool =>
    cases h
    rfl
  | whole | real =>
    cases h with
    | number value => exact Option.map_eq_some_iff.mpr ⟨_, value, rfl⟩
  | text =>
    cases h with
    | text spelled => exact Option.map_eq_some_iff.mpr ⟨_, spelled, rfl⟩
  | list _ ih =>
    cases h with
    | list written =>
      have hread := forall₂_imp_of_mem written fun j hj _ hw => ih j hj hw
      exact Option.map_eq_some_iff.mpr ⟨_, itemsOfSyntax?_eq_some.mpr hread.flip, rfl⟩
  | object ascending _ ih =>
    cases h with
    | object order written =>
      have hmembers := ofList_membersOfSyntax? order written ascending fun m hm _ => ih m hm
      obtain ⟨ks, hks, hms⟩ := Option.map_eq_some_iff.mp hmembers
      exact Option.map_eq_some_iff.mpr ⟨ks, hks, congrArg Json.object hms⟩

end ClusterControl.Json
