import ClusterControl.Proofs.Json.Fields
import ClusterControl.Proofs.Json.Text
import ClusterControl.Proofs.Json.Values

/-!
# Decoders that invert an encoding

A decoder inverts an encoding when it reads the value from every tree that writes its encoding. A
record is read field by field: its members fill their slots, whatever their order, and each field is
read by a decoder that inverts the encoding of that field.
-/

namespace ClusterControl

/-- A duration has no whole seconds left to carry. -/
theorem Duration.normalize?_self (d : Duration) : normalize? d.secs d.nanos = some d := by
  have hrest : d.nanos / 1000000000 = 0 := Nat.div_eq_of_lt d.nanos_lt
  have hnanos : d.nanos % 1000000000 = d.nanos := Nat.mod_eq_of_lt d.nanos_lt
  simp only [normalize?, hrest, hnanos, Nat.add_zero, d.secs_lt, dite_true]

namespace Json

variable {levels : Nat} {s : Syntax} {ms ks : Members} {ns : List (List Piece × Syntax)}
  {names : List String} {name : String} {j : Json}

namespace Decoder

variable {α : Type} {decode : Decoder α} {a : α}

/-- The decoder reads the value from every tree that writes its encoding. -/
def Inverts (decode : Decoder α) (levels : Nat) (j : Json) (a : α) : Prop :=
  ∀ s, Written j s → decode levels s = some a

theorem Inverts.read? (h : decode.Inverts maxLevels j a) {text : String} (writes : Writes text j) :
    decode.read? text = some a := by
  obtain ⟨s, hs, hwritten⟩ := writes
  exact Option.bind_eq_some_iff.mpr ⟨s, hs, h s hwritten⟩

theorem inverts_text (t : String) : text.Inverts levels (.text t) t := by
  intro s h
  cases h with
  | text spelled => exact spelled

theorem inverts_bool (b : Bool) : bool.Inverts levels (.bool b) b := by
  intro s h
  cases h
  rfl

theorem inverts_natBelow {limit n : Nat} (h : n < limit) :
    (natBelow limit).Inverts levels (.nat n) n := by
  intro s hs
  cases hs with
  | number value =>
    simp only [natBelow, value]
    exact if_pos h

theorem inverts_oneOf {ofName? : String → Option α} (h : ofName? name = some a) :
    (oneOf ofName?).Inverts levels (.text name) a := by
  intro s hs
  cases hs with
  | text spelled => exact Option.bind_eq_some_iff.mpr ⟨name, spelled, h⟩

theorem inverts_ofOption (o : Option String) : (nullable text).Inverts levels (ofOption o) o := by
  intro s h
  cases o with
  | none =>
    cases h
    rfl
  | some t =>
    cases h with
    | text spelled => exact Option.map_eq_some_iff.mpr ⟨t, spelled, rfl⟩

theorem inverts_texts (ts : List String) : (listOf text).Inverts (levels + 1) (.texts ts) ts := by
  intro s h
  cases h with
  | list items =>
    refine mapM_eq_some.mpr (List.Forall₂.flip ?_)
    exact (List.forall₂_map_left_iff.mp items).imp fun t s h => inverts_text t s h

/-- Settings that were read are held, and nested to the levels that were left. -/
theorem held_of_members (h : members levels s = some ms) : Held levels (.object ms) := by
  unfold members at h
  split at h
  next _ ns =>
    obtain ⟨ks, hks, rfl⟩ := Option.map_eq_some_iff.mp h
    exact held_members hks fun n _ j => held_of_ofSyntax?
  next => cases h

theorem inverts_members (held : Held levels (.object ms)) :
    members.Inverts levels (.object ms) ms := by
  intro s h
  cases h with
  | object order written =>
    cases held with
    | object ascending held =>
      exact ofList_membersOfSyntax? order written ascending fun m hm _ =>
        ofSyntax?_of_written (held m hm)

end Decoder

/-! ## Records -/

namespace Syntax

/-- A member is found by its name. -/
theorem member?_of_written (h : List.Forall₂ WrittenMember ks ns) (distinct : (ks.map (·.1)).Nodup)
    (hj : (name, j) ∈ ks) : ∃ s, member? name ns = some s ∧ Written j s := by
  induction h with
  | nil => cases hj
  | @cons k n ks ns hkn _ ih =>
    obtain ⟨hfirst, hrest⟩ := List.nodup_cons.mp distinct
    cases hkn with
    | @mk first _ _ _ spelled value =>
      rw [member?_cons, spelled]
      rcases List.mem_cons.mp hj with heq | hj
      · cases heq
        exact ⟨_, if_pos rfl, value⟩
      · have hother : some first ≠ some name := fun heq =>
          hfirst (List.mem_map.mpr ⟨_, hj, (Option.some.inj heq).symm⟩)
        rw [if_neg hother]
        exact ih hrest hj

theorem member?_eq_none (h : List.Forall₂ WrittenMember ks ns) (hname : name ∉ ks.map (·.1)) :
    member? name ns = none := by
  induction h with
  | nil => rfl
  | @cons k n ks ns hkn _ ih =>
    rw [List.map_cons, List.mem_cons, not_or] at hname
    cases hkn with
    | mk spelled value =>
      rw [member?_cons, spelled, if_neg (by simpa using Ne.symm hname.1)]
      exact ih hname.2

end Syntax

namespace Slots

variable {v : List (String × Option Syntax)} {strict : Bool}

theorem exists_fill? (s : Syntax) (h : valueOf v name = none) : ∃ w, fill? name s v = some w := by
  induction v with
  | nil => exact ⟨[], rfl⟩
  | cons entry v ih =>
    obtain ⟨n, x⟩ := entry
    rw [valueOf_cons] at h
    unfold fill?
    split at h
    next hn =>
      cases h
      exact ⟨_, if_pos hn⟩
    next hn =>
      obtain ⟨w, hw⟩ := ih h
      exact ⟨(n, x) :: w, by rw [if_neg hn, hw, Option.map_some]⟩

/-- Members of different names all find their slots empty. -/
theorem exists_fillAll? (h : List.Forall₂ WrittenMember ks ns) (distinct : (ks.map (·.1)).Nodup)
    (known : ∀ k ∈ ks, k.1 ∈ v.map (·.1)) (empty : ∀ k ∈ ks, valueOf v k.1 = none) :
    ∃ w, fillAll? strict v ns = some w := by
  induction h generalizing v with
  | nil => exact ⟨v, rfl⟩
  | @cons k n ks ns hkn _ ih =>
    obtain ⟨ps, s⟩ := n
    obtain ⟨hfirst, hrest⟩ := List.nodup_cons.mp distinct
    rw [List.forall_mem_cons] at known empty
    obtain ⟨next, hnext⟩ := exists_fill? s empty.1
    have hknown : ∀ k ∈ ks, k.1 ∈ next.map (·.1) := names_fill? hnext ▸ known.2
    have hempty : ∀ m ∈ ks, valueOf next m.1 = none := fun m hm => by
      have hother : k.1 ≠ m.1 := fun heq => hfirst (List.mem_map.mpr ⟨m, hm, heq.symm⟩)
      rw [valueOf_fill? hnext (known.2 m hm), empty.2 m hm, if_neg hother]
      rfl
    obtain ⟨w, hw⟩ := ih hrest hknown hempty
    have hslot : v.any (·.1 == k.1) = true := by simpa using known.1
    cases hkn with
    | mk spelled value =>
      refine ⟨w, ?_⟩
      simp only [fillAll?, spelled, Option.bind_eq_bind, Option.bind_some, hslot, Bool.not_true,
        Bool.and_false, Bool.false_eq_true, if_false, hnext, hw]

/-- The slots of a record that is written as an object with these members. -/
structure Holds (slots : Slots) (names : List String) (levels : Nat) (ms : Members) : Prop where
  levels : slots.levels = levels
  present {name : String} {j : Json} : (name, j) ∈ ms →
    ∃ s, slots.get? name = some s ∧ Written j s
  absent {name : String} : name ∈ names → name ∉ ms.map (·.1) → slots.get? name = none

/-- A record is read when its members have different names, all of them known, and its fields are
read from slots that hold the members. -/
theorem bind_open?_of_written {α : Type} {f : Slots → Option α} {a : α}
    (h : Written (.object ms) s) (distinct : (ms.map (·.1)).Nodup) (known : ∀ m ∈ ms, m.1 ∈ names)
    (fields : ∀ slots : Slots, slots.Holds names levels ms → f slots = some a) :
    (open? strict names (levels + 1) s).bind f = some a := by
  cases h with
  | @object _ ks ns order members =>
    have hdistinct : (ks.map (·.1)).Nodup := (order.map (·.1)).nodup_iff.mpr distinct
    have hknown : ∀ k ∈ ks, k.1 ∈ (names.map (·, (none : Option Syntax))).map (·.1) :=
      fun k hk => by simpa using known k (order.subset hk)
    have hempty : ∀ k ∈ ks, valueOf (names.map (·, none)) k.1 = none := fun _ _ => valueOf_empty
    obtain ⟨w, hw⟩ : ∃ w, fillAll? strict (names.map (·, none)) ns = some w :=
      exists_fillAll? members hdistinct hknown hempty
    have hopen : open? strict names (levels + 1) (.object ns) = some ⟨false, levels, w⟩ :=
      Option.bind_eq_some_iff.mpr ⟨w, hw, rfl⟩
    have hget : ∀ name ∈ names, get? ⟨false, levels, w⟩ name = Syntax.member? name ns :=
      fun name hname => (get?_of_open? hopen hname).1
    refine Option.bind_eq_some_iff.mpr ⟨_, hopen, fields _ ⟨rfl, fun hj => ?_, fun hname hnone => ?_⟩⟩
    · rw [hget _ (known _ hj)]
      exact Syntax.member?_of_written members hdistinct (order.symm.subset hj)
    · rw [hget _ hname]
      exact Syntax.member?_eq_none members fun hk => hnone ((order.map (·.1)).subset hk)

namespace Holds

variable {slots : Slots} {α : Type} {decode : Decoder α} {a : α}

theorem required (h : slots.Holds names levels ms) (hj : (name, j) ∈ ms)
    (inverts : decode.Inverts levels j a) : slots.required name decode = some a := by
  obtain ⟨s, hs, hwritten⟩ := h.present hj
  rw [← h.levels] at inverts
  exact Option.bind_eq_some_iff.mpr ⟨s, hs, inverts s hwritten⟩

theorem withDefault (h : slots.Holds names levels ms) {default : α} (hj : (name, j) ∈ ms)
    (inverts : decode.Inverts levels j a) : slots.withDefault name default decode = some a := by
  obtain ⟨s, hs, hwritten⟩ := h.present hj
  rw [← h.levels] at inverts
  simp only [Slots.withDefault, hs, inverts s hwritten]

theorem withDefault_absent (h : slots.Holds names levels ms) {default : α} (hname : name ∈ names)
    (hnone : name ∉ ms.map (·.1)) : slots.withDefault name default decode = some default := by
  simp only [Slots.withDefault, h.absent hname hnone]

theorem optional {o : Option α} (h : slots.Holds names levels ms) (hj : (name, j) ∈ ms)
    (inverts : (Decoder.nullable decode).Inverts levels j o) :
    slots.optional name decode = some o := by
  obtain ⟨s, hs, hwritten⟩ := h.present hj
  rw [← h.levels] at inverts
  simp only [Slots.optional, hs, inverts s hwritten]

end Holds

end Slots

theorem Decoder.inverts_duration (d : Duration) :
    duration.Inverts (levels + 1) (ofDuration d) d := by
  intro s h
  refine Slots.bind_open?_of_written h (by simp) (by simp) fun slots hslots => ?_
  have hsecs : slots.required "secs" word = some d.secs :=
    hslots.required (by simp) (inverts_natBelow d.secs_lt)
  have hnanos : slots.required "nanos" (natBelow (Nat.pow 2 32)) = some d.nanos :=
    hslots.required (by simp) (inverts_natBelow (Nat.lt_trans d.nanos_lt (by decide)))
  simp only [hsecs, hnanos, Option.bind_eq_bind, Option.bind_some, Duration.normalize?_self]

end Json

end ClusterControl
