import ClusterControl.Json.Decode
import ClusterControl.Json.Writer
import Mathlib.Data.List.Perm.Basic

/-!
# Ways to write a value

A tree writes a value when it has the shape of the value, each text in it spells the text and each
number comes to the number. The members of an object may stand in any order. A text writes a value
when its tree does, whatever blanks and escapes it has.
-/

namespace ClusterControl.Json

/-- Induction over the parts of a value. -/
@[elab_as_elim]
theorem induction {motive : Json → Prop} (null : motive .null) (bool : ∀ b, motive (.bool b))
    (number : ∀ n, motive (.number n)) (text : ∀ t, motive (.text t))
    (list : ∀ items, (∀ j ∈ items, motive j) → motive (.list items))
    (object : ∀ members, (∀ m ∈ members, motive m.2) → motive (.object members)) (j : Json) :
    motive j :=
  @Json.rec motive (fun items => ∀ j ∈ items, motive j) (fun ms => ∀ m ∈ ms, motive m.2)
    (fun m => motive m.2) null bool number text list object (by simp)
    (fun _ _ hj hjs => List.forall_mem_cons.mpr ⟨hj, hjs⟩) (by simp)
    (fun _ _ hm hms => List.forall_mem_cons.mpr ⟨hm, hms⟩) (fun _ _ h => h) j

mutual

/-- A tree writes a value, the members of objects in any order. -/
inductive Written : Json → Syntax → Prop
  | null : Written .null .null
  | bool (b : Bool) : Written (.bool b) (.bool b)
  | number {n : Number} {x : Numeral} (value : x.value? = some n) : Written (.number n) (.number x)
  | text {t : String} {ps : List Piece} (spelled : Piece.text? ps = some t) :
      Written (.text t) (.text ps)
  | list {js : List Json} {ss : List Syntax} (items : List.Forall₂ Written js ss) :
      Written (.list js) (.list ss)
  | object {ms ks : Members} {ns : List (List Piece × Syntax)} (order : ks.Perm ms)
      (members : List.Forall₂ WrittenMember ks ns) : Written (.object ms) (.object ns)

inductive WrittenMember : String × Json → List Piece × Syntax → Prop
  | mk {n : String} {j : Json} {ps : List Piece} {s : Syntax} (name : Piece.text? ps = some n)
      (value : Written j s) : WrittenMember (n, j) (ps, s)

end

mutual

inductive Reordered : Json → Json → Prop
  | same (j : Json) : Reordered j j
  | list {js ks : List Json} (items : List.Forall₂ Reordered js ks) :
      Reordered (.list js) (.list ks)
  | object {ms ls ks : Members} (order : ls.Perm ms)
      (members : List.Forall₂ ReorderedMember ls ks) : Reordered (.object ms) (.object ks)

inductive ReorderedMember : String × Json → String × Json → Prop
  | mk {n : String} {j k : Json} (value : Reordered j k) : ReorderedMember (n, j) (n, k)

end

inductive Whole : Json → Prop
  | null : Whole .null
  | bool (b : Bool) : Whole (.bool b)
  | number (i : Int) : Whole (.number (.whole i))
  | text (t : String) : Whole (.text t)
  | list {js : List Json} (items : ∀ j ∈ js, Whole j) : Whole (.list js)
  | object {ms : Members} (members : ∀ m ∈ ms, Whole m.2) : Whole (.object ms)

def Members.Ascending (ms : Members) : Prop := (ms.map (·.1)).Pairwise (· < ·)

instance (ms : Members) : Decidable ms.Ascending := inferInstanceAs (Decidable (List.Pairwise ..))

/-- A value as it is held: whole numbers have 64 bits, the members of an object stand in ascending
order, and it is nested to some number of levels at most. -/
inductive Held : Nat → Json → Prop
  | null {levels : Nat} : Held levels .null
  | bool {levels : Nat} (b : Bool) : Held levels (.bool b)
  | whole {levels : Nat} {i : Int} (lower : -(Nat.pow 2 63 : Nat) ≤ i) (upper : i < wordLimit) :
      Held levels (.number (.whole i))
  | real {levels : Nat} (x : Binary64) : Held levels (.number (.real x))
  | text {levels : Nat} (t : String) : Held levels (.text t)
  | list {levels : Nat} {js : List Json} (items : ∀ j ∈ js, Held levels j) :
      Held (levels + 1) (.list js)
  | object {levels : Nat} {ms : Members} (ascending : ms.Ascending)
      (members : ∀ m ∈ ms, Held levels m.2) : Held (levels + 1) (.object ms)

inductive Plain : Json → Prop
  | null : Plain .null
  | bool (b : Bool) : Plain (.bool b)
  | number {i : Int} (lower : -(Nat.pow 2 63 : Nat) ≤ i) (upper : i < wordLimit) :
      Plain (.number (.whole i))
  | text (t : String) : Plain (.text t)
  | list {js : List Json} (items : ∀ j ∈ js, Plain j) : Plain (.list js)
  | object {ms : Members} (members : ∀ m ∈ ms, Plain m.2) : Plain (.object ms)

/-- A text writes a value. -/
def Writes (text : String) (j : Json) : Prop :=
  ∃ s, Syntax.read? text.toList = some s ∧ Written j s

variable {j k : Json} {s : Syntax}

theorem forall₂_trans {α β γ : Type} {P : α → β → Prop} {Q : β → γ → Prop} {R : α → γ → Prop}
    {as : List α} {bs : List β} {cs : List γ} (hp : List.Forall₂ P as bs)
    (hq : List.Forall₂ Q bs cs) (h : ∀ a ∈ as, ∀ b c, P a b → Q b c → R a c) :
    List.Forall₂ R as cs := by
  induction hp generalizing cs with
  | nil =>
    cases hq
    exact .nil
  | cons hab _ ih =>
    cases hq with
    | cons hbc hbcs =>
      rw [List.forall_mem_cons] at h
      exact .cons (h.1 _ _ hab hbc) (ih hbcs h.2)

theorem forall₂_imp_of_mem {α β : Type} {P Q : α → β → Prop} {as : List α} {bs : List β}
    (h : List.Forall₂ P as bs) (himp : ∀ a ∈ as, ∀ b, P a b → Q a b) : List.Forall₂ Q as bs := by
  induction h with
  | nil => exact .nil
  | cons hab _ ih =>
    rw [List.forall_mem_cons] at himp
    exact .cons (himp.1 _ hab) (ih himp.2)

theorem exists_of_mem_right {α β : Type} {P : α → β → Prop} {as : List α} {bs : List β} {b : β}
    (h : List.Forall₂ P as bs) (hb : b ∈ bs) : ∃ a ∈ as, P a b := by
  induction h with
  | nil => cases hb
  | cons hab _ ih =>
    rcases List.mem_cons.mp hb with rfl | hb
    · exact ⟨_, List.mem_cons_self, hab⟩
    · obtain ⟨a, ha, h⟩ := ih hb
      exact ⟨a, List.mem_cons_of_mem _ ha, h⟩

/-- Whatever writes a value writes the value in any other order. -/
theorem Written.reordered (h : Written k s) (hjk : Reordered j k) : Written j s := by
  induction j using Json.induction generalizing k s with
  | null | bool | number | text =>
    cases hjk
    exact h
  | list js ih =>
    cases hjk with
    | same => exact h
    | list items =>
      cases h with
      | list written => exact .list (forall₂_trans items written fun j hj _ _ hr hw => ih j hj hw hr)
  | object ms ih =>
    cases hjk with
    | same => exact h
    | object order members =>
      cases h with
      | object horder written =>
        obtain ⟨ls, hmembers, hls⟩ := List.perm_comp_forall₂ horder members.flip
        have hms := hls.trans order
        refine .object hms (forall₂_trans hmembers.flip written ?_)
        rintro _ hl _ _ ⟨hr⟩ ⟨hname, hw⟩
        exact .mk hname (ih _ (hms.subset hl) hw hr)

theorem Reordered.plain (h : Reordered j k) (hj : j.Plain) : k.Plain := by
  induction j using Json.induction generalizing k with
  | null | bool | number | text =>
    cases h
    exact hj
  | list js ih =>
    cases h with
    | same => exact hj
    | list items =>
      cases hj with
      | list hjs =>
        refine .list fun k hk => ?_
        obtain ⟨j, hj, hjk⟩ := exists_of_mem_right items hk
        exact ih j hj hjk (hjs j hj)
  | object ms ih =>
    cases h with
    | same => exact hj
    | object order members =>
      cases hj with
      | object hms =>
        refine .object fun m hm => ?_
        obtain ⟨_, hl, ⟨hr⟩⟩ := exists_of_mem_right members hm
        exact ih _ (order.subset hl) hr (hms _ (order.subset hl))

/-- A value that is held without doubles has nothing but whole numbers of 64 bits. -/
theorem Held.plain {levels : Nat} (h : Held levels j) (hj : j.Whole) : j.Plain := by
  induction h with
  | null => exact .null
  | bool b => exact .bool b
  | whole lower upper => exact .number lower upper
  | real x => cases hj
  | text t => exact .text t
  | list _ ih =>
    cases hj with
    | list items => exact .list fun j hj => ih j hj (items j hj)
  | object _ _ ih =>
    cases hj with
    | object members => exact .object fun m hm => ih m hm (members m hm)

end ClusterControl.Json
