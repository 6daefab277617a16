import ClusterControl.Json.Decode
import Mathlib.Data.List.Forall2

/-!
# Records written in two ways

Two texts of a record have the same members, or the same number of items, and a relation holds
between the values that stand in the same place. Then the slots of the two records are filled in the
same places, with related values.
-/

namespace ClusterControl.Json

variable {R : Syntax → Syntax → Prop} {strict : Bool} {names : List String} {name : String}
  {levels : Nat} {s t : Syntax}

theorem rel_map {α β : Type} {P : α → α → Prop} {Q : β → β → Prop} {f g : α → β} {a b : Option α}
    (h : Option.Rel P a b) (hfg : ∀ x y, P x y → Q (f x) (g y)) :
    Option.Rel Q (a.map f) (b.map g) := by
  cases h with
  | none => exact .none
  | some hxy => exact .some (hfg _ _ hxy)

theorem rel_bind {α β : Type} {P : α → α → Prop} {Q : β → β → Prop} {f g : α → Option β}
    {a b : Option α} (h : Option.Rel P a b) (hfg : ∀ x y, P x y → Option.Rel Q (f x) (g y)) :
    Option.Rel Q (a.bind f) (b.bind g) := by
  cases h with
  | none => exact .none
  | some hxy => exact hfg _ _ hxy

theorem bind_eq_bind {α β : Type} {P : α → α → Prop} {f g : α → Option β} {a b : Option α}
    (h : Option.Rel P a b) (hfg : ∀ x y, P x y → f x = g y) : a.bind f = b.bind g := by
  cases h with
  | none => rfl
  | some hxy => exact hfg _ _ hxy

/-- Two texts of one record, in object or in list form, with related values. -/
inductive Rewritten (R : Syntax → Syntax → Prop) : Syntax → Syntax → Prop
  | object {ms ns : List (List Piece × Syntax)}
      (members : List.Forall₂ (fun m n => m.1 = n.1 ∧ R m.2 n.2) ms ns) :
      Rewritten R (.object ms) (.object ns)
  | list {xs ys : List Syntax} (items : List.Forall₂ R xs ys) :
      Rewritten R (.list xs) (.list ys)

namespace Slots

/-- Slots of the same names, filled in the same places with related values. -/
abbrev Filled (R : Syntax → Syntax → Prop) (v w : List (String × Option Syntax)) : Prop :=
  List.Forall₂ (fun v w => v.1 = w.1 ∧ Option.Rel R v.2 w.2) v w

theorem filled_empty : Filled R (names.map (·, none)) (names.map (·, none)) := by
  induction names with
  | nil => exact .nil
  | cons n names ih => exact .cons ⟨rfl, .none⟩ ih

theorem Filled.any_eq {v w : List (String × Option Syntax)} (h : Filled R v w) :
    v.any (·.1 == name) = w.any (·.1 == name) := by
  induction h with
  | nil => rfl
  | cons hvw _ ih => simp only [List.any_cons, hvw.1, ih]

theorem Filled.fill? {v w : List (String × Option Syntax)} (h : Filled R v w) (hst : R s t) :
    Option.Rel (Filled R) (fill? name s v) (fill? name t w) := by
  induction h with
  | nil => exact .some .nil
  | @cons x y v w hxy hvw ih =>
    obtain ⟨n, a⟩ := x
    obtain ⟨m, b⟩ := y
    obtain ⟨rfl, hab⟩ := hxy
    simp only [Slots.fill?]
    split
    · cases hab with
      | none => exact .some (.cons ⟨rfl, .some hst⟩ hvw)
      | some => exact .none
    · exact rel_map ih fun _ _ hrest => .cons ⟨rfl, hab⟩ hrest

theorem Filled.fillAll? {ms ns : List (List Piece × Syntax)}
    (hmn : List.Forall₂ (fun m n => m.1 = n.1 ∧ R m.2 n.2) ms ns)
    {v w : List (String × Option Syntax)} (h : Filled R v w) :
    Option.Rel (Filled R) (fillAll? strict v ms) (fillAll? strict w ns) := by
  induction hmn generalizing v w with
  | nil => exact .some h
  | @cons m n ms ns hmn _ ih =>
    obtain ⟨ps, s⟩ := m
    obtain ⟨qs, t⟩ := n
    obtain ⟨rfl, hst⟩ := hmn
    simp only [Slots.fillAll?]
    cases Piece.text? ps with
    | none => exact .none
    | some name =>
      simp only [Option.bind_eq_bind, Option.bind_some, h.any_eq]
      split
      · exact .none
      · exact rel_bind (h.fill? hst) fun _ _ hrest => ih hrest

theorem filled_place? {xs ys : List Syntax} (h : List.Forall₂ R xs ys) :
    Option.Rel (Filled R) (place? names xs) (place? names ys) := by
  induction h generalizing names with
  | nil =>
    unfold place?
    exact .some filled_empty
  | cons hxy _ ih =>
    cases names with
    | nil => exact .none
    | cons n names =>
      exact rel_map ih fun _ _ hrest => .cons ⟨rfl, .some hxy⟩ hrest

structure Alike (R : Syntax → Syntax → Prop) (levels : Nat) (a b : Slots) : Prop where
  left : a.levels = levels
  right : b.levels = levels
  values : Filled R a.values b.values

theorem open?_rewritten (levels : Nat) (h : Rewritten R s t) :
    Option.Rel (Alike R levels) (open? strict names (levels + 1) s)
      (open? strict names (levels + 1) t) := by
  cases h with
  | object members =>
    exact rel_bind (Filled.fillAll? members filled_empty) fun _ _ hvalues =>
      .some ⟨rfl, rfl, hvalues⟩
  | list items =>
    exact rel_bind (filled_place? items) fun _ _ hvalues => .some ⟨rfl, rfl, hvalues⟩

theorem Filled.find? {v w : List (String × Option Syntax)} (h : Filled R v w) (name : String) :
    Option.Rel (fun v w => v.1 = w.1 ∧ Option.Rel R v.2 w.2)
      (v.find? (·.1 == name)) (w.find? (·.1 == name)) := by
  induction h with
  | nil => exact .none
  | cons hvw _ ih =>
    simp only [List.find?_cons, hvw.1]
    split
    · exact .some hvw
    · exact ih

namespace Alike

variable {a b : Slots}

theorem get? (h : Alike R levels a b) (name : String) :
    Option.Rel R (a.get? name) (b.get? name) := by
  have hfind := h.values.find? name
  unfold Slots.get?
  generalize a.values.find? (·.1 == name) = x, b.values.find? (·.1 == name) = y at hfind
  cases hfind with
  | none => exact .none
  | some hvw => exact hvw.2

variable {α : Type} {decode : Decoder α}

/-- A field that reads alike in both texts is the same in both. -/
theorem required_eq (h : Alike R levels a b)
    (reads : ∀ s t, R s t → decode levels s = decode levels t) :
    a.required name decode = b.required name decode := by
  unfold Slots.required
  rw [h.left, h.right]
  exact bind_eq_bind (h.get? name) reads

theorem withDefault_eq (h : Alike R levels a b) (name : String) {default : α}
    (reads : ∀ s t, R s t → decode levels s = decode levels t) :
    a.withDefault name default decode = b.withDefault name default decode := by
  have hget := h.get? name
  unfold Slots.withDefault
  rw [h.left, h.right]
  generalize a.get? name = x, b.get? name = y at hget
  cases hget with
  | none => rfl
  | some hst => exact reads _ _ hst

end Alike

end Slots

end ClusterControl.Json
