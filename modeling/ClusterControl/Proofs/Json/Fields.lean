import ClusterControl.Json.Decode
import Mathlib.Data.List.Forall2

/-!
# The fields of a record

An opened record holds for each of its fields the value that the text gives: the member of that name
in an object, the item at that place in a list. What a decoder makes of the value says how the value
is written.
-/

namespace ClusterControl.Json

variable {name other : String} {names : List String} {strict : Bool} {levels : Nat} {s : Syntax}
  {v w : List (String × Option Syntax)}

namespace Syntax

def member? (name : String) (ms : List (List Piece × Syntax)) : Option Syntax :=
  (ms.find? fun m => Piece.text? m.1 == some name).map (·.2)

/-- The value that a record gives for a field, by its name or by its place. -/
def field? (names : List String) (name : String) : Syntax → Option Syntax
  | .object ms => member? name ms
  | .list items => items[names.idxOf name]?
  | _ => none

def IsText (s : Syntax) (t : String) : Prop := ∃ ps, s = .text ps ∧ Piece.text? ps = some t

/-- The value is a word: a text, or an object whose single member has that name and is `null`. -/
def IsWord (s : Syntax) (t : String) : Prop :=
  s.IsText t ∨ ∃ ps, s = .object [(ps, .null)] ∧ Piece.text? ps = some t

theorem IsText.unique {t u : String} (ht : s.IsText t) (hu : s.IsText u) : t = u := by
  obtain ⟨ps, rfl, hps⟩ := ht
  obtain ⟨_, ⟨⟩, hu⟩ := hu
  exact Option.some.inj (hps.symm.trans hu)

theorem IsWord.unique {t u : String} (ht : s.IsWord t) (hu : s.IsWord u) : t = u := by
  rcases ht with ht | ⟨ps, rfl, hps⟩
  · rcases hu with hu | ⟨_, rfl, _⟩
    · exact ht.unique hu
    · obtain ⟨_, ⟨⟩, _⟩ := ht
  · rcases hu with ⟨_, ⟨⟩, _⟩ | ⟨_, ⟨⟩, hu⟩
    exact Option.some.inj (hps.symm.trans hu)

theorem member?_cons {m : List Piece × Syntax} {ms : List (List Piece × Syntax)} :
    member? name (m :: ms) = if Piece.text? m.1 = some name then some m.2 else member? name ms := by
  by_cases h : Piece.text? m.1 = some name <;> simp [member?, h]

end Syntax

namespace Decoder

theorem text_eq_some {t : String} : text levels s = some t ↔ s.IsText t := by
  cases s <;> simp [text, Syntax.IsText]

variable {α : Type} {decode : Decoder α}

theorem mapM_eq_some {items : List Syntax} {as : List α} :
    items.mapM (decode levels) = some as ↔
      List.Forall₂ (fun x a => decode levels x = some a) items as := by
  induction items generalizing as with
  | nil => simp [eq_comm]
  | cons x items ih =>
    rw [List.mapM_cons, List.forall₂_cons_left_iff]
    simp only [Option.bind_eq_bind, Option.bind_eq_some_iff, ih]
    constructor
    · rintro ⟨a, ha, as, has, ⟨⟩⟩
      exact ⟨a, as, ha, has, rfl⟩
    · rintro ⟨a, as, ha, has, rfl⟩
      exact ⟨a, ha, as, has, rfl⟩

/-- A list of texts is read item by item. -/
theorem listOf_text_eq_some {ts : List String} (h : listOf text levels s = some ts) :
    ∃ items, s = .list items ∧ List.Forall₂ Syntax.IsText items ts := by
  unfold listOf at h
  split at h
  next n items => exact ⟨items, rfl, (mapM_eq_some.mp h).imp fun _ _ => text_eq_some.mp⟩
  next => cases h

theorem isWord_of_oneOf {ofName? : String → Option α} {a : α}
    (h : oneOf ofName? levels s = some a) : ∃ t, s.IsWord t ∧ ofName? t = some a := by
  unfold oneOf at h
  split at h
  next ps =>
    obtain ⟨t, ht, ha⟩ := Option.bind_eq_some_iff.mp h
    exact ⟨t, .inl ⟨ps, rfl, ht⟩, ha⟩
  next ps =>
    obtain ⟨t, ht, ha⟩ := Option.bind_eq_some_iff.mp h
    exact ⟨t, .inr ⟨ps, rfl, ht⟩, ha⟩
  next => cases h

end Decoder

namespace Slots

def valueOf (v : List (String × Option Syntax)) (name : String) : Option Syntax :=
  (v.find? (·.1 == name)).bind (·.2)

theorem valueOf_cons {entry : String × Option Syntax} :
    valueOf (entry :: v) name = if entry.1 = name then entry.2 else valueOf v name := by
  by_cases h : entry.1 = name <;> simp [valueOf, h]

theorem get?_eq (slots : Slots) (name : String) : slots.get? name = valueOf slots.values name := by
  unfold get? valueOf
  cases slots.values.find? (·.1 == name) <;> rfl

theorem valueOf_empty : valueOf (names.map (·, none)) name = none := by
  induction names with
  | nil => rfl
  | cons n names ih => simp [valueOf_cons, ih]

theorem names_fill? (h : fill? other s v = some w) : w.map (·.1) = v.map (·.1) := by
  induction v generalizing w with
  | nil =>
    cases h
    rfl
  | cons entry v ih =>
    obtain ⟨n, x⟩ := entry
    unfold fill? at h
    split at h
    · cases x with
      | none =>
        cases h
        rfl
      | some => cases h
    · obtain ⟨rest, hrest, rfl⟩ := Option.map_eq_some_iff.mp h
      exact congrArg (n :: ·) (ih hrest)

/-- A slot is filled once. -/
theorem valueOf_fill? (h : fill? other s v = some w) (hname : name ∈ v.map (·.1)) :
    valueOf w name = (valueOf v name).or (if other = name then some s else none) := by
  induction v generalizing w with
  | nil => cases hname
  | cons entry v ih =>
    obtain ⟨n, x⟩ := entry
    unfold fill? at h
    split at h
    next hn =>
      cases x with
      | none =>
        cases h
        subst hn
        by_cases hne : n = name <;> simp [valueOf_cons, hne]
      | some => cases h
    next hn =>
      obtain ⟨rest, hrest, rfl⟩ := Option.map_eq_some_iff.mp h
      by_cases hne : n = name
      · subst hne
        simp [valueOf_cons, Ne.symm hn]
      · rw [valueOf_cons, valueOf_cons, if_neg hne, if_neg hne]
        refine ih hrest ?_
        simpa [Ne.symm hne] using hname

/-- The slots hold the first members of their names. -/
theorem valueOf_fillAll? {ms : List (List Piece × Syntax)} (h : fillAll? strict v ms = some w)
    (hname : name ∈ v.map (·.1)) :
    valueOf w name = (valueOf v name).or (Syntax.member? name ms) := by
  induction ms generalizing v with
  | nil =>
    cases h
    exact Option.or_none.symm
  | cons m ms ih =>
    obtain ⟨ps, x⟩ := m
    unfold fillAll? at h
    obtain ⟨n, hn, h⟩ := Option.bind_eq_some_iff.mp h
    split at h
    next => cases h
    next =>
      obtain ⟨next, hnext, hrest⟩ := Option.bind_eq_some_iff.mp h
      rw [ih hrest (names_fill? hnext ▸ hname), valueOf_fill? hnext hname, Option.or_assoc,
        Syntax.member?_cons, hn]
      congr 1
      by_cases hne : n = name <;> simp [hne]

/-- The slots hold the items at their places. -/
theorem valueOf_place? {items : List Syntax} (h : place? names items = some v)
    (hname : name ∈ names) : valueOf v name = items[names.idxOf name]? := by
  induction names generalizing items v with
  | nil => cases hname
  | cons n names ih =>
    cases items with
    | nil =>
      cases h
      exact valueOf_empty
    | cons x items =>
      obtain ⟨rest, hrest, rfl⟩ := Option.map_eq_some_iff.mp h
      rw [valueOf_cons]
      by_cases hne : n = name
      · simp [hne]
      · rw [if_neg hne, ih hrest (by simpa [Ne.symm hne] using hname), List.idxOf_cons_ne _ hne]
        rfl

/-- An opened record holds what the text gives for a field. -/
theorem get?_of_open? {slots : Slots} (h : open? strict names levels s = some slots)
    (hname : name ∈ names) :
    slots.get? name = s.field? names name ∧ levels = slots.levels + 1 := by
  unfold open? at h
  split at h
  next n ms =>
    obtain ⟨values, hvalues, hslots⟩ := Option.bind_eq_some_iff.mp h
    cases hslots
    rw [get?_eq, valueOf_fillAll? hvalues (by simpa using hname), valueOf_empty, Option.none_or]
    exact ⟨rfl, rfl⟩
  next n items =>
    obtain ⟨values, hvalues, hslots⟩ := Option.bind_eq_some_iff.mp h
    cases hslots
    rw [get?_eq, valueOf_place? hvalues hname]
    exact ⟨rfl, rfl⟩
  next => cases h

end Slots

end ClusterControl.Json
