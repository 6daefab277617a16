import Mathlib.Data.List.Forall2

/-!
# Selections

Some elements of a list are flagged. Replacing or removing an element does the same to the flagged
ones if it is one of them, and nothing to them otherwise.
-/

namespace ClusterControl

variable {α : Type}

def select : List Bool → List α → List α
  | b :: bs, a :: l => if b then a :: select bs l else select bs l
  | _, _ => []

/-- Where an element is among those whose flags are set, if it is one of them. -/
def place : List Bool → Nat → Option Nat
  | b :: _, 0 => if b then some 0 else none
  | b :: bs, i + 1 => (place bs i).map (· + b.toNat)
  | [], _ => none

variable {bs : List Bool} {l : List α} {i j : Nat} {a : α}

theorem place_eq_none : place bs i = none ↔ bs[i]? ≠ some true := by
  induction bs generalizing i with
  | nil => simp [place]
  | cons b bs ih => cases i <;> simp [place, ih]

theorem getElem?_of_place (h : place bs i = some j) : bs[i]? = some true := by
  by_contra hn
  rw [place_eq_none.mpr hn] at h
  cases h

theorem place_zero {b : Bool} : place (b :: bs) 0 = some j ↔ b = true ∧ j = 0 := by
  cases b <;> simp [place, eq_comm]

theorem select_map (p : α → Bool) (l : List α) : select (l.map p) l = l.filter p := by
  induction l with
  | nil => rfl
  | cons a l ih => simp [select, ih, List.filter_cons]

theorem select_append (h : bs.length = l.length) (b : Bool) (a : α) :
    select (bs ++ [b]) (l ++ [a]) = select bs l ++ if b then [a] else [] := by
  induction bs generalizing l with
  | nil =>
    rw [List.length_eq_zero_iff.mp h.symm]
    cases b <;> rfl
  | cons c bs ih =>
    cases l with
    | nil => cases h
    | cons d l =>
      have hrest := ih (Nat.succ.inj h)
      cases c <;> simp [select, hrest]

theorem getElem?_select (hp : place bs i = some j) (ha : l[i]? = some a) :
    (select bs l)[j]? = some a := by
  induction bs generalizing l i j with
  | nil => cases hp
  | cons b bs ih =>
    cases l with
    | nil => cases ha
    | cons c l =>
      cases i with
      | zero =>
        obtain ⟨rfl, rfl⟩ := place_zero.mp hp
        exact ha
      | succ i =>
        obtain ⟨k, hk, rfl⟩ := Option.map_eq_some_iff.mp hp
        have hrest := ih hk (by simpa using ha)
        cases b <;> simpa [select] using hrest

theorem select_set (hp : place bs i = some j) (a : α) :
    select bs (l.set i a) = (select bs l).set j a := by
  induction bs generalizing l i j with
  | nil => cases hp
  | cons b bs ih =>
    cases l with
    | nil => rfl
    | cons c l =>
      cases i with
      | zero =>
        obtain ⟨rfl, rfl⟩ := place_zero.mp hp
        rfl
      | succ i =>
        obtain ⟨k, hk, rfl⟩ := Option.map_eq_some_iff.mp hp
        cases b <;> simp [select, ih hk]

theorem select_set_none (hp : place bs i = none) (a : α) :
    select bs (l.set i a) = select bs l := by
  induction bs generalizing l i with
  | nil => rfl
  | cons b bs ih =>
    cases l with
    | nil => rfl
    | cons c l =>
      cases i with
      | zero => cases b <;> simp_all [place, select]
      | succ i => simp [select, ih (Option.map_eq_none_iff.mp hp)]

theorem select_eraseIdx (hp : place bs i = some j) :
    select (bs.eraseIdx i) (l.eraseIdx i) = (select bs l).eraseIdx j := by
  induction bs generalizing l i j with
  | nil => cases hp
  | cons b bs ih =>
    cases l with
    | nil => cases i <;> cases bs <;> rfl
    | cons c l =>
      cases i with
      | zero =>
        obtain ⟨rfl, rfl⟩ := place_zero.mp hp
        rfl
      | succ i =>
        obtain ⟨k, hk, rfl⟩ := Option.map_eq_some_iff.mp hp
        cases b <;> simp [select, ih hk]

theorem select_eraseIdx_none (hp : place bs i = none) :
    select (bs.eraseIdx i) (l.eraseIdx i) = select bs l := by
  induction bs generalizing l i with
  | nil => rfl
  | cons b bs ih =>
    cases l with
    | nil => cases i <;> cases bs <;> rfl
    | cons c l =>
      cases i with
      | zero => cases b <;> simp_all [place, select]
      | succ i => simp [select, ih (Option.map_eq_none_iff.mp hp)]

variable {R : Bool → α → Prop}

theorem forall₂_concat (h : List.Forall₂ R bs l) {b : Bool} (hb : R b a) :
    List.Forall₂ R (bs ++ [b]) (l ++ [a]) := by
  induction h with
  | nil => exact .cons hb .nil
  | cons hc _ ih => exact .cons hc ih

theorem forall₂_set (h : List.Forall₂ R bs l) (hb : ∀ b, bs[i]? = some b → R b a) :
    List.Forall₂ R bs (l.set i a) := by
  induction h generalizing i with
  | nil => exact .nil
  | cons hc hrest ih =>
    cases i with
    | zero => exact .cons (hb _ rfl) hrest
    | succ i => exact .cons hc (ih fun b h => hb b (by simpa using h))

theorem forall₂_eraseIdx (h : List.Forall₂ R bs l) (i : Nat) :
    List.Forall₂ R (bs.eraseIdx i) (l.eraseIdx i) := by
  induction h generalizing i with
  | nil => exact .nil
  | cons hc hrest ih =>
    cases i with
    | zero => exact hrest
    | succ i => exact .cons hc (ih i)

theorem forall₂_getElem? (h : List.Forall₂ R bs l) (ha : l[i]? = some a) :
    ∃ b, bs[i]? = some b ∧ R b a := by
  induction h generalizing i with
  | nil => cases ha
  | cons hc _ ih =>
    cases i with
    | zero =>
      cases ha
      exact ⟨_, rfl, hc⟩
    | succ i => exact ih ha

end ClusterControl
