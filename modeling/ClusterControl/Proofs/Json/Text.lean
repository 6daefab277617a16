import ClusterControl.Proofs.Json.Writing
import Mathlib.Tactic.IntervalCases

/-!
# The text of a value

The text that the writer makes of a value is read as a tree that writes the value. The text of a
number ends where a comma or a closing bracket follows, and every escape gives back its character.
The search for the end of the text takes two steps per character at most.
-/

namespace ClusterControl.Json

/-! ## Numbers -/

namespace Numeral

def decimals (n : Nat) : List Nat :=
  if n < 10 then [n] else decimals (n / 10) ++ [n % 10]

theorem decimals_lt {n d : Nat} (h : d ∈ decimals n) : d < 10 := by
  induction n using decimals.induct with
  | case1 n hn =>
    rw [decimals, if_pos hn] at h
    rw [List.mem_singleton.mp h]
    exact hn
  | case2 n hn ih =>
    rw [decimals, if_neg hn] at h
    rcases List.mem_append.mp h with h | h
    · exact ih h
    · rw [List.mem_singleton.mp h]
      exact Nat.mod_lt _ (by decide)

theorem toDigits_eq (n : Nat) : Nat.toDigits 10 n = (decimals n).map Nat.digitChar := by
  induction n using decimals.induct with
  | case1 n hn => rw [decimals, if_pos hn, Nat.toDigits_of_lt_base hn]; rfl
  | case2 n hn ih =>
    rw [decimals, if_neg hn, Nat.toDigits_of_base_le (by decide) (Nat.not_lt.mp hn), ih,
      List.map_append]
    rfl

/-- A number with more than one digit does not start with a zero. -/
theorem decimals_of_le {n : Nat} (h : 10 ≤ n) :
    ∃ d e ds, decimals n = (d + 1) :: e :: ds := by
  induction n using decimals.induct with
  | case1 n hn => omega
  | case2 n hn ih =>
    rw [decimals, if_neg hn]
    by_cases hsmall : n / 10 < 10
    · rw [decimals, if_pos hsmall]
      exact ⟨n / 10 - 1, n % 10, [], by simp; omega⟩
    · obtain ⟨d, e, ds, hds⟩ := ih (Nat.not_lt.mp hsmall)
      exact ⟨d, e, ds ++ [n % 10], by rw [hds]; rfl⟩

theorem absorb_append {n k : Nat} {xs ys : List Nat} (h : absorb n xs = (k, [])) :
    absorb n (xs ++ ys) = absorb k ys := by
  induction xs generalizing n with
  | nil =>
    cases h
    rfl
  | cons d xs ih =>
    unfold absorb at h
    split at h
    next hd =>
      rw [List.cons_append, absorb, if_pos hd]
      exact ih h
    next => cases h

/-- A number of 64 bits is taken up with all its digits. -/
theorem absorb_decimals {n : Nat} (h : n < wordLimit) : absorb 0 (decimals n) = (n, []) := by
  induction n using decimals.induct with
  | case1 n hn =>
    rw [decimals, if_pos hn]
    simp [absorb, h]
  | case2 n hn ih =>
    have hsum : n / 10 * 10 + n % 10 = n := Nat.div_add_mod' n 10
    rw [decimals, if_neg hn, absorb_append (ih (by omega))]
    simp [absorb, hsum, h]

def ofInt (i : Int) : Numeral := ⟨i < 0, decimals i.natAbs, none, none⟩

theorem value?_ofInt {i : Int} (lower : -(Nat.pow 2 63 : Nat) ≤ i) (upper : i < wordLimit) :
    (ofInt i).value? = some (.whole i) := by
  have hhalf : Nat.pow 2 63 = 2 ^ 63 := rfl
  have hlimit : wordLimit = 2 ^ 64 := rfl
  have hbits : i.natAbs < wordLimit := by omega
  have habsorb : absorb 0 (ofInt i).whole = (i.natAbs, []) := absorb_decimals hbits
  have hvalue : (ofInt i).value? = whole? (i < 0) i.natAbs := by
    simp only [value?, habsorb]
    rfl
  rw [hvalue]
  by_cases hi : i < 0
  · have hrange : 0 < i.natAbs ∧ i.natAbs ≤ Nat.pow 2 63 := by omega
    have habs : -(i.natAbs : Int) = i := by omega
    simp only [whole?, hi, decide_true, Bool.not_true, Bool.false_eq_true, if_false, hrange,
      and_self, if_true, habs]
  · have habs : (i.natAbs : Int) = i := by omega
    simp only [whole?, hi, decide_false, Bool.not_false, if_true, habs]

end Numeral

namespace Syntax

/-- What may follow a value: nothing, a comma, or a closing bracket. -/
def Ends : List Char → Prop
  | [] => True
  | c :: _ => c = ',' ∨ c = ']' ∨ c = '\x7d'

variable {cs rest : List Char}

theorem digit?_digitChar {d : Nat} (h : d < 10) : digit? (Nat.digitChar d) = some d := by
  have all : ∀ i : Fin 10, digit? (Nat.digitChar i) = some i.val := by decide
  exact all ⟨d, h⟩

theorem digits_of_ends (h : Ends rest) : digits rest = ([], rest) := by
  cases rest with
  | nil => rfl
  | cons c cs => rcases h with rfl | rfl | rfl <;> rfl

theorem digits_append {ds : List Nat} (h : ∀ d ∈ ds, d < 10) (ends : Ends rest) :
    digits (ds.map Nat.digitChar ++ rest) = (ds, rest) := by
  induction ds with
  | nil => exact digits_of_ends ends
  | cons d ds ih =>
    rw [List.forall_mem_cons] at h
    simp only [List.map_cons, List.cons_append, digits, digit?_digitChar h.1, ih h.2]

theorem wholePart?_decimals (n : Nat) (ends : Ends rest) :
    wholePart? ((Numeral.decimals n).map Nat.digitChar ++ rest) =
      some (Numeral.decimals n, rest) := by
  have hdigits := digits_append (fun _ => Numeral.decimals_lt (n := n)) ends
  unfold wholePart?
  rw [hdigits]
  by_cases hn : n < 10
  · rw [Numeral.decimals, if_pos hn]
  · obtain ⟨d, e, ds, hds⟩ := Numeral.decimals_of_le (Nat.not_lt.mp hn)
    rw [hds]
    rfl

theorem fractionPart?_of_ends (h : Ends rest) : fractionPart? rest = some (none, rest) := by
  cases rest with
  | nil => rfl
  | cons c cs => rcases h with rfl | rfl | rfl <;> rfl

theorem exponentPart?_of_ends (h : Ends rest) : exponentPart? rest = some (none, rest) := by
  cases rest with
  | nil => rfl
  | cons c cs => rcases h with rfl | rfl | rfl <;> rfl

theorem numeral?_decimals (negative : Bool) (n : Nat) (ends : Ends rest) :
    numeral? negative ((Numeral.decimals n).map Nat.digitChar ++ rest) =
      some (⟨negative, Numeral.decimals n, none, none⟩, rest) := by
  simp [numeral?, wholePart?_decimals n ends, fractionPart?_of_ends ends,
    exponentPart?_of_ends ends]

/-! ## Texts -/

theorem chars?_unit {n : Nat} {ps : List Piece} {cs : List Char} (h : n < 0x20)
    (hps : Piece.chars? ps = some cs) :
    Piece.chars? (.unit n :: ps) = some (Char.ofNat n :: cs) := by
  have hhigh : isHighSurrogate n = false := by simp [isHighSurrogate]; omega
  have hlow : isLowSurrogate n = false := by simp [isLowSurrogate]; omega
  cases ps with
  | nil => simp_all [Piece.chars?]
  | cons p ps => cases p <;> simp_all [Piece.chars?]

/-- An escaped character is one piece, which spells the character. -/
theorem pieces?_escapeChar (c : Char) :
    ∃ p, (∀ ps cs, Piece.chars? ps = some cs → Piece.chars? (p :: ps) = some (c :: cs)) ∧
      ∀ rest, pieces? (escapeChar c ++ rest) =
        (pieces? rest).bind fun r => some (p :: r.1, r.2) := by
  have hchar : ∀ ps cs, Piece.chars? ps = some cs →
      Piece.chars? (.char c :: ps) = some (c :: cs) := fun ps cs h => by simp [Piece.chars?, h]
  unfold escapeChar
  split_ifs with h1 h2 h3 h4 h5 h6 h7 h8
  any_goals
    subst c
    exact ⟨_, hchar, fun rest => by simp [pieces?, escape?]⟩
  · -- A control character is given by its code.
    refine ⟨.unit c.toNat, fun ps cs h => ?_, fun rest => ?_⟩
    · rw [chars?_unit h8 h, Char.ofNat_toNat]
    · have hzero : Text.hexValue? '0' = some 0 := by decide
      have hhigh := Text.hexValue?_hexDigit (n := c.toNat / 16) (by omega)
      have hlow := Text.hexValue?_hexDigit (n := c.toNat % 16) (by omega)
      have hcode : c.toNat / 16 * 16 + c.toNat % 16 = c.toNat := Nat.div_add_mod' ..
      simp [pieces?, hzero, hhigh, hlow, hcode]
  · refine ⟨_, hchar, fun rest => ?_⟩
    have hplain : ¬ (c.toNat < 0x20 ∨ c = '\\') := fun h => h.elim h8 h2
    rw [List.singleton_append, pieces?, if_neg hplain]
    · rfl
    · exact h1
    · exact fun _ _ _ _ _ h _ => h2 h
    · exact fun _ _ h _ => h2 h

/-- The characters of a text are read up to the quote at its end. -/
theorem pieces?_flatMap (cs : List Char) :
    ∃ ps, Piece.chars? ps = some cs ∧
      ∀ rest, pieces? (cs.flatMap escapeChar ++ '"' :: rest) = some (ps, rest) := by
  induction cs with
  | nil => exact ⟨[], rfl, fun rest => by simp [pieces?]⟩
  | cons c cs ih =>
    obtain ⟨ps, hps, hread⟩ := ih
    obtain ⟨p, hp, hescape⟩ := pieces?_escapeChar c
    refine ⟨p :: ps, hp ps cs hps, fun rest => ?_⟩
    rw [List.flatMap_cons, List.append_assoc, hescape, hread]
    rfl

theorem pieces?_quoted (t : String) :
    ∃ ps, Piece.text? ps = some t ∧
      ∀ rest, pieces? (t.toList.flatMap escapeChar ++ '"' :: rest) = some (ps, rest) := by
  obtain ⟨ps, hps, hread⟩ := pieces?_flatMap t.toList
  exact ⟨ps, by rw [Piece.text?, hps, Option.map_some, String.ofList_toList], hread⟩

/-! ## Values -/

/-- The text of a value is read as a tree, whatever follows it. -/
def ReadsAs (j : Json) (s : Syntax) : Prop :=
  ∀ fuel rest, Ends rest → 2 * j.render.length ≤ fuel →
    value? fuel (j.render ++ rest) = some (s, rest)

structure MemberReadsAs (m : String × Json) (n : List Piece × Syntax) : Prop where
  name : Piece.text? n.1 = some m.1
  quoted : ∀ rest, pieces? (m.1.toList.flatMap escapeChar ++ '"' :: rest) = some (n.1, rest)
  value : ReadsAs m.2 n.2

variable {j : Json} {s : Syntax} {n : String} {ps : List Piece} {js : List Json} {ss : List Syntax}
  {ms : Members} {ns : List (List Piece × Syntax)}

theorem skipSpace_cons {c : Char} (h : isSpace c = false) : skipSpace (c :: cs) = c :: cs := by
  simp [skipSpace, h]

theorem render_whole (i : Int) : (Number.whole i).render =
    (if i < 0 then ['-'] else []) ++ (Numeral.decimals i.natAbs).map Nat.digitChar := by
  rw [← Numeral.toDigits_eq]
  cases i with
  | ofNat n => simp [Number.render, toString, Int.repr, Nat.repr_eq_ofList_toDigits]
  | negSucc n => simp [Number.render, toString, Int.repr, Nat.repr_eq_ofList_toDigits]

theorem digitChar_start {d : Nat} (h : d < 10) :
    isSpace (Nat.digitChar d) = false ∧ Nat.digitChar d ≠ ']' := by
  have all : ∀ i : Fin 10, isSpace (Nat.digitChar i) = false ∧ Nat.digitChar i ≠ ']' := by decide
  exact all ⟨d, h⟩

theorem decimals_eq_cons (n : Nat) : ∃ d ds, Numeral.decimals n = d :: ds ∧ d < 10 := by
  cases h : Numeral.decimals n with
  | nil =>
    rw [Numeral.decimals] at h
    split_ifs at h
    simp at h
  | cons d ds => exact ⟨d, ds, rfl, Numeral.decimals_lt (h ▸ List.mem_cons_self)⟩

/-- A digit at the front starts a number. -/
theorem value?_digit {d : Nat} (h : d < 10) (fuel : Nat) (cs : List Char) :
    value? (fuel + 1) (Nat.digitChar d :: cs) =
      (numeral? false (Nat.digitChar d :: cs)).map fun r => (.number r.1, r.2) := by
  interval_cases d <;> rfl

theorem exists_fuel {n fuel : Nat} (hn : 0 < n) (h : 2 * n ≤ fuel) : ∃ f, fuel = f + 1 :=
  ⟨fuel - 1, by omega⟩

theorem readsAs_whole (i : Int) : ReadsAs (.number (.whole i)) (.number (.ofInt i)) := by
  intro fuel rest ends hfuel
  obtain ⟨d, ds, hds, hd⟩ := decimals_eq_cons i.natAbs
  have hnumeral := fun negative => numeral?_decimals negative i.natAbs ends
  simp only [render, render_whole, hds, List.map_cons, List.cons_append] at hfuel hnumeral ⊢
  obtain ⟨fuel, rfl⟩ := exists_fuel (by simp) hfuel
  by_cases hi : i < 0
  · simp only [hi, if_true, List.cons_append, List.nil_append]
    rw [value?, skipSpace_cons rfl]
    simp [hnumeral, Numeral.ofInt, hi, hds]
  · simp only [hi, if_false, List.nil_append, List.cons_append]
    rw [value?_digit hd, hnumeral]
    simp [Numeral.ofInt, hi, hds]

/-- The text of a value starts with a character that no blank and no end of a list is. -/
theorem render_eq_cons (h : j.Plain) :
    ∃ c cs, j.render = c :: cs ∧ isSpace c = false ∧ c ≠ ']' := by
  cases h with
  | null | text | list | object => exact ⟨_, _, rfl, rfl, by decide⟩
  | bool b => cases b <;> exact ⟨_, _, rfl, rfl, by decide⟩
  | @number i =>
    obtain ⟨d, ds, hds, hd⟩ := decimals_eq_cons i.natAbs
    rw [render, render_whole, hds]
    split_ifs
    · exact ⟨'-', _, rfl, rfl, by decide⟩
    · exact ⟨_, _, rfl, digitChar_start hd⟩

theorem items?_renderItems (h : List.Forall₂ ReadsAs js ss) (hne : js ≠ []) (fuel : Nat)
    (hfuel : 2 * (renderItems js).length + 1 ≤ fuel) (rest : List Char) :
    items? fuel (renderItems js ++ ']' :: rest) = some (ss, rest) := by
  induction h generalizing fuel with
  | nil => exact absurd rfl hne
  | @cons x s js ss hx hjs ih =>
    obtain ⟨fuel, rfl⟩ : ∃ f, fuel = f + 1 := ⟨fuel - 1, by omega⟩
    cases hjs with
    | nil =>
      simp only [renderItems] at hfuel ⊢
      rw [items?, hx fuel (']' :: rest) (.inr (.inl rfl)) (by omega)]
      rfl
    | @cons y t js ss hy hjs =>
      simp only [renderItems, List.length_append, List.length_cons] at hfuel ⊢
      have hrest := ih (by simp) fuel (by omega)
      rw [List.append_assoc, List.cons_append, items?, hx fuel (',' :: _) (.inl rfl) (by omega)]
      simp [skipSpace_cons, isSpace, hrest]

theorem members?_renderMembers (h : List.Forall₂ MemberReadsAs ms ns) (hne : ms ≠ []) (fuel : Nat)
    (hfuel : 2 * (renderMembers ms).length + 1 ≤ fuel) (rest : List Char) :
    members? fuel (renderMembers ms ++ '\x7d' :: rest) = some (ns, rest) := by
  induction h generalizing fuel with
  | nil => exact absurd rfl hne
  | @cons m n ms ns hm hms ih =>
    obtain ⟨fuel, rfl⟩ : ∃ f, fuel = f + 1 := ⟨fuel - 1, by omega⟩
    obtain ⟨name, j⟩ := m
    obtain ⟨ps, s⟩ := n
    have hvalue : ReadsAs j s := hm.value
    cases hms with
    | nil =>
      simp only [renderMembers, Json.quoted, List.length_append, List.length_cons, List.cons_append,
        List.append_assoc, List.nil_append] at hfuel ⊢
      have hlast := hvalue fuel ('\x7d' :: rest) (.inr (.inr rfl)) (by omega)
      simp [members?, skipSpace_cons, isSpace, hm.quoted, hlast]
    | @cons m' n' ms ns hm' hms =>
      simp only [renderMembers, Json.quoted, List.length_append, List.length_cons, List.cons_append,
        List.append_assoc, List.nil_append] at hfuel ⊢
      have hrest := ih (by simp) fuel (by omega)
      have hfirst := hvalue fuel (',' :: (renderMembers (m' :: ms) ++ '\x7d' :: rest)) (.inl rfl)
        (by omega)
      simp [members?, skipSpace_cons, isSpace, hm.quoted, hfirst, hrest]

theorem renderItems_eq_cons (js : List Json) (hj : j.Plain) :
    ∃ c cs, renderItems (j :: js) = c :: cs ∧ isSpace c = false ∧ c ≠ ']' := by
  obtain ⟨c, cs, hc, hspace, hend⟩ := render_eq_cons hj
  cases js with
  | nil => exact ⟨c, cs, hc, hspace, hend⟩
  | cons k js => exact ⟨c, _, by rw [renderItems, hc]; rfl, hspace, hend⟩

theorem readsAs_list (hjs : ∀ j ∈ js, j.Plain) (h : List.Forall₂ ReadsAs js ss) :
    ReadsAs (.list js) (.list ss) := by
  intro fuel rest ends hfuel
  obtain ⟨fuel, rfl⟩ := exists_fuel (by simp [render]) hfuel
  simp only [render, List.length_append, List.length_cons, List.cons_append, List.append_assoc,
    List.nil_append] at hfuel ⊢
  cases h with
  | nil => rfl
  | @cons j s js ss hj hrest =>
    have hitems := items?_renderItems (.cons hj hrest) (by simp) fuel (by omega) rest
    obtain ⟨c, cs, hc, hspace, hend⟩ := renderItems_eq_cons js (hjs j List.mem_cons_self)
    rw [value?, skipSpace_cons rfl]
    simp only [hc, List.cons_append, skipSpace_cons hspace] at hitems ⊢
    simp [hend, hitems]

theorem renderMembers_eq_cons (m : String × Json) (ms : Members) :
    ∃ cs, renderMembers (m :: ms) = '"' :: cs := by
  cases ms <;> exact ⟨_, rfl⟩

theorem readsAs_object (h : List.Forall₂ MemberReadsAs ms ns) :
    ReadsAs (.object ms) (.object ns) := by
  intro fuel rest ends hfuel
  obtain ⟨fuel, rfl⟩ := exists_fuel (by simp [render]) hfuel
  simp only [render, List.length_append, List.length_cons, List.cons_append, List.append_assoc,
    List.nil_append] at hfuel ⊢
  cases h with
  | nil => rfl
  | @cons m n ms ns hm hrest =>
    have hmembers := members?_renderMembers (.cons hm hrest) (by simp) fuel (by omega) rest
    obtain ⟨cs, hcs⟩ := renderMembers_eq_cons m ms
    simp only [hcs, List.cons_append] at hmembers ⊢
    simp [value?, skipSpace_cons, isSpace, hmembers]

theorem exists_forall₂ {α β : Type} {P : α → β → Prop} {as : List α} (h : ∀ a ∈ as, ∃ b, P a b) :
    ∃ bs, List.Forall₂ P as bs := by
  induction as with
  | nil => exact ⟨[], .nil⟩
  | cons a as ih =>
    rw [List.forall_mem_cons] at h
    obtain ⟨b, hb⟩ := h.1
    obtain ⟨bs, hbs⟩ := ih h.2
    exact ⟨b :: bs, .cons hb hbs⟩

/-- The text of a value is read as a tree that writes the value. -/
theorem exists_written (h : j.Plain) : ∃ s, Written j s ∧ ReadsAs j s := by
  induction h with
  | null =>
    refine ⟨.null, .null, fun fuel rest _ hfuel => ?_⟩
    obtain ⟨fuel, rfl⟩ := exists_fuel (by decide) hfuel
    rfl
  | bool b =>
    refine ⟨.bool b, .bool b, fun fuel rest _ hfuel => ?_⟩
    obtain ⟨fuel, rfl⟩ := exists_fuel (by cases b <;> decide) hfuel
    cases b <;> rfl
  | @number i lower upper =>
    exact ⟨_, .number (Numeral.value?_ofInt lower upper), readsAs_whole i⟩
  | text t =>
    obtain ⟨ps, hps, hread⟩ := pieces?_quoted t
    refine ⟨.text ps, .text hps, fun fuel rest _ hfuel => ?_⟩
    obtain ⟨fuel, rfl⟩ := exists_fuel (by simp [render, quoted]) hfuel
    simp only [render, quoted, List.cons_append, List.append_assoc, List.nil_append]
    rw [value?, skipSpace_cons rfl]
    simp [hread]
  | @list js hjs ih =>
    obtain ⟨ss, hss⟩ := exists_forall₂ ih
    exact ⟨.list ss, .list (hss.imp fun _ _ h => h.1), readsAs_list hjs (hss.imp fun _ _ h => h.2)⟩
  | @object ms _ ih =>
    have hmember : ∀ m ∈ ms, ∃ n, WrittenMember m n ∧ MemberReadsAs m n := fun m hm => by
      obtain ⟨s, hwritten, hreads⟩ := ih m hm
      obtain ⟨ps, hps, hquoted⟩ := pieces?_quoted m.1
      exact ⟨(ps, s), .mk hps hwritten, hps, hquoted, hreads⟩
    obtain ⟨ns, hns⟩ := exists_forall₂ hmember
    exact ⟨.object ns, .object (.refl ms) (hns.imp fun _ _ h => h.1),
      readsAs_object (hns.imp fun _ _ h => h.2)⟩

end Syntax

variable {j k : Json}

/-- The writer's text of a value writes the value. -/
theorem writes_toText (h : j.Plain) : Writes j.toText j := by
  obtain ⟨s, hwritten, hreads⟩ := Syntax.exists_written h
  refine ⟨s, ?_, hwritten⟩
  have hread := hreads (2 * j.render.length + 1) [] trivial (Nat.le_succ _)
  rw [List.append_nil] at hread
  simp [Syntax.read?, toText, hread, Syntax.skipSpace]

/-- So does the text with the members of objects in another order. -/
theorem writes_of_reordered (h : j.Plain) (hjk : Reordered j k) : Writes k.toText j := by
  obtain ⟨s, hread, hwritten⟩ := writes_toText (hjk.plain h)
  exact ⟨s, hread, hwritten.reordered hjk⟩

end ClusterControl.Json
