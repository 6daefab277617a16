import ClusterControl.Text.Base64
import Mathlib.Algebra.Group.Nat.Defs
import Mathlib.Data.List.Basic

/-!
# The format of Base64

A text in Base64 has the bits of its bytes, the highest bit of each first, and fewer than six zeros
behind them. Six bits are a symbol of the alphabet, and fewer than four `=` fill the last group of
four. Every sequence of bytes has exactly one such text, and reading accepts exactly these texts.
-/

namespace ClusterControl.Base64

def alphabet : List Char :=
  "ABCDEFGHIJKLMNOPQRSTUVWXYZabcdefghijklmnopqrstuvwxyz0123456789+/".toList

/-- The lowest bits of a number, the highest of them first. -/
def bits : Nat → Nat → List Bool
  | 0, _ => []
  | width + 1, n => bits width (n / 2) ++ [n % 2 == 1]

/-- A text is the Base64 of some bytes. -/
def Encodes (bytes : List UInt8) (cs : List Char) : Prop :=
  ∃ (values : List Nat) (symbols : List Char) (fill padding : Nat),
    values.flatMap (bits 6) = bytes.flatMap (bits 8 ·.toNat) ++ List.replicate fill false ∧
    fill < 6 ∧ values.map (alphabet[·]?) = symbols.map some ∧
    cs = symbols ++ List.replicate padding '=' ∧ padding < 4 ∧ cs.length % 4 = 0

section Symbols

variable {n : Nat} {c : Char} {values : List Nat} {symbols : List Char}

theorem getElem?_alphabet : alphabet[n]? = some c ↔ n < 64 ∧ c = symbol n := by
  have hall : ∀ i : Fin 64, alphabet[i.val]? = some (symbol i.val) := by decide +kernel
  have hlength : alphabet.length = 64 := by decide +kernel
  by_cases h : n < 64
  · rw [hall ⟨n, h⟩, Option.some.injEq, eq_comm, and_iff_right h]
  · rw [List.getElem?_eq_none (hlength ▸ Nat.not_lt.mp h)]
    exact ⟨nofun, fun hn => absurd hn.1 h⟩

theorem map_alphabet :
    values.map (alphabet[·]?) = symbols.map some ↔
      (∀ v ∈ values, v < 64) ∧ symbols = values.map symbol := by
  induction values generalizing symbols with
  | nil => cases symbols <;> simp
  | cons v values ih =>
    cases symbols with
    | nil => simp
    | cons c symbols =>
      simp only [List.map_cons, List.cons.injEq, getElem?_alphabet, ih, List.forall_mem_cons]
      exact and_and_and_comm

theorem value?_eq_some : value? c = some n ↔ n < 64 ∧ c = symbol n := by
  constructor
  · intro h
    have hsmall : c.toNat < 128 := by
      by_cases hplus : c = '+'
      · subst hplus
        decide
      · by_cases hslash : c = '/'
        · subst hslash
          decide
        · grind [value?]
    have hall : ∀ i : Fin 128, ∀ v ∈ value? (Char.ofNat i.val), v < 64 ∧
        Char.ofNat i.val = symbol v := by decide +kernel
    have hc := hall ⟨c.toNat, hsmall⟩ n
    rw [Char.ofNat_toNat] at hc
    exact hc h
  · rintro ⟨h, rfl⟩
    have hall : ∀ i : Fin 64, value? (symbol i.val) = some i.val := by decide
    exact hall ⟨n, h⟩

theorem value?_symbol (h : n < 64) : value? (symbol n) = some n :=
  value?_eq_some.mpr ⟨h, rfl⟩

theorem symbol_ne_padding (h : n < 64) : symbol n ≠ '=' := by
  intro heq
  have hvalue : value? '=' = some n := heq ▸ value?_symbol h
  cases hvalue

end Symbols

section Bits

variable {a b q r m n width : Nat} {values others : List Nat}

/-- The bits of a number come from its two parts, one after the other. -/
theorem bits_join (a b q : Nat) (hr : r < 2 ^ b) :
    bits (a + b) (q * 2 ^ b + r) = bits a q ++ bits b r := by
  induction b generalizing r with
  | zero =>
    have hzero : r = 0 := by omega
    simp [hzero, bits]
  | succ b ih =>
    have hpow : q * 2 ^ (b + 1) = 2 * (q * 2 ^ b) := by rw [Nat.pow_succ', Nat.mul_left_comm]
    have hhalf : (q * 2 ^ (b + 1) + r) / 2 = q * 2 ^ b + r / 2 := by omega
    have hlast : (q * 2 ^ (b + 1) + r) % 2 = r % 2 := by omega
    rw [← Nat.add_assoc, bits, bits, hhalf, hlast, ih (by omega), List.append_assoc]

theorem bits_split (a b n : Nat) : bits (a + b) n = bits a (n / 2 ^ b) ++ bits b (n % 2 ^ b) := by
  rw [← bits_join a b _ (Nat.mod_lt n (Nat.two_pow_pos b)), Nat.div_add_mod']

theorem bits_zero : bits width 0 = List.replicate width false := by
  induction width with
  | zero => rfl
  | succ width ih => rw [bits, Nat.zero_div, ih, List.replicate_succ']; rfl

@[simp] theorem length_bits : (bits width n).length = width := by
  induction width generalizing n with
  | zero => rfl
  | succ width ih => simp [bits, ih]

theorem bits_injective (hm : m < 2 ^ width) (hn : n < 2 ^ width)
    (h : bits width m = bits width n) : m = n := by
  induction width generalizing m n with
  | zero => omega
  | succ width ih =>
    obtain ⟨hhalf, hlast⟩ := List.append_inj' h rfl
    have heq : m / 2 = n / 2 := ih (by omega) (by omega) hhalf
    have hbit : (m % 2 == 1) = (n % 2 == 1) := by simpa using hlast
    have hparity : m % 2 = 1 ↔ n % 2 = 1 := by simpa using hbit
    omega

theorem flatMap_bits_injective (width : Nat) (hv : ∀ v ∈ values, v < 2 ^ width)
    (ho : ∀ v ∈ others, v < 2 ^ width) (hlength : values.length = others.length)
    (h : values.flatMap (bits width) = others.flatMap (bits width)) : values = others := by
  induction values generalizing others with
  | nil => exact (List.length_eq_zero_iff.mp hlength.symm).symm
  | cons v values ih =>
    cases others with
    | nil => cases hlength
    | cons w others =>
      obtain ⟨hv, hvalues⟩ := List.forall_mem_cons.mp hv
      obtain ⟨hw, hothers⟩ := List.forall_mem_cons.mp ho
      obtain ⟨hfirst, hrest⟩ := List.append_inj h (by simp)
      rw [bits_injective hv hw hfirst, ih hvalues hothers (by simpa using hlength) hrest]

theorem length_flatMap_bits {α : Type} {f : α → Nat} {xs : List α} :
    (xs.flatMap (bits width <| f ·)).length = width * xs.length := by
  induction xs with
  | nil => rfl
  | cons x xs ih => simp [ih, Nat.mul_add, Nat.add_comm]

end Bits

section Groups

variable {x y z : Nat}

theorem bits_one (x : Nat) :
    bits 6 (x / 4) ++ bits 6 (x % 4 * 16) = bits 8 x ++ List.replicate 4 false := by
  have hx : bits 8 x = bits 6 (x / 4) ++ bits 2 (x % 4) := bits_split 6 2 x
  have hlast : bits 6 (x % 4 * 16 + 0) = bits 2 (x % 4) ++ bits 4 0 :=
    bits_join 2 4 _ (by omega)
  rw [Nat.add_zero] at hlast
  rw [hx, hlast, bits_zero, List.append_assoc]

theorem bits_two (x : Nat) (hy : y < 256) :
    bits 6 (x / 4) ++ (bits 6 (x % 4 * 16 + y / 16) ++ bits 6 (y % 16 * 4)) =
      bits 8 x ++ (bits 8 y ++ List.replicate 2 false) := by
  have hx : bits 8 x = bits 6 (x / 4) ++ bits 2 (x % 4) := bits_split 6 2 x
  have hsplit : bits 8 y = bits 4 (y / 16) ++ bits 4 (y % 16) := bits_split 4 4 y
  have hsecond : bits 6 (x % 4 * 16 + y / 16) = bits 2 (x % 4) ++ bits 4 (y / 16) :=
    bits_join 2 4 _ (by omega)
  have hlast : bits 6 (y % 16 * 4 + 0) = bits 4 (y % 16) ++ bits 2 0 :=
    bits_join 4 2 _ (by omega)
  rw [Nat.add_zero] at hlast
  simp only [hx, hsplit, hsecond, hlast, bits_zero, List.append_assoc]

theorem bits_three (x : Nat) (hy : y < 256) (hz : z < 256) :
    bits 6 (x / 4) ++ (bits 6 (x % 4 * 16 + y / 16) ++ (bits 6 (y % 16 * 4 + z / 64) ++
      bits 6 (z % 64))) = bits 8 x ++ (bits 8 y ++ bits 8 z) := by
  have hx : bits 8 x = bits 6 (x / 4) ++ bits 2 (x % 4) := bits_split 6 2 x
  have hsplit : bits 8 y = bits 4 (y / 16) ++ bits 4 (y % 16) := bits_split 4 4 y
  have hlast : bits 8 z = bits 2 (z / 64) ++ bits 6 (z % 64) := bits_split 2 6 z
  have hsecond : bits 6 (x % 4 * 16 + y / 16) = bits 2 (x % 4) ++ bits 4 (y / 16) :=
    bits_join 2 4 _ (by omega)
  have hthird : bits 6 (y % 16 * 4 + z / 64) = bits 4 (y % 16) ++ bits 2 (z / 64) :=
    bits_join 4 2 _ (by omega)
  simp only [hx, hsplit, hsecond, hthird, hlast, List.append_assoc]

end Groups

section Texts

variable {bytes others : List UInt8} {cs : List Char}

theorem encodes_iff :
    Encodes bytes cs ↔ ∃ (values : List Nat) (fill padding : Nat),
      values.flatMap (bits 6) = bytes.flatMap (bits 8 ·.toNat) ++ List.replicate fill false ∧
      fill < 6 ∧ (∀ v ∈ values, v < 64) ∧
      cs = values.map symbol ++ List.replicate padding '=' ∧ padding < 4 ∧
      (values.length + padding) % 4 = 0 := by
  unfold Encodes
  constructor
  · rintro ⟨values, symbols, fill, padding, hbits, hfill, hsymbols, rfl, hpadding, hlength⟩
    obtain ⟨hvalues, rfl⟩ := map_alphabet.mp hsymbols
    exact ⟨values, fill, padding, hbits, hfill, hvalues, rfl, hpadding, by simpa using hlength⟩
  · rintro ⟨values, fill, padding, hbits, hfill, hvalues, rfl, hpadding, hlength⟩
    exact ⟨values, _, fill, padding, hbits, hfill, map_alphabet.mpr ⟨hvalues, rfl⟩, rfl, hpadding,
      by simpa using hlength⟩

theorem encodes_encode (bytes : List UInt8) : Encodes bytes (encode bytes) := by
  fun_induction encode bytes with
  | case1 => exact encodes_iff.mpr ⟨[], 0, 0, rfl, by omega, by simp, rfl, by omega, rfl⟩
  | case2 a x =>
    refine encodes_iff.mpr ⟨[x / 4, x % 4 * 16], 4, 2, ?_, by omega, ?_, rfl, by omega, by simp⟩
    · simpa using bits_one x
    · have hx : x < 256 := a.toNat_lt
      simp
      omega
  | case3 a b x y =>
    refine encodes_iff.mpr ⟨[x / 4, x % 4 * 16 + y / 16, y % 16 * 4], 2, 1, ?_, by omega, ?_, rfl,
      by omega, by simp⟩
    · simpa using bits_two x b.toNat_lt
    · have hx : x < 256 := a.toNat_lt
      have hy : y < 256 := b.toNat_lt
      simp
      omega
  | case4 a b c rest x y z ih =>
    obtain ⟨values, fill, padding, hbits, hfill, hvalues, hrest, hpadding, hlength⟩ :=
      encodes_iff.mp ih
    refine encodes_iff.mpr ⟨x / 4 :: (x % 4 * 16 + y / 16) :: (y % 16 * 4 + z / 64) ::
      z % 64 :: values, fill, padding, ?_, hfill, ?_, ?_, hpadding, ?_⟩
    · have hgroup := bits_three x b.toNat_lt c.toNat_lt
      simp only [List.flatMap_cons, hbits]
      simp only [← List.append_assoc] at hgroup ⊢
      rw [hgroup]
    · have hx : x < 256 := a.toNat_lt
      have hy : y < 256 := b.toNat_lt
      have hz : z < 256 := c.toNat_lt
      simp only [List.forall_mem_cons]
      exact ⟨by omega, by omega, by omega, by omega, hvalues⟩
    · rw [hrest]
      rfl
    · simp only [List.length_cons]
      omega

/-- Bytes have one text. -/
theorem Encodes.unique {other : List Char} (h : Encodes bytes cs) (ho : Encodes bytes other) :
    other = cs := by
  obtain ⟨values, fill, padding, hbits, hfill, hvalues, rfl, hpadding, hlength⟩ := encodes_iff.mp h
  obtain ⟨values', fill', padding', hbits', hfill', hvalues', rfl, hpadding', hlength'⟩ :=
    encodes_iff.mp ho
  have hcount := congrArg List.length hbits
  have hcount' := congrArg List.length hbits'
  rw [List.length_append, List.length_replicate, length_flatMap_bits] at hcount hcount'
  have hzeros : fill' = fill := by omega
  have hsame : values' = values := by
    refine flatMap_bits_injective 6 hvalues' hvalues (by omega) ?_
    rw [hbits', hbits, hzeros]
  have hpad : padding' = padding := by
    rw [hsame] at hlength'
    omega
  rw [hsame, hpad]

end Texts

section Reading

variable {bytes : List UInt8} {cs : List Char}

theorem toNat_ofNat {n : Nat} (h : n < 256) : (UInt8.ofNat n).toNat = n := by
  rw [UInt8.toNat_ofNat', Nat.mod_eq_of_lt h]

theorem decode?_encode (bytes : List UInt8) : decode? (encode bytes) = some bytes := by
  fun_induction encode bytes with
  | case1 => rfl
  | case2 a x =>
    have hx : x < 256 := a.toNat_lt
    have hbyte : x / 4 * 4 + x % 4 * 16 / 16 = x := by omega
    have hrest : x % 4 * 16 % 16 = 0 := by omega
    rw [decode?, value?_symbol (by omega), value?_symbol (by omega)]
    simp only [Option.bind_eq_bind, Option.bind_some, hrest, if_true, hbyte, x, UInt8.ofNat_toNat]
  | case3 a b x y =>
    have hx : x < 256 := a.toNat_lt
    have hy : y < 256 := b.toNat_lt
    have hfirst : x / 4 * 4 + (x % 4 * 16 + y / 16) / 16 = x := by omega
    have hsecond : (x % 4 * 16 + y / 16) % 16 * 16 + y % 16 * 4 / 4 = y := by omega
    have hrest : y % 16 * 4 % 4 = 0 := by omega
    rw [decode?, value?_symbol (by omega), value?_symbol (by omega), value?_symbol (by omega)]
    · simp only [Option.bind_eq_bind, Option.bind_some, hrest, if_true, hfirst, hsecond, x, y,
        UInt8.ofNat_toNat]
    · exact symbol_ne_padding (by omega)
  | case4 a b c rest x y z ih =>
    have hx : x < 256 := a.toNat_lt
    have hy : y < 256 := b.toNat_lt
    have hz : z < 256 := c.toNat_lt
    have hfirst : x / 4 * 4 + (x % 4 * 16 + y / 16) / 16 = x := by omega
    have hsecond : (x % 4 * 16 + y / 16) % 16 * 16 + (y % 16 * 4 + z / 64) / 4 = y := by omega
    have hthird : (y % 16 * 4 + z / 64) % 4 * 64 + z % 64 = z := by omega
    rw [decode?, value?_symbol (by omega), value?_symbol (by omega), value?_symbol (by omega),
      value?_symbol (by omega), ih]
    · simp only [Option.bind_eq_bind, Option.bind_some, hfirst, hsecond, hthird, x, y, z,
        UInt8.ofNat_toNat]
    · exact fun _ hpadding => absurd hpadding (symbol_ne_padding (by omega))
    · exact fun hpadding => absurd hpadding (symbol_ne_padding (by omega))

theorem eq_encode_of_decode? (h : decode? cs = some bytes) : cs = encode bytes := by
  fun_induction decode? cs generalizing bytes with
  | case1 =>
    cases h
    rfl
  | case2 a b =>
    simp only [Option.bind_eq_bind, Option.bind_eq_some_iff, value?_eq_some] at h
    obtain ⟨p, ⟨hp, rfl⟩, q, ⟨hq, rfl⟩, h⟩ := h
    split at h
    next hrest =>
      cases h
      have hbyte : (UInt8.ofNat (p * 4 + q / 16)).toNat = p * 4 + q / 16 := toNat_ofNat (by omega)
      have hfirst : (p * 4 + q / 16) / 4 = p := by omega
      have hsecond : (p * 4 + q / 16) % 4 * 16 = q := by omega
      simp only [encode, hbyte, hfirst, hsecond]
    next => cases h
  | case3 a b c =>
    simp only [Option.bind_eq_bind, Option.bind_eq_some_iff, value?_eq_some] at h
    obtain ⟨p, ⟨hp, rfl⟩, q, ⟨hq, rfl⟩, r, ⟨hr, rfl⟩, h⟩ := h
    split at h
    next hrest =>
      cases h
      have hx : (UInt8.ofNat (p * 4 + q / 16)).toNat = p * 4 + q / 16 := toNat_ofNat (by omega)
      have hy : (UInt8.ofNat (q % 16 * 16 + r / 4)).toNat = q % 16 * 16 + r / 4 :=
        toNat_ofNat (by omega)
      have hfirst : (p * 4 + q / 16) / 4 = p := by omega
      have hsecond : (p * 4 + q / 16) % 4 * 16 + (q % 16 * 16 + r / 4) / 16 = q := by omega
      have hthird : (q % 16 * 16 + r / 4) % 16 * 4 = r := by omega
      simp only [encode, hx, hy, hfirst, hsecond, hthird]
    next => cases h
  | case4 a b c d rest _ _ ih =>
    simp only [Option.bind_eq_bind, Option.bind_eq_some_iff, value?_eq_some] at h
    obtain ⟨p, ⟨hp, rfl⟩, q, ⟨hq, rfl⟩, r, ⟨hr, rfl⟩, s, ⟨hs, rfl⟩, tail, htail, h⟩ := h
    cases h
    have hx : (UInt8.ofNat (p * 4 + q / 16)).toNat = p * 4 + q / 16 := toNat_ofNat (by omega)
    have hy : (UInt8.ofNat (q % 16 * 16 + r / 4)).toNat = q % 16 * 16 + r / 4 :=
      toNat_ofNat (by omega)
    have hz : (UInt8.ofNat (r % 4 * 64 + s)).toNat = r % 4 * 64 + s := toNat_ofNat (by omega)
    have hfirst : (p * 4 + q / 16) / 4 = p := by omega
    have hsecond : (p * 4 + q / 16) % 4 * 16 + (q % 16 * 16 + r / 4) / 16 = q := by omega
    have hthird : (q % 16 * 16 + r / 4) % 16 * 4 + (r % 4 * 64 + s) / 64 = r := by omega
    have hfourth : (r % 4 * 64 + s) % 64 = s := by omega
    simp only [encode, hx, hy, hz, hfirst, hsecond, hthird, hfourth, ← ih htail]
  | case5 => cases h

/-- Reading accepts the text of the bytes and no other. -/
theorem decode?_eq_some : decode? cs = some bytes ↔ Encodes bytes cs := by
  constructor
  · intro h
    exact eq_encode_of_decode? h ▸ encodes_encode bytes
  · intro h
    rw [(encodes_encode bytes).unique h]
    exact decode?_encode bytes

end Reading

end ClusterControl.Base64
