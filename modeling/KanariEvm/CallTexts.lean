import KanariEvm.CallParams

namespace KanariEvm

/-- The number that the hex digits of a text spell, prefixes, signs and underscores aside. -/
def denoted (text : List Char) : Option ℕ :=
  hexDigitsValue 0
    (utf8 (((trimStart0x (stripHexPrefix text)).filter (· ≠ '_')).filter (· ≠ '+')))

/-- The text spells the bytes, in either case and with or without a prefix. -/
def Spells (text : List Char) (bytes : Bytes) : Prop :=
  ∃ digits, (text = digits ∨ text = '0' :: 'x' :: digits ∨ text = '0' :: 'X' :: digits) ∧
    digits.map Char.toLower = hexEncode bytes

theorem hexValue_char : ∀ n < 0x80, ∀ d, hexValue (BitVec.ofNat 8 n) = some d →
    d < 16 ∧ (Char.ofNat n).toLower = hexDigit d := by
  have h : ∀ n < 0x80, (hexValue (BitVec.ofNat 8 n)).all fun d =>
      decide (d < 16) && ((Char.ofNat n).toLower == hexDigit d) := by decide +kernel
  intro n hn d hd
  have := h n hn
  rw [hd] at this
  simpa using this

theorem utf8_eq_hexDigit_cons {t : List Char} {b : U8} {rest : Bytes} {d : ℕ}
    (h : utf8 t = b :: rest) (hd : hexValue b = some d) :
    ∃ c t', t = c :: t' ∧ rest = utf8 t' ∧ d < 16 ∧ c.toLower = hexDigit d := by
  have hlt := toNat_lt_of_hexValue hd
  obtain ⟨c, t', ht, hrest, hc⟩ := utf8_eq_cons h hlt
  have hb : (BitVec.ofNat 8 b.toNat : U8) = b := by simp
  have hchar := hexValue_char b.toNat hlt d (by rw [hb]; exact hd)
  rw [← hc, Char.ofNat_toNat] at hchar
  exact ⟨c, t', ht, hrest, hchar.1, hchar.2⟩

theorem spells_of_hexPairs {bytes bs : Bytes} {digits : List Char} (hu : utf8 digits = bs)
    (h : hexPairs bs = some bytes) : digits.map Char.toLower = hexEncode bytes := by
  induction bs using hexPairs.induct generalizing bytes digits with
  | case1 =>
    cases digits with
    | nil =>
      rw [hexPairs] at h
      cases h
      rfl
    | cons c rest =>
      exact absurd hu (utf8_ne_nil (List.cons_ne_nil c rest))
  | case2 b =>
    rw [hexPairs] at h
    cases h
  | case3 hi lo rest ih =>
    simp only [hexPairs, Option.bind_eq_bind, Option.bind_eq_some_iff] at h
    obtain ⟨dh, hdh, dl, hdl, bytes', hrest, hbytes⟩ := h
    obtain ⟨c, t', rfl, ht', hlt, hc⟩ := utf8_eq_hexDigit_cons hu hdh
    obtain ⟨c', t'', rfl, ht'', hlt', hc'⟩ := utf8_eq_hexDigit_cons ht'.symm hdl
    cases hbytes
    have hb : (BitVec.ofNat 8 (16 * dh + dl) : U8).toNat = 16 * dh + dl := by
      rw [BitVec.toNat_ofNat]
      exact Nat.mod_eq_of_lt (by omega)
    have hdiv : (16 * dh + dl) / 16 = dh := by omega
    have hmod : (16 * dh + dl) % 16 = dl := by omega
    have htail := ih ht''.symm hrest
    simp only [hexEncode, List.flatMap_cons, List.map_cons, hb, hdiv, hmod, hc, hc'] at htail ⊢
    rw [htail]
    rfl

theorem spells_of_parseBytes {v : Json} {bytes : Bytes} (h : parseBytes v = .ok bytes) :
    ∃ s, v = .str s ∧ Spells s bytes := by
  unfold parseBytes at h
  split at h
  · rename_i bytes' hsome
    cases h
    obtain ⟨s, hs, hbytes⟩ := Option.bind_eq_some_iff.mp hsome
    refine ⟨s, eq_str_of_asStr hs, ?_⟩
    unfold bytesFromStr stripHexPrefix at hbytes
    split at hbytes
    · rename_i rest
      exact ⟨rest, .inr (.inl rfl), spells_of_hexPairs rfl hbytes⟩
    · rename_i rest
      exact ⟨rest, .inr (.inr rfl), spells_of_hexPairs rfl hbytes⟩
    · exact ⟨s, .inl rfl, spells_of_hexPairs rfl hbytes⟩
  · cases h

theorem hexDigitsValue_lt {acc n : ℕ} {bs : Bytes} (h : hexDigitsValue acc bs = some n) :
    n < (acc + 1) * 16 ^ bs.length := by
  induction bs generalizing acc with
  | nil =>
    cases h
    simp
  | cons b bs ih =>
    obtain ⟨d, hd, hrest⟩ := Option.bind_eq_some_iff.mp h
    have hlt := ih hrest
    have hd16 := hexValue_lt hd
    calc n < (16 * acc + d + 1) * 16 ^ bs.length := hlt
      _ ≤ ((acc + 1) * 16) * 16 ^ bs.length := Nat.mul_le_mul_right _ (by omega)
      _ = (acc + 1) * 16 ^ (b :: bs).length := by rw [List.length_cons, pow_succ]; ring

theorem denoted_of_parseU256 {v : Json} {n : U256} (h : parseU256 v = .ok n) :
    ∃ s, v = .str s ∧ denoted s = some n.toNat := by
  unfold parseU256 at h
  split at h
  · cases h
  · rename_i s hs
    refine ⟨s, eq_str_of_asStr hs, ?_⟩
    split at h
    · rename_i m hm
      cases h
      have hk := fits_eq_some_iff.mp hm
      have hupper : 'X' ∉ trimStart0x s := fun hmem =>
        (ne_of_hexDigits hk 'X' (List.mem_filter.mpr ⟨hmem, by decide⟩)).2.1 rfl
      rw [denoted, trimStart0x_stripHexPrefix hupper, (filter_digits hk).2, hk]
    · cases h

theorem denoted_of_parseU64 {v : Json} {n : U64} (h : parseU64 v = .ok n) :
    ∃ s, v = .str s ∧ denoted s = some n.toNat := by
  unfold parseU64 at h
  split at h
  · cases h
  · rename_i s hs
    refine ⟨s, eq_str_of_asStr hs, ?_⟩
    split at h
    · rename_i m hm
      cases h
      obtain ⟨digits, -, hdigits | hplus, hk⟩ := fromStrRadix16_eq_some_iff.mp hm
      · rw [← hdigits] at hk
        have hupper : 'X' ∉ trimStart0x s := fun hmem => (ne_of_hexDigits hk 'X' hmem).2.1 rfl
        rw [denoted, trimStart0x_stripHexPrefix hupper, (filter_digits hk).1,
          (filter_digits hk).2, hk]
      · -- a leading plus sign
        obtain ⟨c, t', ht, rfl, hc⟩ := utf8_eq_cons hplus (by decide)
        have hcplus : c = '+' := by
          rw [← Char.ofNat_toNat c, hc]
          decide
        have hupper : 'X' ∉ trimStart0x s := by
          rw [ht, hcplus]
          rintro (_ | ⟨_, hmem⟩)
          exact (ne_of_hexDigits hk 'X' hmem).2.1 rfl
        rw [denoted, trimStart0x_stripHexPrefix hupper, ht, hcplus, List.filter_cons,
          if_pos (by decide), (filter_digits hk).1, List.filter_cons, if_neg (by decide),
          (filter_digits hk).2, hk]
    · cases h

theorem denoted_of_parseAddress {v : Json} {a : Address} (h : parseAddress v = .ok a) :
    ∃ s, v = .str s ∧ denoted s = some a.toNat := by
  unfold parseAddress at h
  split at h
  · rename_i a' hsome
    cases h
    obtain ⟨s, hs, haddr⟩ := Option.bind_eq_some_iff.mp hsome
    refine ⟨s, eq_str_of_asStr hs, ?_⟩
    simp only [fromHexFixed] at haddr
    split_ifs at haddr with hlen
    obtain ⟨k, hk, rfl⟩ := Option.map_eq_some_iff.mp haddr
    have hlt := hexDigitsValue_lt hk
    rw [hlen, Nat.zero_add, Nat.one_mul] at hlt
    have hplain : trimStart0x (stripHexPrefix s) = stripHexPrefix s :=
      trimStart0x_of_ne fun c hc => (ne_of_hexDigits hk c hc).1
    rw [denoted, hplain, (filter_digits hk).1, (filter_digits hk).2, hk,
      BitVec.toNat_ofNat, Nat.mod_eq_of_lt (by omega)]
  · cases h

end KanariEvm
