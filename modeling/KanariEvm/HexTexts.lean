import KanariEvm.HexDecode

namespace KanariEvm

theorem utf8_append (s t : List Char) : utf8 (s ++ t) = utf8 s ++ utf8 t := List.flatMap_append

theorem utf8_cons (c : Char) (rest : List Char) :
    utf8 (c :: rest) = (String.utf8EncodeChar c).map (·.toBitVec) ++ utf8 rest := List.flatMap_cons

theorem utf8_cons_of_lt {c : Char} (h : c.toNat < 0x80) (rest : List Char) :
    utf8 (c :: rest) = BitVec.ofNat 8 c.toNat :: utf8 rest := by
  have hencode : String.utf8EncodeChar c = [UInt8.ofNat c.toNat] := by
    have hle : c.val.toNat ≤ 0x7f := Nat.le_of_lt_succ h
    simp only [String.utf8EncodeChar, if_pos hle]
    rfl
  rw [utf8_cons, hencode]
  rfl

theorem utf8_eq_cons {t : List Char} {b : U8} {rest : Bytes} (h : utf8 t = b :: rest)
    (hb : b.toNat < 0x80) : ∃ c t', t = c :: t' ∧ rest = utf8 t' ∧ c.toNat = b.toNat := by
  cases t with
  | nil => cases h
  | cons c t' =>
    refine ⟨c, t', rfl, ?_⟩
    have hval : c.val.toNat = c.toNat := rfl
    rw [utf8_cons] at h
    simp only [String.utf8EncodeChar] at h
    -- a longer character starts with a byte of at least 0xc0
    split_ifs at h with hone htwo hthree
    all_goals
      simp only [List.map_cons, List.map_nil, List.cons_append, List.nil_append,
        List.cons.injEq] at h
      obtain ⟨rfl, hrest⟩ := h
      simp only [UInt8.toBitVec_ofNat', BitVec.toNat_ofNat] at hb ⊢
    · exact ⟨hrest.symm, by omega⟩
    · omega
    · omega
    · omega

theorem hexValue_lt {b : U8} {d : ℕ} (h : hexValue b = some d) : d < 16 := by
  simp only [hexValue] at h
  split_ifs at h <;> cases h <;> omega

theorem toNat_lt_of_hexValue {b : U8} {d : ℕ} (h : hexValue b = some d) : b.toNat < 0x80 := by
  simp only [hexValue] at h
  split_ifs at h <;> omega

theorem hexDigitsValue_append (acc : ℕ) (xs ys : Bytes) :
    hexDigitsValue acc (xs ++ ys) = (hexDigitsValue acc xs).bind fun n => hexDigitsValue n ys := by
  induction xs generalizing acc with
  | nil => rfl
  | cons x xs ih =>
    simp only [List.cons_append, hexDigitsValue]
    cases hexValue x with
    | none => rfl
    | some d => exact ih (16 * acc + d)

theorem hexDigit_of_mem {acc n : ℕ} {digits : List Char}
    (h : hexDigitsValue acc (utf8 digits) = some n) :
    ∀ c ∈ digits, ∃ acc' m, hexDigitsValue acc' (utf8 [c]) = some m := by
  induction digits generalizing acc with
  | nil => simp
  | cons c rest ih =>
    rw [← List.singleton_append, utf8_append, hexDigitsValue_append] at h
    obtain ⟨m, hc, hrest⟩ := Option.bind_eq_some_iff.mp h
    intro c' hc'
    rcases List.mem_cons.mp hc' with rfl | hmem
    · exact ⟨acc, m, hc⟩
    · exact ih hrest c' hmem

/-- A text of hex digits has neither the letter of a prefix nor an underscore or a sign. -/
theorem ne_of_hexDigits {acc n : ℕ} {digits : List Char}
    (h : hexDigitsValue acc (utf8 digits) = some n) :
    ∀ c ∈ digits, c ≠ 'x' ∧ c ≠ 'X' ∧ c ≠ '_' ∧ c ≠ '+' := by
  intro c hc
  obtain ⟨acc', m, hdigit⟩ := hexDigit_of_mem h c hc
  refine ⟨?_, ?_, ?_, ?_⟩
  all_goals
    rintro rfl
    simp [utf8, hexDigitsValue, hexValue, String.utf8EncodeChar] at hdigit

theorem hexValue_digitChar : ∀ d < 16,
    utf8 [Nat.digitChar d] = [BitVec.ofNat 8 (Nat.digitChar d).toNat] ∧
      hexValue (BitVec.ofNat 8 (Nat.digitChar d).toNat) = some d := by decide

theorem hexValue_hexDigit : ∀ d < 16,
    utf8 [hexDigit d] = [BitVec.ofNat 8 (hexDigit d).toNat] ∧
      hexValue (BitVec.ofNat 8 (hexDigit d).toNat) = some d := by decide

theorem trimStart0x_of_ne {s : List Char} (h : ∀ c ∈ s, c ≠ 'x') : trimStart0x s = s := by
  unfold trimStart0x
  split
  · rename_i rest
    exact absurd rfl (h 'x' (by simp))
  · rfl

/-- The prefix that is stripped once is the first of those that are stripped as often as they
repeat, unless it is in upper case. -/
theorem trimStart0x_stripHexPrefix {s : List Char} (h : 'X' ∉ trimStart0x s) :
    trimStart0x (stripHexPrefix s) = trimStart0x s := by
  unfold stripHexPrefix
  split
  · rw [trimStart0x]
  · rename_i rest
    have hupper : trimStart0x ('0' :: 'X' :: rest) = '0' :: 'X' :: rest := by
      unfold trimStart0x
      split
      · rename_i heq
        cases heq
      · rfl
    rw [hupper] at h
    simp at h
  · rfl

theorem filter_digits {digits : List Char} {acc n : ℕ}
    (h : hexDigitsValue acc (utf8 digits) = some n) :
    digits.filter (· ≠ '_') = digits ∧ digits.filter (· ≠ '+') = digits := by
  refine ⟨List.filter_eq_self.mpr ?_, List.filter_eq_self.mpr ?_⟩
  · intro c hc
    simpa using (ne_of_hexDigits h c hc).2.2.1
  · intro c hc
    simpa using (ne_of_hexDigits h c hc).2.2.2

theorem trimStart0x_prefixed {digits : List Char} {acc n : ℕ}
    (h : hexDigitsValue acc (utf8 digits) = some n) :
    trimStart0x ('0' :: 'x' :: digits) = digits := by
  rw [trimStart0x]
  exact trimStart0x_of_ne fun c hc => (ne_of_hexDigits h c hc).1

theorem fits_eq_some_iff {w : ℕ} {v : BitVec w} {value : Option ℕ} :
    (value.bind fun n => if n < 2 ^ w then some (BitVec.ofNat w n) else none) = some v ↔
      value = some v.toNat := by
  rw [Option.bind_eq_some_iff]
  constructor
  · rintro ⟨n, rfl, hfits⟩
    split_ifs at hfits with hlt
    cases hfits
    rw [BitVec.toNat_ofNat, Nat.mod_eq_of_lt hlt]
  · rintro rfl
    exact ⟨v.toNat, rfl, by rw [if_pos v.isLt, BitVec.ofNat_toNat, BitVec.setWidth_eq]⟩

/-- Some digits, behind a sign or not, are read for what they say if that fits. -/
theorem fromStrRadix16_eq_some_iff {w : ℕ} {src : Bytes} {v : BitVec w} :
    fromStrRadix16 w src = some v ↔ ∃ digits, digits ≠ [] ∧ (src = digits ∨ src = 0x2b :: digits) ∧
      hexDigitsValue 0 digits = some v.toNat := by
  unfold fromStrRadix16
  split
  · rename_i rest
    constructor
    · intro h
      simp only at h
      split_ifs at h with hne
      exact ⟨rest, hne, .inr rfl, fits_eq_some_iff.mp h⟩
    · rintro ⟨digits, hne, rfl | hcons, h⟩
      · -- a sign is no digit
        rw [hexDigitsValue] at h
        cases h
      · cases hcons
        simp only [if_neg hne]
        exact fits_eq_some_iff.mpr h
  · rename_i hplus
    constructor
    · intro h
      simp only at h
      split_ifs at h with hne
      exact ⟨src, hne, .inl rfl, fits_eq_some_iff.mp h⟩
    · rintro ⟨digits, hne, rfl | hcons, h⟩
      · simp only [if_neg hne]
        exact fits_eq_some_iff.mpr h
      · exact absurd hcons (hplus digits)

theorem utf8_ne_nil {s : List Char} (h : s ≠ []) : utf8 s ≠ [] := by
  intro hnil
  obtain ⟨c, hc⟩ := List.exists_mem_of_ne_nil s h
  have hempty := List.flatMap_eq_nil_iff.mp hnil c hc
  simp [String.utf8EncodeChar_ne_nil] at hempty

theorem fromStrRadix16_of_value {w : ℕ} {v : BitVec w} {digits : List Char} (hne : digits ≠ [])
    (h : hexDigitsValue 0 (utf8 digits) = some v.toNat) :
    fromStrRadix16 w (utf8 digits) = some v :=
  fromStrRadix16_eq_some_iff.mpr ⟨utf8 digits, utf8_ne_nil hne, .inl rfl, h⟩

theorem hexDigitsValue_toDigits (n : ℕ) :
    hexDigitsValue 0 (utf8 (Nat.toDigits 16 n)) = some n := by
  induction n using Nat.strong_induction_on with
  | _ n ih =>
    obtain ⟨hbyte, hvalue⟩ := hexValue_digitChar (n % 16) (Nat.mod_lt n (by decide))
    rw [toDigits_last, utf8_append, hexDigitsValue_append, hbyte]
    split_ifs with hn
    · simp only [utf8, List.flatMap_nil, hexDigitsValue, hvalue, Option.bind_some]
      congr 1
      omega
    · rw [ih (n / 16) (by omega)]
      simp only [hexDigitsValue, hvalue, Option.bind_some]
      congr 1
      omega

theorem hexDigitsValue_hexFixed {w n : ℕ} (h : n < 16 ^ w) :
    hexDigitsValue 0 (utf8 (hexFixed w n)) = some n := by
  induction w generalizing n with
  | zero =>
    rw [pow_zero] at h
    rw [show n = 0 by omega]
    rfl
  | succ w ih =>
    obtain ⟨hbyte, hvalue⟩ := hexValue_hexDigit (n % 16) (Nat.mod_lt n (by decide))
    rw [pow_succ] at h
    rw [hexFixed, utf8_append, hexDigitsValue_append, hbyte, ih (by omega)]
    simp only [hexDigitsValue, hvalue, Option.bind_some]
    congr 1
    omega

theorem mem_hexFixed {w n : ℕ} {c : Char} (h : c ∈ hexFixed w n) : ∃ d < 16, c = hexDigit d := by
  induction w generalizing n with
  | zero => cases h
  | succ w ih =>
    rcases List.mem_append.mp h with hfront | hlast
    · exact ih hfront
    · exact ⟨n % 16, Nat.mod_lt n (by decide), List.mem_singleton.mp hlast⟩

theorem trim_of_ne {s : List Char} (h : ∀ c ∈ s, isWhitespace c = false) : trim s = s := by
  have hdrop : s.dropWhile isWhitespace = s := by
    cases s with
    | nil => rfl
    | cons c rest => rw [List.dropWhile_cons, h c List.mem_cons_self, if_neg Bool.false_ne_true]
  rw [trim, hdrop, List.rdropWhile_eq_self_iff]
  intro hne
  rw [h _ (List.getLast_mem hne)]
  exact Bool.false_ne_true

theorem hexDigit_plain : ∀ d < 16, hexDigit d ≠ 'x' ∧ isWhitespace (hexDigit d) = false := by
  decide

theorem mem_hexEncode {bytes : Bytes} {c : Char} (h : c ∈ hexEncode bytes) :
    ∃ d < 16, c = hexDigit d := by
  obtain ⟨b, _, hc⟩ := List.mem_flatMap.mp h
  have hlt := b.isLt
  rcases List.mem_cons.mp hc with rfl | hc
  · exact ⟨b.toNat / 16, by omega, rfl⟩
  · exact ⟨b.toNat % 16, by omega, List.mem_singleton.mp hc⟩

theorem utf8_hexEncode_cons (b : U8) (rest : Bytes) : utf8 (hexEncode (b :: rest)) =
    BitVec.ofNat 8 (hexDigit (b.toNat / 16)).toNat ::
      BitVec.ofNat 8 (hexDigit (b.toNat % 16)).toNat :: utf8 (hexEncode rest) := by
  have hlt := b.isLt
  have hhi := (hexValue_hexDigit (b.toNat / 16) (by omega)).1
  have hlo := (hexValue_hexDigit (b.toNat % 16) (by omega)).1
  rw [hexEncode, List.flatMap_cons, utf8_append, ← List.singleton_append, utf8_append, hhi, hlo]
  rfl

theorem fromStrRadix16_pair (b : U8) :
    fromStrRadix16 8 [BitVec.ofNat 8 (hexDigit (b.toNat / 16)).toNat,
      BitVec.ofNat 8 (hexDigit (b.toNat % 16)).toNat] = some b := by
  have hlt := b.isLt
  have hhi := (hexValue_hexDigit (b.toNat / 16) (by omega)).2
  have hlo := (hexValue_hexDigit (b.toNat % 16) (by omega)).2
  refine fromStrRadix16_eq_some_iff.mpr ⟨_, List.cons_ne_nil _ _, .inl rfl, ?_⟩
  simp only [hexDigitsValue, hhi, hlo, Option.bind_some, Nat.mul_zero, Nat.zero_add,
    Nat.div_add_mod]

theorem hexDecodePairs_hexEncode (bytes : Bytes) :
    hexDecodePairs (utf8 (hexEncode bytes)) = .ok bytes := by
  induction bytes with
  | nil => rfl
  | cons b rest ih =>
    rw [utf8_hexEncode_cons, hexDecodePairs, fromStrRadix16_pair, ih]
    rfl

theorem utf8_hexEncode_length (bytes : Bytes) :
    (utf8 (hexEncode bytes)).length = 2 * bytes.length := by
  induction bytes with
  | nil => rfl
  | cons b rest ih =>
    rw [utf8_hexEncode_cons, List.length_cons, List.length_cons, ih, List.length_cons]
    omega

theorem trimStart0x_hexEncode (bytes : Bytes) :
    trimStart0x (hexEncode bytes) = hexEncode bytes := by
  apply trimStart0x_of_ne
  intro c hc
  obtain ⟨d, hd, rfl⟩ := mem_hexEncode hc
  exact (hexDigit_plain d hd).1

theorem isWhitespace_hexEncode {bytes : Bytes} : ∀ c ∈ hexEncode bytes, isWhitespace c = false := by
  intro c hc
  obtain ⟨d, hd, rfl⟩ := mem_hexEncode hc
  exact (hexDigit_plain d hd).2

theorem hexDecode_of_digits {bytes : Bytes} {text : List Char}
    (h : trimStart0x (trim text) = hexEncode bytes) : hexDecode text = .ok bytes := by
  have heven : ¬(utf8 (hexEncode bytes)).length % 2 ≠ 0 := by
    rw [utf8_hexEncode_length]
    omega
  simp only [hexDecode, h, if_neg heven]
  exact hexDecodePairs_hexEncode bytes

/-- What `hex_encode` wrote, `hex_decode` reads. -/
theorem hexDecode_hexEncode (bytes : Bytes) : hexDecode (hexEncode bytes) = .ok bytes := by
  apply hexDecode_of_digits
  rw [trim_of_ne isWhitespace_hexEncode, trimStart0x_hexEncode]

theorem hexDecode_hexPrefixed (bytes : Bytes) : hexDecode (hexPrefixed bytes) = .ok bytes := by
  apply hexDecode_of_digits
  have hplain : ∀ c ∈ hexPrefixed bytes, isWhitespace c = false := by
    intro c hc
    rcases List.mem_cons.mp hc with rfl | hc
    · decide
    rcases List.mem_cons.mp hc with rfl | hc
    · decide
    · exact isWhitespace_hexEncode c hc
  rw [trim_of_ne hplain, hexPrefixed, trimStart0x, trimStart0x_hexEncode]

theorem hexDecode32_eq_ok_iff {text : List Char} {bytes : Bytes} :
    hexDecode32 text = .ok bytes ↔ hexDecode text = .ok bytes ∧ bytes.length = 32 := by
  constructor
  · intro h
    obtain ⟨read, hread, hlen⟩ := bind_eq_ok h
    by_cases h32 : read.length = 32
    · rw [if_pos h32] at hlen
      cases hlen
      exact ⟨hread, h32⟩
    · rw [if_neg h32] at hlen
      cases hlen
  · rintro ⟨hread, hlen⟩
    simp only [hexDecode32, hread, bind, Except.bind, if_pos hlen]
    rfl

theorem hexDecode32_of_hexDecode {text : List Char} {bytes : Bytes} (h : hexDecode text = .ok bytes)
    (read : Bytes) : hexDecode32 text = .ok read ↔ read = bytes ∧ bytes.length = 32 := by
  rw [hexDecode32_eq_ok_iff, h, Except.ok.injEq]
  constructor
  · rintro ⟨rfl, hlen⟩
    exact ⟨rfl, hlen⟩
  · rintro ⟨rfl, hlen⟩
    exact ⟨rfl, hlen⟩

end KanariEvm
