import KanariEvm.CallParams

namespace KanariEvm

theorem parseU64_of_value {v : U64} {digits : List Char} (hne : digits ≠ [])
    (h : hexDigitsValue 0 (utf8 digits) = some v.toNat) :
    parseU64 (.str ('0' :: 'x' :: digits)) = .ok v := by
  simp only [parseU64, Json.asStr, trimStart0x_prefixed h, fromStrRadix16_of_value hne h]

theorem parseU256_of_value {v : U256} {digits : List Char}
    (h : hexDigitsValue 0 (utf8 digits) = some v.toNat) :
    parseU256 (.str ('0' :: 'x' :: digits)) = .ok v := by
  simp only [parseU256, Json.asStr, trimStart0x_prefixed h, uintFromStrRadix16_of_value h]

def IsHexDigit (c : Char) : Prop := ∃ d < 16, c = hexDigit d

theorem digitChar_eq_hexDigit : ∀ d < 16, Nat.digitChar d = hexDigit d := by decide

theorem digitChar_eq_zero : ∀ d < 16, Nat.digitChar d = '0' → d = 0 := by decide

theorem isHexDigit_of_mem_toDigits {n : ℕ} {c : Char} (h : c ∈ Nat.toDigits 16 n) :
    IsHexDigit c := by
  induction n using Nat.strong_induction_on with
  | _ n ih =>
    rw [toDigits_last] at h
    rcases List.mem_append.mp h with hfront | hlast
    · by_cases hn : n < 16
      · rw [if_pos hn] at hfront
        cases hfront
      · rw [if_neg hn] at hfront
        exact ih (n / 16) (by omega) hfront
    · refine ⟨n % 16, Nat.mod_lt n (by decide), ?_⟩
      rw [List.mem_singleton.mp hlast, digitChar_eq_hexDigit _ (Nat.mod_lt n (by decide))]

theorem toDigits_head_eq_zero_iff (n : ℕ) : (Nat.toDigits 16 n).head? = some '0' ↔ n = 0 := by
  induction n using Nat.strong_induction_on with
  | _ n ih =>
    rw [toDigits_last]
    by_cases hn : n < 16
    · rw [if_pos hn, List.nil_append, List.head?_cons, Option.some.injEq, Nat.mod_eq_of_lt hn]
      constructor
      · exact digitChar_eq_zero n hn
      · rintro rfl
        rfl
    · -- the sixteenth is not zero either, and its first digit stays the first
      rw [if_neg hn, List.head?_append_of_ne_nil _ Nat.toDigits_ne_nil, ih (n / 16) (by omega)]
      omega

theorem hexDigit_ne_colon : ∀ d < 16, hexDigit d ≠ ':' := by decide

theorem utf8_hexFixed_length (w n : ℕ) : (utf8 (hexFixed w n)).length = w := by
  induction w generalizing n with
  | zero => rfl
  | succ w ih =>
    rw [hexFixed, utf8_append, List.length_append, ih,
      (hexValue_hexDigit _ (Nat.mod_lt n (by decide))).1]
    rfl

/-- A slot that is spelled out, address and slot in hex behind their prefixes, is read back. -/
theorem parseSlot_spelled (a : Address) (slot : U256) :
    parseSlot ('0' :: 'x' :: hexFixed 40 a.toNat ++ ':' :: quantity slot) = .ok ⟨a, slot⟩ := by
  have hvalue := hexDigitsValue_hexFixed (w := 40) (show a.toNat < 16 ^ 40 from a.isLt)
  have hplain : ∀ c ∈ '0' :: 'x' :: hexFixed 40 a.toNat, c ≠ ':' ∧ isWhitespace c = false := by
    simp only [List.mem_cons, forall_eq_or_imp]
    refine ⟨by decide, by decide, fun c hc => ?_⟩
    obtain ⟨d, hd, rfl⟩ := mem_hexFixed hc
    exact ⟨hexDigit_ne_colon d hd, (hexDigit_plain d hd).2⟩
  have hquantity : ∀ c ∈ quantity slot, isWhitespace c = false := by
    simp only [quantity, List.mem_cons, forall_eq_or_imp]
    refine ⟨by decide, by decide, fun c hc => ?_⟩
    obtain ⟨d, hd, rfl⟩ := isHexDigit_of_mem_toDigits hc
    exact (hexDigit_plain d hd).2
  have hsplit : ∀ c ∈ '0' :: 'x' :: hexFixed 40 a.toNat, decide (c ≠ ':') = true :=
    fun c hc => decide_eq_true (hplain c hc).1
  have haddr : fromHexFixed 160 (trim ('0' :: 'x' :: hexFixed 40 a.toNat)) = some a := by
    rw [trim_of_ne fun c hc => (hplain c hc).2]
    simp only [fromHexFixed, stripHexPrefix, utf8_hexFixed_length, if_pos, hvalue, Option.map_some,
      BitVec.ofNat_toNat, BitVec.setWidth_eq]
  have hslot : uintFromStrRadix16 256 (trimStart0x (trim (quantity slot))) = some slot := by
    have hdigits := hexDigitsValue_toDigits slot.toNat
    rw [trim_of_ne hquantity, quantity, trimStart0x_prefixed hdigits]
    exact uintFromStrRadix16_of_value hdigits
  have htake : ('0' :: 'x' :: hexFixed 40 a.toNat ++ ':' :: quantity slot).takeWhile (· ≠ ':') =
      '0' :: 'x' :: hexFixed 40 a.toNat := by
    rw [List.takeWhile_append_of_pos hsplit, List.takeWhile_cons_of_neg (by decide),
      List.append_nil]
  have hdrop : ('0' :: 'x' :: hexFixed 40 a.toNat ++ ':' :: quantity slot).dropWhile (· ≠ ':') =
      ':' :: quantity slot := by
    rw [List.dropWhile_append_of_pos hsplit, List.dropWhile_cons_of_neg (by decide)]
  have hcolon : ':' ∈ '0' :: 'x' :: hexFixed 40 a.toNat ++ ':' :: quantity slot := by simp
  rw [parseSlot, if_neg (not_not.mpr hcolon)]
  simp only [htake, hdrop, List.tail_cons, haddr, hslot]

theorem toNat_lt_pow (v : U256) : v.toNat < 16 ^ 64 := v.isLt

/-- What is written on the wire is read back: byte strings with and without a prefix, and where 32
bytes are asked for exactly if there are 32; quantities of 64 and of 256 bits; and storage words.
A quantity starts with a zero digit only if it is zero, and a storage word has all of its 64
digits. -/
theorem renderings_parse_back :
    (∀ bytes : Bytes,
      hexDecode (hexEncode bytes) = .ok bytes ∧ hexDecode (hexPrefixed bytes) = .ok bytes ∧
      (∀ read, hexDecode32 (hexEncode bytes) = .ok read ↔ read = bytes ∧ bytes.length = 32) ∧
      ∀ read, hexDecode32 (hexPrefixed bytes) = .ok read ↔ read = bytes ∧ bytes.length = 32) ∧
    (∀ v : U64, parseU64 (.str (quantity v)) = .ok v) ∧
    (∀ v : U256, parseU256 (.str (quantity v)) = .ok v ∧ parseU256 (.str (bytes32Hex v)) = .ok v) ∧
    (∀ (w : ℕ) (v : BitVec w), ∃ digits, quantity v = '0' :: 'x' :: digits ∧
      digits ≠ [] ∧ (∀ c ∈ digits, IsHexDigit c) ∧ (digits.head? = some '0' ↔ v = 0) ∧
      (v = 0 → digits = ['0'])) ∧
    ∀ v : U256, ∃ digits, bytes32Hex v = '0' :: 'x' :: digits ∧
      digits.length = 64 ∧ ∀ c ∈ digits, IsHexDigit c := by
  refine ⟨fun bytes => ?_, fun v => ?_, fun v => ⟨?_, ?_⟩, fun w v => ?_, fun v => ?_⟩
  · have hplain := hexDecode_hexEncode bytes
    have hprefixed := hexDecode_hexPrefixed bytes
    exact ⟨hplain, hprefixed, hexDecode32_of_hexDecode hplain, hexDecode32_of_hexDecode hprefixed⟩
  · exact parseU64_of_value Nat.toDigits_ne_nil (hexDigitsValue_toDigits v.toNat)
  · exact parseU256_of_value (hexDigitsValue_toDigits v.toNat)
  · exact parseU256_of_value (hexDigitsValue_hexFixed (toNat_lt_pow v))
  · have hzero : v.toNat = 0 ↔ v = 0 := by
      rw [← BitVec.toNat_inj, BitVec.ofNat_eq_ofNat, BitVec.toNat_ofNat, Nat.zero_mod]
    refine ⟨Nat.toDigits 16 v.toNat, rfl, Nat.toDigits_ne_nil,
      fun c hc => isHexDigit_of_mem_toDigits hc, ?_, ?_⟩
    · rw [toDigits_head_eq_zero_iff, hzero]
    · intro hv
      rw [hzero.mpr hv]
      rfl
  · exact ⟨hexFixed 64 v.toNat, rfl, hexFixed_length 64 v.toNat, fun c hc => mem_hexFixed hc⟩

end KanariEvm
