import KanariEvm.HexTexts

namespace KanariEvm

def HexDigit (c : Char) (x : ℕ) : Prop :=
  "0123456789abcdef".toList[x]? = some c ∨ "0123456789ABCDEF".toList[x]? = some c

/-- Two characters a byte: a hex digit, and before it what `lead` lets stand there. -/
inductive Pairs (lead : Char → ℕ → Prop) : List Char → Bytes → Prop
  | nil : Pairs lead [] []
  | cons {c d : Char} {x y : ℕ} {rest : List Char} {bytes : Bytes} (hc : lead c x)
      (hd : HexDigit d y) (h : Pairs lead rest bytes) :
      Pairs lead (c :: d :: rest) (BitVec.ofNat 8 (16 * x + y) :: bytes)

/-- Between whitespace, at most one prefix and then pairs of hex digits that denote the bytes. -/
def InGrammar (hex : List Char) (bytes : Bytes) : Prop :=
  ∃ digits, (trim hex = digits ∨ trim hex = '0' :: 'x' :: digits) ∧ Pairs HexDigit digits bytes

def without0x : List Char → List Char
  | '0' :: 'x' :: rest => rest
  | s => s

/-- `hex_decode` accepts the text for what the grammar says, and complains about its length exactly
if that is odd. -/
def FollowsGrammar (hex : List Char) : Prop :=
  (∀ bytes, hexDecode hex = .ok bytes ↔ InGrammar hex bytes) ∧
    (hexDecode hex = .error .oddLength ↔ (utf8 (without0x (trim hex))).length % 2 = 1)

def IsDigit (c : Char) : Prop := ∃ x, HexDigit c x

def SignedPairs : List Char → Prop
  | [] => True
  | [_] => False
  | c :: d :: rest => (c = '+' ∨ IsDigit c) ∧ IsDigit d ∧ SignedPairs rest

def RepeatsPrefix (s : List Char) : Prop := ∃ rest, s = '0' :: 'x' :: '0' :: 'x' :: rest

/-- What a general integer parser and a repeated stripping let through: after every prefix come
pairs that can have a sign, and there is such a sign or more than one prefix. -/
def Lenient (hex : List Char) : Prop :=
  SignedPairs (trimStart0x (trim hex)) ∧
    ('+' ∈ trimStart0x (trim hex) ∨ RepeatsPrefix (trim hex))

/-- A digit, or the sign that `from_str_radix` skips. -/
def SignOrDigit (c : Char) (x : ℕ) : Prop := HexDigit c x ∨ c = '+' ∧ x = 0

theorem hexValue_of_hexDigit {c : Char} {x : ℕ} (h : HexDigit c x) :
    c.toNat < 0x80 ∧ hexValue (BitVec.ofNat 8 c.toNat) = some x := by
  have htables : ∀ x < 16, ∀ table ∈ ["0123456789abcdef".toList, "0123456789ABCDEF".toList],
      table.length = 16 ∧ table[x]?.all fun c =>
        decide (c.toNat < 0x80) && hexValue (BitVec.ofNat 8 c.toNat) == some x := by decide +kernel
  have hread : ∀ table ∈ ["0123456789abcdef".toList, "0123456789ABCDEF".toList],
      table[x]? = some c → c.toNat < 0x80 ∧ hexValue (BitVec.ofNat 8 c.toNat) = some x := by
    intro table hmem hx
    have hlen := (htables 0 (by decide) table hmem).1
    have hlt := (List.getElem?_eq_some_iff.mp hx).1
    have hall := (htables x (by omega) table hmem).2
    rw [hx] at hall
    simpa using hall
  rcases h with h | h
  · exact hread _ (by simp) h
  · exact hread _ (by simp) h

theorem hexDigit_of_hexValue {c : Char} {a : U8} {x : ℕ} (hc : c.toNat = a.toNat)
    (h : hexValue a = some x) : HexDigit c x := by
  have htables : ∀ n < 0x80, (hexValue (BitVec.ofNat 8 n)).all fun x =>
      "0123456789abcdef".toList[x]? == some (Char.ofNat n) ||
        "0123456789ABCDEF".toList[x]? == some (Char.ofNat n) := by decide +kernel
  have hall := htables a.toNat (toNat_lt_of_hexValue h)
  rw [BitVec.ofNat_toNat, BitVec.setWidth_eq, h, ← hc, Char.ofNat_toNat] at hall
  simpa [HexDigit] using hall

theorem fromStrRadix16_chunk {a b byte : U8} : fromStrRadix16 8 [a, b] = some byte ↔
    ∃ x y, (hexValue a = some x ∨ a = 0x2b ∧ x = 0) ∧ hexValue b = some y ∧
      byte = BitVec.ofNat 8 (16 * x + y) := by
  rw [fromStrRadix16_eq_some_iff]
  constructor
  · rintro ⟨digits, -, rfl | hplus, h⟩
    · obtain ⟨x, hx, hrest⟩ := Option.bind_eq_some_iff.mp h
      obtain ⟨y, hy, hsum⟩ := Option.bind_eq_some_iff.mp hrest
      refine ⟨x, y, .inl hx, hy, BitVec.eq_of_toNat_eq ?_⟩
      have hlt := byte.isLt
      have hbyte := Option.some.inj hsum
      rw [BitVec.toNat_ofNat]
      omega
    · cases hplus
      obtain ⟨y, hy, hsum⟩ := Option.bind_eq_some_iff.mp h
      refine ⟨0, y, .inr ⟨rfl, rfl⟩, hy, BitVec.eq_of_toNat_eq ?_⟩
      have hlt := byte.isLt
      have hbyte := Option.some.inj hsum
      rw [BitVec.toNat_ofNat]
      omega
  · rintro ⟨x, y, hlead, hy, rfl⟩
    have hy16 := hexValue_lt hy
    rcases hlead with hx | ⟨rfl, rfl⟩
    · have hx16 := hexValue_lt hx
      refine ⟨[a, b], List.cons_ne_nil _ _, .inl rfl, ?_⟩
      simp only [hexDigitsValue, hx, hy, Option.bind_some, Nat.mul_zero, Nat.zero_add,
        BitVec.toNat_ofNat]
      rw [Nat.mod_eq_of_lt (by omega)]
    · refine ⟨[b], List.cons_ne_nil _ _, .inr rfl, ?_⟩
      simp only [hexDigitsValue, hy, Option.bind_some, Nat.mul_zero, Nat.zero_add,
        BitVec.toNat_ofNat]
      rw [Nat.mod_eq_of_lt (by omega)]

theorem byte_of_signOrDigit {c : Char} {x : ℕ} (h : SignOrDigit c x) : c.toNat < 0x80 ∧
    (hexValue (BitVec.ofNat 8 c.toNat) = some x ∨
      BitVec.ofNat 8 c.toNat = (0x2b : U8) ∧ x = 0) := by
  rcases h with h | ⟨rfl, rfl⟩
  · exact ⟨(hexValue_of_hexDigit h).1, .inl (hexValue_of_hexDigit h).2⟩
  · exact ⟨by decide, .inr ⟨by decide, rfl⟩⟩

theorem signOrDigit_of_byte {c : Char} {x : ℕ} {a : U8} (hc : c.toNat = a.toNat)
    (h : hexValue a = some x ∨ a = 0x2b ∧ x = 0) : SignOrDigit c x := by
  rcases h with h | ⟨rfl, rfl⟩
  · exact .inl (hexDigit_of_hexValue hc h)
  · refine .inr ⟨?_, rfl⟩
    rw [← Char.ofNat_toNat c, hc]
    decide

theorem lead_lt {a : U8} {x : ℕ} (h : hexValue a = some x ∨ a = 0x2b ∧ x = 0) :
    a.toNat < 0x80 := by
  rcases h with h | ⟨rfl, rfl⟩
  · exact toNat_lt_of_hexValue h
  · decide

/-- The chunk loop reads pairs, with a digit or a sign in front of a digit. -/
theorem pairs_of_hexDecodePairs {bs bytes : Bytes} {text : List Char} (hu : utf8 text = bs)
    (h : hexDecodePairs bs = .ok bytes) : Pairs SignOrDigit text bytes := by
  induction bs using hexDecodePairs.induct generalizing text bytes with
  | case1 a b rest hnone =>
    rw [hexDecodePairs, hnone] at h
    cases h
  | case2 a b rest byte hbyte ih =>
    obtain ⟨x, y, hlead, hy, rfl⟩ := fromStrRadix16_chunk.mp hbyte
    -- both bytes are ASCII, so each is a character
    obtain ⟨c, text', rfl, hu', hc⟩ := utf8_eq_cons hu (lead_lt hlead)
    obtain ⟨d, rest', rfl, hrest, hd⟩ := utf8_eq_cons hu'.symm (toNat_lt_of_hexValue hy)
    rw [hexDecodePairs, hbyte] at h
    obtain ⟨tail, htail, rfl⟩ := map_eq_ok h
    exact .cons (signOrDigit_of_byte hc hlead) (hexDigit_of_hexValue hd hy)
      (ih hrest.symm htail)
  | case3 b =>
    rw [hexDecodePairs] at h
    cases h
  | case4 =>
    rw [hexDecodePairs] at h
    cases h
    by_cases hnil : text = []
    · rw [hnil]
      exact .nil
    · exact absurd hu (utf8_ne_nil hnil)

theorem hexDecodePairs_of_pairs {bytes : Bytes} {text : List Char}
    (h : Pairs SignOrDigit text bytes) : hexDecodePairs (utf8 text) = .ok bytes := by
  induction h with
  | nil => rfl
  | cons hc hd h ih =>
    obtain ⟨hclt, hlead⟩ := byte_of_signOrDigit hc
    obtain ⟨hdlt, hy⟩ := hexValue_of_hexDigit hd
    have hchunk := fromStrRadix16_chunk.mpr ⟨_, _, hlead, hy, rfl⟩
    rw [utf8_cons_of_lt hclt, utf8_cons_of_lt hdlt, hexDecodePairs, hchunk, ih]
    rfl

theorem even_of_pairs {text : List Char} {bytes : Bytes} (h : Pairs SignOrDigit text bytes) :
    (utf8 text).length % 2 = 0 := by
  induction h with
  | nil => rfl
  | cons hc hd h ih =>
    rw [utf8_cons_of_lt (byte_of_signOrDigit hc).1, utf8_cons_of_lt (hexValue_of_hexDigit hd).1,
      List.length_cons, List.length_cons]
    omega

theorem hexDecode_eq_ok_iff {hex : List Char} {bytes : Bytes} :
    hexDecode hex = .ok bytes ↔ Pairs SignOrDigit (trimStart0x (trim hex)) bytes := by
  simp only [hexDecode]
  split_ifs with hodd
  · constructor
    · intro h
      cases h
    · intro h
      exact absurd (even_of_pairs h) hodd
  · exact ⟨pairs_of_hexDecodePairs rfl, hexDecodePairs_of_pairs⟩

theorem hexDecodePairs_ne_oddLength (bs : Bytes) : hexDecodePairs bs ≠ .error .oddLength := by
  induction bs using hexDecodePairs.induct with
  | case1 a b rest hnone => simp [hexDecodePairs, hnone]
  | case2 a b rest byte hbyte ih =>
    rw [hexDecodePairs, hbyte]
    cases htail : hexDecodePairs rest with
    | error e =>
      rw [htail] at ih
      simpa [Except.map] using ih
    | ok tail => simp [Except.map]
  | case3 b => simp [hexDecodePairs]
  | case4 => simp [hexDecodePairs]

theorem utf8_0x (rest : List Char) : utf8 ('0' :: 'x' :: rest) = 0x30 :: 0x78 :: utf8 rest := rfl

theorem utf8_without0x_length (s : List Char) :
    (utf8 (without0x s)).length % 2 = (utf8 s).length % 2 := by
  unfold without0x
  split
  · rw [utf8_0x, List.length_cons, List.length_cons]
    omega
  · rfl

theorem utf8_trimStart0x_length (s : List Char) :
    (utf8 (trimStart0x s)).length % 2 = (utf8 s).length % 2 := by
  induction s using trimStart0x.induct with
  | case1 rest ih =>
    rw [trimStart0x, ih, utf8_0x, List.length_cons, List.length_cons]
    omega
  | case2 s hs =>
    rw [trimStart0x]
    exact hs

theorem hexDecode_eq_oddLength_iff (hex : List Char) : hexDecode hex = .error .oddLength ↔
    (utf8 (without0x (trim hex))).length % 2 = 1 := by
  rw [utf8_without0x_length, ← utf8_trimStart0x_length]
  simp only [hexDecode]
  split_ifs with hodd
  · simp only [true_iff]
    omega
  · constructor
    · intro h
      exact absurd h (hexDecodePairs_ne_oddLength _)
    · intro h
      omega

theorem hexDigit_ne {c : Char} {x : ℕ} (h : HexDigit c x) : c ≠ '+' ∧ c ≠ 'x' := by
  have hvalue := (hexValue_of_hexDigit h).2
  constructor
  · rintro rfl
    cases hvalue
  · rintro rfl
    cases hvalue

theorem pairs_hexDigit_iff {text : List Char} {bytes : Bytes} :
    Pairs HexDigit text bytes ↔ Pairs SignOrDigit text bytes ∧ '+' ∉ text := by
  constructor
  · intro h
    induction h with
    | nil => exact ⟨.nil, by simp⟩
    | cons hc hd h ih =>
      refine ⟨.cons (.inl hc) hd ih.1, ?_⟩
      simp only [List.mem_cons, not_or]
      exact ⟨(hexDigit_ne hc).1.symm, (hexDigit_ne hd).1.symm, ih.2⟩
  · rintro ⟨h, hplus⟩
    induction h with
    | nil => exact .nil
    | cons hc hd h ih =>
      simp only [List.mem_cons, not_or] at hplus
      refine .cons (hc.resolve_right ?_) hd (ih hplus.2.2)
      rintro ⟨rfl, -⟩
      exact hplus.1 rfl

theorem signedPairs_iff (text : List Char) :
    SignedPairs text ↔ ∃ bytes, Pairs SignOrDigit text bytes := by
  induction text using SignedPairs.induct with
  | case1 => exact ⟨fun _ => ⟨[], .nil⟩, fun _ => trivial⟩
  | case2 c =>
    rw [SignedPairs, false_iff]
    rintro ⟨bytes, h⟩
    cases h
  | case3 c d rest ih =>
    rw [SignedPairs, ih]
    constructor
    · rintro ⟨hlead, ⟨y, hd⟩, bytes, h⟩
      have hc : ∃ x, SignOrDigit c x := by
        rcases hlead with rfl | ⟨x, hx⟩
        · exact ⟨0, .inr ⟨rfl, rfl⟩⟩
        · exact ⟨x, .inl hx⟩
      obtain ⟨x, hc⟩ := hc
      exact ⟨_, .cons hc hd h⟩
    · rintro ⟨bytes, h⟩
      cases h with
      | cons hc hd h =>
        refine ⟨?_, ⟨_, hd⟩, _, h⟩
        rcases hc with hc | ⟨rfl, -⟩
        · exact .inr ⟨_, hc⟩
        · exact .inl rfl

theorem not_mem_x_of_pairs {text : List Char} {bytes : Bytes} (h : Pairs HexDigit text bytes) :
    ∀ c ∈ text, c ≠ 'x' := by
  induction h with
  | nil => simp
  | cons hc hd h ih =>
    simp only [List.forall_mem_cons]
    exact ⟨(hexDigit_ne hc).2, (hexDigit_ne hd).2, ih⟩

theorem eq_without0x (s : List Char) :
    s = without0x s ∨ s = '0' :: 'x' :: without0x s := by
  unfold without0x
  split
  · exact .inr rfl
  · exact .inl rfl

theorem trimStart0x_eq_without0x {s : List Char} (h : ¬RepeatsPrefix s) :
    trimStart0x s = without0x s := by
  unfold without0x
  split
  · rename_i rest
    rw [trimStart0x]
    unfold trimStart0x
    split
    · rename_i rest'
      exact absurd ⟨rest', rfl⟩ h
    · rfl
  · rename_i hs
    rw [trimStart0x]
    exact hs

/-- The texts of the grammar are among those that `hex_decode` reads, and are all but the ones with
a sign or a repeated prefix. -/
theorem inGrammar_iff {hex : List Char} {bytes : Bytes} : InGrammar hex bytes ↔
    Pairs SignOrDigit (trimStart0x (trim hex)) bytes ∧
      ¬('+' ∈ trimStart0x (trim hex) ∨ RepeatsPrefix (trim hex)) := by
  rw [not_or, ← and_assoc, ← pairs_hexDigit_iff]
  constructor
  · rintro ⟨digits, htrim, h⟩
    have hx := not_mem_x_of_pairs h
    have hstrip := trimStart0x_of_ne hx
    rcases htrim with htrim | htrim
    · rw [htrim, hstrip]
      refine ⟨h, ?_⟩
      rintro ⟨rest, rfl⟩
      exact hx 'x' (by simp) rfl
    · rw [htrim, trimStart0x, hstrip]
      refine ⟨h, ?_⟩
      rintro ⟨rest, hrest⟩
      cases hrest
      exact hx 'x' (by simp) rfl
  · rintro ⟨h, hrepeat⟩
    rw [trimStart0x_eq_without0x hrepeat] at h
    exact ⟨without0x (trim hex), eq_without0x (trim hex), h⟩

theorem not_followsGrammar_of_lenient {hex : List Char} (h : Lenient hex) :
    ¬FollowsGrammar hex := by
  intro hgrammar
  obtain ⟨bytes, hpairs⟩ := (signedPairs_iff _).mp h.1
  have hin := (hgrammar.1 bytes).mp (hexDecode_eq_ok_iff.mpr hpairs)
  exact (inGrammar_iff.mp hin).2 h.2

/-- `hex_decode` accepts exactly its grammar on the texts that are not lenient. -/
theorem followsGrammar_iff (hex : List Char) : FollowsGrammar hex ↔ ¬Lenient hex := by
  constructor
  · intro hgrammar hlenient
    exact not_followsGrammar_of_lenient hlenient hgrammar
  · intro hstrict
    refine ⟨fun bytes => ?_, hexDecode_eq_oddLength_iff hex⟩
    rw [hexDecode_eq_ok_iff, inGrammar_iff]
    constructor
    · intro hpairs
      refine ⟨hpairs, fun hloose => hstrict ⟨(signedPairs_iff _).mpr ⟨bytes, hpairs⟩, hloose⟩⟩
    · exact fun h => h.1

/-- A sign is read as a digit zero, and a second prefix as no text at all. -/
theorem sign_and_second_prefix_decode :
    hexDecode "+a".toList = .ok [0x0a] ∧ ¬FollowsGrammar "+a".toList ∧
    hexDecode "0x0xab".toList = .ok [0xab] ∧ ¬FollowsGrammar "0x0xab".toList := by
  have hsign : Lenient "+a".toList := by
    have htext : trimStart0x (trim "+a".toList) = ['+', 'a'] := by decide +kernel
    rw [Lenient, htext]
    exact ⟨⟨.inl rfl, ⟨10, .inl rfl⟩, trivial⟩, .inl (by simp)⟩
  have hprefix : Lenient "0x0xab".toList := by
    have htrim : trim "0x0xab".toList = ['0', 'x', '0', 'x', 'a', 'b'] := by decide +kernel
    have htext : trimStart0x (trim "0x0xab".toList) = ['a', 'b'] := by decide +kernel
    rw [Lenient, htext, htrim]
    exact ⟨⟨.inr ⟨10, .inl rfl⟩, ⟨11, .inl rfl⟩, trivial⟩, .inr ⟨['a', 'b'], rfl⟩⟩
  exact ⟨by decide +kernel, not_followsGrammar_of_lenient hsign, by decide +kernel,
    not_followsGrammar_of_lenient hprefix⟩

end KanariEvm
