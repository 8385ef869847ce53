import Mathlib.Data.Finmap
import Mathlib.Data.Nat.Digits.Defs
import Mathlib.Tactic.Ring

namespace KanariEvm

abbrev U8 := BitVec 8
abbrev U16 := BitVec 16
abbrev U32 := BitVec 32
abbrev U64 := BitVec 64
abbrev U128 := BitVec 128
abbrev U256 := BitVec 256
abbrev B256 := BitVec 256
abbrev Address := BitVec 160
abbrev Bytes := List U8

/-- A `HashMap`: finite and unordered, so two maps with the same lookups are equal. -/
abbrev Map (κ ν : Type) := Finmap fun _ : κ => ν

theorem Map.lookup_insert_ite {κ ν : Type} [DecidableEq κ] (m : Map κ ν) (a b : κ) (v : ν) :
    (Finmap.insert a v m).lookup b = if b = a then some v else m.lookup b := by
  split_ifs with h
  · subst h
    exact Finmap.lookup_insert m
  · exact Finmap.lookup_insert_of_ne m h

theorem eq_ok_of_toOption {ε α : Type} {r : Except ε α} {a : α} (h : r.toOption = some a) :
    r = .ok a := by
  cases r with
  | error e => cases h
  | ok b =>
    cases h
    rfl

theorem bind_eq_ok {ε α β : Type} {x : Except ε α} {f : α → Except ε β} {b : β}
    (h : (x >>= f) = .ok b) : ∃ a, x = .ok a ∧ f a = .ok b := by
  cases x with
  | error e => cases h
  | ok a => exact ⟨a, rfl, h⟩

theorem map_eq_ok {ε α β : Type} {x : Except ε α} {f : α → β} {b : β}
    (h : x.map f = .ok b) : ∃ a, x = .ok a ∧ f a = b := by
  cases x with
  | error e => cases h
  | ok a => exact ⟨a, rfl, Except.ok.inj h⟩

def saturatingAdd {w : ℕ} (a b : BitVec w) : BitVec w :=
  BitVec.ofNat w (min (a.toNat + b.toNat) (2 ^ w - 1))

def saturatingMul {w : ℕ} (a b : BitVec w) : BitVec w :=
  BitVec.ofNat w (min (a.toNat * b.toNat) (2 ^ w - 1))

def saturatingSub {w : ℕ} (a b : BitVec w) : BitVec w := BitVec.ofNat w (a.toNat - b.toNat)

def umax {w : ℕ} (a b : BitVec w) : BitVec w := if a.toNat ≤ b.toNat then b else a

def umin {w : ℕ} (a b : BitVec w) : BitVec w := if a.toNat ≤ b.toNat then a else b

theorem umax_toNat {w : ℕ} (a b : BitVec w) : (umax a b).toNat = max a.toNat b.toNat := by
  unfold umax
  split_ifs <;> omega

theorem umin_toNat {w : ℕ} (a b : BitVec w) : (umin a b).toNat = min a.toNat b.toNat := by
  unfold umin
  split_ifs <;> omega

theorem saturatingAdd_toNat {w : ℕ} (a b : BitVec w) :
    (saturatingAdd a b).toNat = min (a.toNat + b.toNat) (2 ^ w - 1) := by
  have hw : 0 < 2 ^ w := Nat.two_pow_pos w
  rw [saturatingAdd, BitVec.toNat_ofNat]
  exact Nat.mod_eq_of_lt (by omega)

theorem saturatingAdd_toNat_of_lt {w : ℕ} {a b : BitVec w} (h : a.toNat + b.toNat < 2 ^ w) :
    (saturatingAdd a b).toNat = a.toNat + b.toNat := by
  rw [saturatingAdd_toNat]
  omega

theorem saturatingMul_toNat {w : ℕ} (a b : BitVec w) :
    (saturatingMul a b).toNat = min (a.toNat * b.toNat) (2 ^ w - 1) := by
  have hw : 0 < 2 ^ w := Nat.two_pow_pos w
  rw [saturatingMul, BitVec.toNat_ofNat]
  exact Nat.mod_eq_of_lt (by omega)

theorem saturatingMul_toNat_of_lt {w : ℕ} {a b : BitVec w} (h : a.toNat * b.toNat < 2 ^ w) :
    (saturatingMul a b).toNat = a.toNat * b.toNat := by
  rw [saturatingMul_toNat]
  omega

/-- `checked_add(1)`: the head number plus one, `none` where the `+` of the source overflows. -/
def checkedSucc {w : ℕ} (a : BitVec w) : Option (BitVec w) :=
  if a.toNat + 1 < 2 ^ w then some (BitVec.ofNat w (a.toNat + 1)) else none

theorem checkedSucc_toNat {w : ℕ} {a b : BitVec w} (h : checkedSucc a = some b) :
    b.toNat = a.toNat + 1 := by
  unfold checkedSucc at h
  split_ifs at h with hlt
  rw [← Option.some.inj h, BitVec.toNat_ofNat]
  exact Nat.mod_eq_of_lt hlt

/-- The `k` low bytes of `n`, least significant first (`to_le_bytes`). -/
def toLeBytes : ℕ → ℕ → Bytes
  | 0, _ => []
  | k + 1, n => BitVec.ofNat 8 n :: toLeBytes k (n / 256)

/-- The `k` low bytes of `n`, most significant first (`to_be_bytes`). -/
def toBeBytes (k n : ℕ) : Bytes := (toLeBytes k n).reverse

def fromLeBytes : Bytes → ℕ
  | [] => 0
  | b :: bs => b.toNat + 256 * fromLeBytes bs

@[simp] theorem toLeBytes_length (k n : ℕ) : (toLeBytes k n).length = k := by
  induction k generalizing n with
  | zero => rfl
  | succ k ih => simp [toLeBytes, ih]

@[simp] theorem toBeBytes_length (k n : ℕ) : (toBeBytes k n).length = k := by simp [toBeBytes]

theorem fromLeBytes_toLeBytes (k n : ℕ) (h : n < 256 ^ k) : fromLeBytes (toLeBytes k n) = n := by
  induction k generalizing n with
  | zero => simp [toLeBytes, fromLeBytes] at h ⊢; omega
  | succ k ih =>
    have hq : n / 256 < 256 ^ k := by
      rw [pow_succ] at h
      exact Nat.div_lt_of_lt_mul (by rwa [mul_comm] at h)
    rw [toLeBytes, fromLeBytes, ih _ hq, BitVec.toNat_ofNat]
    omega

theorem toLeBytes_fromLeBytes (bytes : Bytes) :
    toLeBytes bytes.length (fromLeBytes bytes) = bytes := by
  induction bytes with
  | nil => rfl
  | cons b rest ih =>
    have hb := b.isLt
    have hhead : BitVec.ofNat 8 (b.toNat + 256 * fromLeBytes rest) = b := by
      apply BitVec.eq_of_toNat_eq
      rw [BitVec.toNat_ofNat]
      omega
    have htail : (b.toNat + 256 * fromLeBytes rest) / 256 = fromLeBytes rest := by omega
    rw [List.length_cons, fromLeBytes, toLeBytes, hhead, htail, ih]

theorem toLeBytes_injective {k m n : ℕ} (hm : m < 256 ^ k) (hn : n < 256 ^ k)
    (h : toLeBytes k m = toLeBytes k n) : m = n := by
  rw [← fromLeBytes_toLeBytes k m hm, h, fromLeBytes_toLeBytes k n hn]

theorem toBeBytes_injective {k m n : ℕ} (hm : m < 256 ^ k) (hn : n < 256 ^ k)
    (h : toBeBytes k m = toBeBytes k n) : m = n :=
  toLeBytes_injective hm hn (List.reverse_injective h)

def B256.asSlice (h : B256) : Bytes := toBeBytes 32 h.toNat

theorem B256.asSlice_injective : Function.Injective B256.asSlice := by
  intro a b h
  apply BitVec.eq_of_toNat_eq
  exact toBeBytes_injective (by simpa using a.isLt) (by simpa using b.isLt) h

def ascii (s : List Char) : Bytes := s.map fun c => BitVec.ofNat 8 c.toNat

def hexDigit (d : ℕ) : Char := "0123456789abcdef".toList.getD d '0'

def hexEncode (bytes : Bytes) : List Char :=
  bytes.flatMap fun b => [hexDigit (b.toNat / 16), hexDigit (b.toNat % 16)]

def hexPrefixed (bytes : Bytes) : List Char := '0' :: 'x' :: hexEncode bytes

/-- `{n:0wx}` of a number that fits in `w` digits. -/
def hexFixed : ℕ → ℕ → List Char
  | 0, _ => []
  | w + 1, n => hexFixed w (n / 16) ++ [hexDigit (n % 16)]

/-- Ethereum QUANTITY: minimal `0x` hex, `format!("0x{v:x}")`. -/
def quantity {w : ℕ} (v : BitVec w) : List Char := '0' :: 'x' :: Nat.toDigits 16 v.toNat

def bytes32Hex (v : U256) : List Char := '0' :: 'x' :: hexFixed 64 v.toNat

theorem hexFixed_length (w n : ℕ) : (hexFixed w n).length = w := by
  induction w generalizing n with
  | zero => rfl
  | succ w ih => simp [hexFixed, ih]

theorem digitChar_injective : ∀ d < 16, ∀ e < 16, Nat.digitChar d = Nat.digitChar e → d = e := by
  decide

theorem toDigits_last (n : ℕ) : Nat.toDigits 16 n =
    (if n < 16 then [] else Nat.toDigits 16 (n / 16)) ++ [Nat.digitChar (n % 16)] := by
  rw [Nat.toDigits_eq_if (by decide)]
  split_ifs with hn
  · rw [Nat.mod_eq_of_lt hn, List.nil_append]
  · rfl

theorem toDigits_injective {m n : ℕ} (h : Nat.toDigits 16 m = Nat.toDigits 16 n) : m = n := by
  induction m using Nat.strong_induction_on generalizing n with
  | _ m ih =>
    rw [toDigits_last m, toDigits_last n] at h
    obtain ⟨hq, hr⟩ := List.append_inj' h rfl
    have hmod := digitChar_injective _ (Nat.mod_lt m (by decide)) _ (Nat.mod_lt n (by decide))
      (List.cons.inj hr).1
    split_ifs at hq with hm hn hn
    · omega
    · exact absurd hq.symm Nat.toDigits_ne_nil
    · exact absurd hq Nat.toDigits_ne_nil
    · have hdiv := ih (m / 16) (by omega) hq
      omega

theorem quantity_injective {w : ℕ} {a b : BitVec w} (h : quantity a = quantity b) : a = b :=
  BitVec.eq_of_toNat_eq (toDigits_injective (List.cons.inj (List.cons.inj h).2).2)

theorem hexDigit_byte_injective : ∀ d < 16, ∀ e < 16,
    (BitVec.ofNat 8 (hexDigit d).toNat : U8) = BitVec.ofNat 8 (hexDigit e).toNat → d = e := by
  decide

theorem ascii_hexFixed_injective {w m n : ℕ} (hm : m < 16 ^ w) (hn : n < 16 ^ w)
    (h : ascii (hexFixed w m) = ascii (hexFixed w n)) : m = n := by
  induction w generalizing m n with
  | zero => simp at hm hn; omega
  | succ w ih =>
    simp only [ascii, hexFixed, List.map_append, List.map_cons, List.map_nil] at h
    obtain ⟨hq, hr⟩ := List.append_inj' h rfl
    have hr' := hexDigit_byte_injective _ (Nat.mod_lt m (by decide)) _ (Nat.mod_lt n (by decide))
      (List.cons.inj hr).1
    rw [pow_succ] at hm hn
    have hq' := ih (by omega) (by omega) hq
    omega

theorem ascii_hexEncode_injective {a b : Bytes} (h : ascii (hexEncode a) = ascii (hexEncode b)) :
    a = b := by
  induction a generalizing b with
  | nil =>
    cases b with
    | nil => rfl
    | cons y ys => simp [ascii, hexEncode] at h
  | cons x xs ih =>
    cases b with
    | nil => simp [ascii, hexEncode] at h
    | cons y ys =>
      simp only [ascii, hexEncode, List.flatMap_cons, List.map_cons, List.cons_append,
        List.nil_append, List.cons.injEq] at h
      have hx := x.isLt
      have hy := y.isLt
      have hhi := hexDigit_byte_injective _ (by omega) _ (by omega) h.1
      have hlo := hexDigit_byte_injective _ (by omega) _ (by omega) h.2.1
      have hxy : x = y := BitVec.eq_of_toNat_eq (by omega)
      rw [hxy, ih h.2.2]

end KanariEvm
