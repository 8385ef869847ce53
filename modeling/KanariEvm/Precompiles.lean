import KanariEvm.Primitives
import KanariEvm.Lib.Outcome

namespace KanariEvm

def falcon512VerifyGas : U64 := 3000

def dilithium3VerifyGas : U64 := 5000

def falcon512PublicKeyLen : ℕ := 897

def dilithium3PublicKeyLen : ℕ := 1952

def dilithium3SignatureLen : ℕ := 3309

inductive PrecompileHalt
  | outOfGas
deriving DecidableEq

structure EthPrecompileOutput where
  gasUsed : U64
  bytes : Bytes
deriving DecidableEq

abbrev EthPrecompileResult := Except PrecompileHalt EthPrecompileOutput

def u16FromBeBytes (hi lo : U8) : ℕ := 256 * hi.toNat + lo.toNat

def u16Be (n : ℕ) : Bytes := toBeBytes 2 n

def splitU16Prefix (input : Bytes) : Outcome (Option (ℕ × Bytes)) :=
  match input.getTo 2 with
  | some [hi, lo] => do
    let rest ← Outcome.sliceFrom input 2
    return some (u16FromBeBytes hi lo, rest)
  | _ => return none

/-- Parse `pubkey_len:u16BE || pubkey || msg_len:u16BE || msg || sig`. -/
def parseVerifyInput (input : Bytes) (expectedPubkeyLen : ℕ) (expectedSigLen : Option ℕ) :
    Outcome (Option (Bytes × Bytes × Bytes)) := do
  let some (pubkeyLen, rest) ← splitU16Prefix input | return none
  let some tail := rest.getFrom pubkeyLen | return none
  let some (msgLen, _) ← splitU16Prefix tail | return none
  let some pubkey := rest.getTo pubkeyLen | return none
  if pubkey.length ≠ expectedPubkeyLen then return none
  let afterPubkey ← Outcome.sliceFrom rest (pubkeyLen + 2)
  let some msg := afterPubkey.getTo msgLen | return none
  let some sig := afterPubkey.getFrom msgLen | return none
  if sig = [] then return none
  if expectedSigLen.any (sig.length ≠ ·) then return none
  return some (pubkey, msg, sig)

/-- Shared verify driver: parse length-prefixed input, charge flat gas, return a 32-byte boolean. -/
def runPqcVerify (input : Bytes) (gasLimit cost : U64) (expectedPubkeyLen : ℕ)
    (expectedSigLen : Option ℕ) (verify : Bytes → Bytes → Bytes → Bool) :
    Outcome EthPrecompileResult := do
  if gasLimit.toNat < cost.toNat then return .error .outOfGas
  let parsed ← parseVerifyInput input expectedPubkeyLen expectedSigLen
  let ok := (parsed.map fun (pubkey, msg, sig) => verify pubkey msg sig).getD false
  return .ok ⟨cost, List.replicate 31 0 ++ [if ok then 1 else 0]⟩

/-- The signature checks of `kanari_crypto`, on a hex public key; `none` where they return an
error. -/
structure PqcVerifiers where
  verifySignatureFalcon512 : List Char → Bytes → Bytes → Option Bool
  verifySignatureDilithium3 : List Char → Bytes → Bytes → Option Bool

namespace PqcVerifiers

variable (V : PqcVerifiers)

def verifyFalcon512Bytes (pubkey msg sig : Bytes) : Bool :=
  (V.verifySignatureFalcon512 (hexEncode pubkey) msg sig).getD false

def verifyDilithium3Bytes (pubkey msg sig : Bytes) : Bool :=
  (V.verifySignatureDilithium3 (hexEncode pubkey) msg sig).getD false

def falcon512VerifyRun (input : Bytes) (gasLimit : U64) : Outcome EthPrecompileResult :=
  runPqcVerify input gasLimit falcon512VerifyGas falcon512PublicKeyLen none
    V.verifyFalcon512Bytes

def dilithium3VerifyRun (input : Bytes) (gasLimit : U64) : Outcome EthPrecompileResult :=
  runPqcVerify input gasLimit dilithium3VerifyGas dilithium3PublicKeyLen
    (some dilithium3SignatureLen) V.verifyDilithium3Bytes

end PqcVerifiers

def buildInput (pubkey msg sig : Bytes) : Bytes :=
  u16Be pubkey.length ++ (pubkey ++ (u16Be msg.length ++ (msg ++ sig)))

/-- The triples that an input can carry: the lengths of the public key and the message fit their
prefixes, and the public key and the signature have the lengths of the scheme. -/
structure FitsLayout (expectedPubkeyLen : ℕ) (expectedSigLen : Option ℕ)
    (pubkey msg sig : Bytes) : Prop where
  pubkey_lt : pubkey.length < 2 ^ 16
  msg_lt : msg.length < 2 ^ 16
  pubkey_len : pubkey.length = expectedPubkeyLen
  sig_ne : sig ≠ []
  sig_len : ∀ n, expectedSigLen = some n → sig.length = n

theorem u16FromBeBytes_lt (hi lo : U8) : u16FromBeBytes hi lo < 2 ^ 16 := by
  have hhi := hi.isLt
  have hlo := lo.isLt
  unfold u16FromBeBytes
  omega

theorem u16Be_u16FromBeBytes (hi lo : U8) : u16Be (u16FromBeBytes hi lo) = [hi, lo] := by
  have h := toLeBytes_fromLeBytes [lo, hi]
  have hv : fromLeBytes [lo, hi] = u16FromBeBytes hi lo := by
    simp only [fromLeBytes, u16FromBeBytes]
    omega
  rw [hv] at h
  rw [u16Be, toBeBytes, show (2 : ℕ) = [lo, hi].length from rfl, h]
  rfl

theorem splitU16Prefix_cons (hi lo : U8) (rest : Bytes) :
    splitU16Prefix (hi :: lo :: rest) = .returned (some (u16FromBeBytes hi lo, rest)) := by
  simp [splitU16Prefix, List.getTo, Outcome.sliceFrom]

theorem splitU16Prefix_u16Be {n : ℕ} (hn : n < 2 ^ 16) (rest : Bytes) :
    splitU16Prefix (u16Be n ++ rest) = .returned (some (n, rest)) := by
  have hn' : n < 256 ^ 2 := by omega
  have hv : u16FromBeBytes (BitVec.ofNat 8 (n / 256)) (BitVec.ofNat 8 n) = n := by
    have h := fromLeBytes_toLeBytes 2 n hn'
    simp only [toLeBytes, fromLeBytes] at h
    unfold u16FromBeBytes
    omega
  have h := splitU16Prefix_cons (BitVec.ofNat 8 (n / 256)) (BitVec.ofNat 8 n) rest
  rw [hv] at h
  exact h

theorem splitU16Prefix_cases (input : Bytes) :
    splitU16Prefix input = .returned none ∨
      ∃ n rest, n < 2 ^ 16 ∧ input = u16Be n ++ rest := by
  match input with
  | [] => exact .inl rfl
  | [_] => exact .inl rfl
  | hi :: lo :: rest =>
    refine .inr ⟨u16FromBeBytes hi lo, rest, u16FromBeBytes_lt hi lo, ?_⟩
    rw [u16Be_u16FromBeBytes]
    rfl

@[simp] theorem getTo_append {α : Type} (a b : List α) : (a ++ b).getTo a.length = some a := by
  simp [List.getTo]

@[simp] theorem getFrom_append {α : Type} (a b : List α) : (a ++ b).getFrom a.length = some b := by
  simp [List.getFrom]

theorem sliceFrom_append {α : Type} (a b c : List α) :
    Outcome.sliceFrom (a ++ (b ++ c)) (a.length + b.length) = .returned c := by
  simp [Outcome.sliceFrom, List.drop_append]

/-- Both prefixes are there: what is left to check is the body behind the second one. The slice
behind the public key starts within the input, since the second prefix was read there. -/
theorem parseVerifyInput_prefixes {pubkey : Bytes} (hpk : pubkey.length < 2 ^ 16) {m : ℕ}
    (hm : m < 2 ^ 16) (body : Bytes) (k : ℕ) (s : Option ℕ) :
    parseVerifyInput (u16Be pubkey.length ++ (pubkey ++ (u16Be m ++ body))) k s =
      if pubkey.length ≠ k ∨ body.length ≤ m ∨ s.any (body.length - m ≠ ·) then .returned none
      else .returned (some (pubkey, body.take m, body.drop m)) := by
  have hslice := sliceFrom_append pubkey (u16Be m) body
  rw [show (u16Be m).length = 2 from toBeBytes_length 2 m] at hslice
  simp only [parseVerifyInput, splitU16Prefix_u16Be hpk, splitU16Prefix_u16Be hm, getTo_append,
    getFrom_append, hslice, Outcome.returned_bind, Outcome.pure_def]
  by_cases hk : pubkey.length ≠ k
  · simp [hk]
  by_cases hlong : body.length ≤ m
  · by_cases heq : body.length = m
    · subst heq
      simp [hk, List.getTo, List.getFrom]
    · have hlt : ¬m ≤ body.length := by omega
      simp [hk, List.getTo, hlong, hlt]
  · have hle : m ≤ body.length := by omega
    simp [hk, hlong, hle, List.getTo, List.getFrom]

theorem parseVerifyInput_buildInput {k : ℕ} {s : Option ℕ} {pubkey msg sig : Bytes}
    (h : FitsLayout k s pubkey msg sig) :
    parseVerifyInput (buildInput pubkey msg sig) k s = .returned (some (pubkey, msg, sig)) := by
  have hpos : 0 < sig.length := List.length_pos_of_ne_nil h.sig_ne
  have hs : ¬s.any (sig.length ≠ ·) := by
    rw [Option.any_eq_true]
    rintro ⟨n, hn, hne⟩
    exact of_decide_eq_true hne (h.sig_len n hn)
  rw [buildInput, parseVerifyInput_prefixes h.pubkey_lt h.msg_lt, if_neg, List.take_left,
    List.drop_left]
  rw [List.length_append, Nat.add_sub_cancel_left]
  intro hor
  obtain hk | hl | hsig := hor
  · exact hk h.pubkey_len
  · omega
  · exact hs hsig

theorem parseVerifyInput_cases (input : Bytes) (k : ℕ) (s : Option ℕ) :
    parseVerifyInput input k s = .returned none ∨
      ∃ pubkey msg sig, FitsLayout k s pubkey msg sig ∧ input = buildInput pubkey msg sig := by
  obtain hnone | ⟨n, rest, hn, rfl⟩ := splitU16Prefix_cases input
  · exact .inl (by simp [parseVerifyInput, hnone])
  by_cases hlen : n ≤ rest.length
  swap
  · refine .inl ?_
    simp [parseVerifyInput, splitU16Prefix_u16Be hn, List.getFrom, hlen]
  obtain ⟨pubkey, tail, rfl, rfl⟩ : ∃ pubkey tail, rest = pubkey ++ tail ∧ pubkey.length = n :=
    ⟨rest.take n, rest.drop n, (List.take_append_drop n rest).symm, List.length_take_of_le hlen⟩
  obtain hnone | ⟨m, body, hm, rfl⟩ := splitU16Prefix_cases tail
  · refine .inl ?_
    simp [parseVerifyInput, splitU16Prefix_u16Be hn, hnone]
  rw [parseVerifyInput_prefixes hn hm]
  split_ifs with hbad
  · exact .inl rfl
  · push Not at hbad
    obtain ⟨hk, hlong, hs⟩ := hbad
    have hmsg : (body.take m).length = m := List.length_take_of_le (Nat.le_of_lt hlong)
    refine .inr ⟨pubkey, body.take m, body.drop m, ⟨hn, by omega, hk, ?_, ?_⟩, ?_⟩
    · intro hnil
      have := congrArg List.length hnil
      rw [List.length_drop, List.length_nil] at this
      omega
    · intro l hl
      subst hl
      simpa using hs
    · rw [buildInput, hmsg, List.take_append_drop]

theorem parseVerifyInput_eq_some_iff (input : Bytes) (k : ℕ) (s : Option ℕ)
    (pubkey msg sig : Bytes) :
    parseVerifyInput input k s = .returned (some (pubkey, msg, sig)) ↔
      FitsLayout k s pubkey msg sig ∧ input = buildInput pubkey msg sig := by
  constructor
  · intro hparse
    obtain hnone | ⟨pubkey', msg', sig', hfits, rfl⟩ := parseVerifyInput_cases input k s
    · rw [hnone] at hparse
      cases hparse
    · rw [parseVerifyInput_buildInput hfits] at hparse
      cases hparse
      exact ⟨hfits, rfl⟩
  · rintro ⟨hfits, rfl⟩
    exact parseVerifyInput_buildInput hfits

theorem parseVerifyInput_ne_panicked (input : Bytes) (k : ℕ) (s : Option ℕ) :
    parseVerifyInput input k s ≠ .panicked := by
  obtain hnone | ⟨pubkey, msg, sig, hfits, rfl⟩ := parseVerifyInput_cases input k s
  · simp [hnone]
  · simp [parseVerifyInput_buildInput hfits]

theorem buildInput_unique {k : ℕ} {s : Option ℕ} {pubkey msg sig pubkey' msg' sig' : Bytes}
    (h : FitsLayout k s pubkey msg sig) (h' : FitsLayout k s pubkey' msg' sig')
    (heq : buildInput pubkey msg sig = buildInput pubkey' msg' sig') :
    (pubkey, msg, sig) = (pubkey', msg', sig') := by
  have hparse := parseVerifyInput_buildInput h
  rw [heq, parseVerifyInput_buildInput h'] at hparse
  exact (Option.some.inj (Outcome.returned.inj hparse)).symm

def Accepts (verify : Bytes → Bytes → Bytes → Bool) (input : Bytes) (k : ℕ) (s : Option ℕ) :
    Prop :=
  ∃ pubkey msg sig, parseVerifyInput input k s = .returned (some (pubkey, msg, sig)) ∧
    verify pubkey msg sig = true

theorem word_eq (ok : Bool) :
    (List.replicate 31 0 ++ [if ok then 1 else 0] : Bytes) =
      toBeBytes 32 (if ok then 1 else 0) := by
  cases ok <;> decide

theorem runPqcVerify_of_lt {gasLimit cost : U64} (h : gasLimit.toNat < cost.toNat) (input : Bytes)
    (k : ℕ) (s : Option ℕ) (verify : Bytes → Bytes → Bytes → Bool) :
    runPqcVerify input gasLimit cost k s verify = .returned (.error .outOfGas) := by
  simp [runPqcVerify, h]

open Classical in
theorem runPqcVerify_of_le {gasLimit cost : U64} (h : cost.toNat ≤ gasLimit.toNat) (input : Bytes)
    (k : ℕ) (s : Option ℕ) (verify : Bytes → Bytes → Bytes → Bool) :
    runPqcVerify input gasLimit cost k s verify =
      .returned (.ok ⟨cost, toBeBytes 32 (if Accepts verify input k s then 1 else 0)⟩) := by
  have hgas : ¬gasLimit.toNat < cost.toNat := by omega
  obtain hnone | ⟨pubkey, msg, sig, hfits, rfl⟩ := parseVerifyInput_cases input k s
  · have hno : ¬Accepts verify input k s := by
      rintro ⟨pubkey, msg, sig, hparse, _⟩
      rw [hnone] at hparse
      cases hparse
    simp only [runPqcVerify, if_neg hgas, hnone, Outcome.returned_bind, Outcome.pure_def, word_eq,
      if_neg hno]
    rfl
  · have hparse := parseVerifyInput_buildInput hfits
    have hiff : Accepts verify (buildInput pubkey msg sig) k s ↔ verify pubkey msg sig = true := by
      constructor
      · rintro ⟨pubkey', msg', sig', hparse', haccepts⟩
        rw [hparse] at hparse'
        cases hparse'
        exact haccepts
      · intro haccepts
        exact ⟨pubkey, msg, sig, hparse, haccepts⟩
    simp only [runPqcVerify, if_neg hgas, hparse, Outcome.returned_bind, Outcome.pure_def, word_eq,
      hiff, Option.map_some, Option.getD_some]

open Classical in
/-- The cost buys the word 1 just for an input that carries a triple which the verifier accepts. -/
theorem runPqcVerify_eq (input : Bytes) (gasLimit cost : U64) (k : ℕ) (s : Option ℕ)
    (verify : Bytes → Bytes → Bytes → Bool) :
    runPqcVerify input gasLimit cost k s verify =
      .returned (if gasLimit.toNat < cost.toNat then .error .outOfGas
        else .ok ⟨cost, toBeBytes 32 (if ∃ pubkey msg sig, FitsLayout k s pubkey msg sig ∧
          input = buildInput pubkey msg sig ∧ verify pubkey msg sig = true then 1 else 0)⟩) := by
  split_ifs with hgas haccepts
  · exact runPqcVerify_of_lt hgas input k s verify
  all_goals
    rw [runPqcVerify_of_le (Nat.le_of_not_lt hgas)]
    simp only [Accepts, parseVerifyInput_eq_some_iff, and_assoc, haccepts, if_true, if_false]

namespace PqcVerifiers

variable (V : PqcVerifiers) (input : Bytes) (gasLimit : U64)

open Classical in
theorem falcon512VerifyRun_eq :
    V.falcon512VerifyRun input gasLimit =
      .returned (if gasLimit.toNat < 3000 then .error .outOfGas
        else .ok ⟨3000, toBeBytes 32 (if ∃ pubkey msg sig, FitsLayout 897 none pubkey msg sig ∧
          input = buildInput pubkey msg sig ∧
          (V.verifySignatureFalcon512 (hexEncode pubkey) msg sig).getD false = true
          then 1 else 0)⟩) :=
  runPqcVerify_eq input gasLimit falcon512VerifyGas falcon512PublicKeyLen none
    V.verifyFalcon512Bytes

open Classical in
theorem dilithium3VerifyRun_eq :
    V.dilithium3VerifyRun input gasLimit =
      .returned (if gasLimit.toNat < 5000 then .error .outOfGas
        else .ok ⟨5000, toBeBytes 32 (if ∃ pubkey msg sig,
          FitsLayout 1952 (some 3309) pubkey msg sig ∧ input = buildInput pubkey msg sig ∧
          (V.verifySignatureDilithium3 (hexEncode pubkey) msg sig).getD false = true
          then 1 else 0)⟩) :=
  runPqcVerify_eq input gasLimit dilithium3VerifyGas dilithium3PublicKeyLen
    (some dilithium3SignatureLen) V.verifyDilithium3Bytes

end PqcVerifiers

/-- The input format is unambiguous and the precompile fails closed: an input parses exactly when
it is built from a triple of the right lengths, which it then is in one way only; nothing is sliced
out of bounds; and the call halts exactly when it can not pay, and else charges its cost for a word
that is 1 when the verifier accepts the triple and 0 in every other case. -/
theorem pqcVerify_exact (k : ℕ) (s : Option ℕ) :
    (∀ input, parseVerifyInput input k s ≠ .panicked) ∧
    (∀ input pubkey msg sig, parseVerifyInput input k s = .returned (some (pubkey, msg, sig)) ↔
      FitsLayout k s pubkey msg sig ∧ input = buildInput pubkey msg sig) ∧
    (∀ pubkey msg sig pubkey' msg' sig', FitsLayout k s pubkey msg sig →
      FitsLayout k s pubkey' msg' sig' →
      buildInput pubkey msg sig = buildInput pubkey' msg' sig' →
      (pubkey, msg, sig) = (pubkey', msg', sig')) ∧
    (∀ pubkey msg sig, FitsLayout k s pubkey msg sig →
      parseVerifyInput (buildInput pubkey msg sig) k s = .returned (some (pubkey, msg, sig))) ∧
    ∀ (verify : Bytes → Bytes → Bytes → Bool) (input : Bytes) (gasLimit cost : U64),
      (runPqcVerify input gasLimit cost k s verify = .returned (.error .outOfGas) ↔
        gasLimit.toNat < cost.toNat) ∧
      (cost.toNat ≤ gasLimit.toNat → ∃ word : Bytes,
        runPqcVerify input gasLimit cost k s verify = .returned (.ok ⟨cost, word⟩) ∧
        word.length = 32 ∧ (word = toBeBytes 32 1 ↔ Accepts verify input k s) ∧
        (word = toBeBytes 32 0 ↔ ¬Accepts verify input k s)) := by
  refine ⟨fun input => parseVerifyInput_ne_panicked input k s,
    fun input pubkey msg sig => parseVerifyInput_eq_some_iff input k s pubkey msg sig,
    fun _ _ _ _ _ _ h h' heq => buildInput_unique h h' heq,
    fun _ _ _ h => parseVerifyInput_buildInput h, ?_⟩
  intro verify input gasLimit cost
  by_cases hgas : gasLimit.toNat < cost.toNat
  · refine ⟨⟨fun _ => hgas, fun _ => runPqcVerify_of_lt hgas input k s verify⟩, ?_⟩
    intro hle
    omega
  have hrun := runPqcVerify_of_le (Nat.le_of_not_lt hgas) input k s verify
  have hne : toBeBytes 32 0 ≠ toBeBytes 32 1 := by decide
  refine ⟨⟨fun hhalt => ?_, fun h => absurd h hgas⟩, fun _ => ⟨_, hrun, by simp, ?_⟩⟩
  · rw [hrun] at hhalt
    cases hhalt
  · by_cases haccepts : Accepts verify input k s
    · simp [haccepts, hne.symm]
    · simp [haccepts, hne]

example : parseVerifyInput [0, 1, 7, 0, 0, 9] 1 none = .returned (some ([7], [], [9])) := by
  decide

end KanariEvm
