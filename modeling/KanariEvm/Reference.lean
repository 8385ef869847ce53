import KanariEvm.Leaves
import KanariEvm.Transaction
import KanariEvm.Transfer

namespace KanariEvm.Reference

/-! A platform that runs: the documented cache, transfers without value, and a few signed
transactions of a funded development key with their real encodings, signers and hashes. -/

def funded : Address := 0xf39fd6e51aad88f6f4ce6ab8827279cfffb92266

def recipient : Address := 0xdead

/-- A legacy transfer with nonce 0 at 1 gwei, as it goes over the wire. -/
def transfer0 : Bytes :=
  toBeBytes 38 0xf86580843b9aca0082520894000000000000000000000000000000000000dead8080829543a0 ++
  toBeBytes 32 0xcd946e194a38e9fcf33ce0b73220377548de21676042193883441b9b7913d1c8 ++
  toBeBytes 33 0xa018195fd5b4834cef68ad6d70e64a5de39e049a812d9331bf5fcef26740b4948b

def transfer1 : Bytes :=
  toBeBytes 38 0xf86501843b9aca0082520894000000000000000000000000000000000000dead8080829543a0 ++
  toBeBytes 32 0x3dae25037b202e17d15760eee9ec6f6e242ef55c1d9169b0f343eb1afd9e239f ++
  toBeBytes 33 0xa07da7cd76f76c718ba1aecd4610f4a7e736bc0096ad72f964850ca371312aae84

/-- An EIP-1559 transfer with nonce 0: it caps its fee at 3 gwei and tips 1 gwei. -/
def capped0 : Bytes :=
  toBeBytes 21 0x02f86c824a9080843b9aca0084b2d05e0082520894 ++
  toBeBytes 25 0x000000000000000000000000000000000000dead8080c001a0 ++
  toBeBytes 32 0x4a14bf6b602b4a2cb0c5f2027d096cb1e2f9b49cb6d62bedc9386a33e0771ca3 ++
  toBeBytes 33 0xa011dd77f6bbf0c6bbcd782a463cda791d5f1aa2e3b7e256b31ae2bc3b2cc686d9

def legacyTransfer (nonce : U64) : TxLegacy where
  chainId := some 19088
  nonce := nonce
  gasPrice := 1000000000
  gasLimit := 21000
  toKind := .call recipient
  value := 0
  input := []

def cappedTransfer : TxEip1559 where
  chainId := 19088
  nonce := 0
  gasLimit := 21000
  maxFeePerGas := 3000000000
  maxPriorityFeePerGas := 1000000000
  toKind := .call recipient
  value := 0
  accessList := []
  input := []

def prepared (nonce : U64) (gasPrice : U128) (tip : Option U128) : PreparedTx where
  sender := funded
  toAddr := some recipient
  inner := {
    caller := funded
    gasLimit := 21000
    gasPrice := gasPrice
    kind := .call recipient
    value := 0
    data := []
    nonce := nonce
    chainId := some 19088
    gasPriorityFee := tip
    accessList := [] }

def moved : ExecutionResult := .success 21000 [] (.call [])

def envelopes : List (Bytes × TxEnvelope) :=
  [(transfer0, .legacy (legacyTransfer 0) {
      r := 0xcd946e194a38e9fcf33ce0b73220377548de21676042193883441b9b7913d1c8
      s := 0x18195fd5b4834cef68ad6d70e64a5de39e049a812d9331bf5fcef26740b4948b
      oddYParity := false }),
    (transfer1, .legacy (legacyTransfer 1) {
      r := 0x3dae25037b202e17d15760eee9ec6f6e242ef55c1d9169b0f343eb1afd9e239f
      s := 0x7da7cd76f76c718ba1aecd4610f4a7e736bc0096ad72f964850ca371312aae84
      oddYParity := false }),
    (capped0, .eip1559 cappedTransfer {
      r := 0x4a14bf6b602b4a2cb0c5f2027d096cb1e2f9b49cb6d62bedc9386a33e0771ca3
      s := 0x11dd77f6bbf0c6bbcd782a463cda791d5f1aa2e3b7e256b31ae2bc3b2cc686d9
      oddYParity := true })]

def decode2718Exact (raw : Bytes) : Except String TxEnvelope :=
  match envelopes.lookup raw with
  | some envelope => .ok envelope
  | none => .error "unexpected type flag"

def recoverSigner (envelope : TxEnvelope) : Except String Address :=
  if envelopes.any fun e => e.2 = envelope then .ok funded else .error "invalid signature"

/-- A stand-in for the digests that the tables below do not list. -/
def mix (bytes : Bytes) : B256 :=
  BitVec.ofNat 256 (bytes.foldl (fun h b => (h * 1099511628211 + b.toNat + 1) % 2 ^ 256) 14695981)

def header (parent : B256) (number timestamp : U64) : Bytes :=
  parent.asSlice ++ toBeBytes 8 number.toNat ++ toBeBytes 8 timestamp.toNat

def hash0 : B256 := 0xb1ab7b0c5d0d1daf304681d46e0922aa981ea411466724bcf36fcb623f6b802a

def hash1 : B256 := 0x2cdf7b897d44b731a838597c584d394e28cc0f244e0117d0b5d9736874b9eedd

def hashGenesis : B256 := 0x740f9e8df15b0a6d936fc64dadb1be13cb17c892eb57b2d5844e72c785e13e08

def hashBlock1 : B256 := 0xfe78802e0a50ad08db79d74006928a5fba9ef8cd0ffb4ede2ea5e5540766ec97

def keccakTable : List (Bytes × B256) :=
  [(transfer0, hash0), (transfer1, hash1),
    (capped0, 0x8dd266257c9ba257619c0f21604d60bc81ddd3ee6dca165aee3724345b74bb51),
    (ascii "kanari-evm-genesis".toList, hashGenesis), (header hashGenesis 1 5, hashBlock1),
    (header hashBlock1 2 5, 0xc72ed3ccc0853bc41c5cdfa69a3c1fa2b9c0f2bcd0d177c2c244995410003ac1)]

def keccak256 (bytes : Bytes) : B256 := (keccakTable.lookup bytes).getD (mix bytes)

def smtGet (entries : Finset (Bytes × Bytes)) (key : Bytes) : Option Bytes :=
  let found := entries.filter fun e => e.1 = key
  if found = ∅ then none
  else some (toBeBytes (∑ e ∈ found, e.2.length) (∑ e ∈ found, fromLeBytes e.2.reverse))

/-- Keccak is right on the inputs listed; BLAKE3 and the tree's root are stand-ins that tell
entries apart. -/
def platform : Platform where
  toRevm := Transfer.revm keccak256
  keccak256 := keccak256
  blake3 := fun bytes => toBeBytes 32 (mix bytes).toNat
  smtRoot := fun entries => BitVec.ofNat 256 (∑ e ∈ entries, (mix (e.1 ++ e.2)).toNat)
  smtGet := smtGet
  smtProof := fun entries key => (decide (smtGet entries key ≠ none), mix key, [])
  decode2718Exact := decode2718Exact
  recoverSigner := recoverSigner

/-- The platform with another interpreter, more signed transactions of the account and more digests
that are right. -/
def platformWith (revm : (Bytes → B256) → Revm) (signed : List (Bytes × TxEnvelope))
    (digests : List (Bytes × B256)) : Platform :=
  let keccak := fun bytes => (digests.lookup bytes).getD (keccak256 bytes)
  { platform with
    toRevm := revm keccak
    keccak256 := keccak
    decode2718Exact := fun raw =>
      match signed.lookup raw with
      | some envelope => .ok envelope
      | none => decode2718Exact raw
    recoverSigner := fun envelope =>
      if signed.any fun e => e.2 = envelope then .ok funded else recoverSigner envelope }

def spec : KanariChainSpec := .withAlloc 19088 12 [(funded, 1000000000000000000)]

theorem cacheLaws : platform.toRevm.CacheLaws := Transfer.revm_cacheLaws keccak256

theorem deterministic : platform.toRevm.Deterministic := Transfer.revm_deterministic keccak256

theorem rejectsQuietly : platform.toRevm.RejectsQuietly := Transfer.revm_rejectsQuietly keccak256

theorem burnsBaseFee : platform.toRevm.BurnsBaseFee := Transfer.revm_burnsBaseFee keccak256

theorem spendsGas : platform.toRevm.SpendsGas := Transfer.revm_spendsGas keccak256

theorem nonceLaws : platform.toRevm.NonceLaws := Transfer.revm_nonceLaws keccak256

theorem countsNonces : platform.toRevm.CountsNonces := Transfer.revm_countsNonces keccak256

theorem keepsCode : platform.toRevm.KeepsCode := Transfer.revm_keepsCode keccak256

theorem tracesFaithfully : platform.toRevm.TracesFaithfully :=
  Transfer.revm_tracesFaithfully keccak256

theorem chargesEffectivePrice : platform.toRevm.ChargesEffectivePrice :=
  Transfer.revm_chargesEffectivePrice keccak256

theorem smtGet_of_mem {entries : Finset (Bytes × Bytes)} {key value : Bytes}
    (hunique : ∀ e ∈ entries, ∀ e' ∈ entries, e.1 = e'.1 → e = e')
    (h : (key, value) ∈ entries) : smtGet entries key = some value := by
  have hfound : entries.filter (fun e => e.1 = key) = {(key, value)} := by
    ext e
    rw [Finset.mem_filter, Finset.mem_singleton]
    constructor
    · exact fun he => hunique e he.1 _ h he.2
    · rintro rfl
      exact ⟨h, rfl⟩
  have hvalue : toBeBytes value.length (fromLeBytes value.reverse) = value := by
    rw [toBeBytes, ← List.length_reverse, toLeBytes_fromLeBytes, List.reverse_reverse]
  simp only [smtGet, hfound, Finset.singleton_ne_empty, if_false, Finset.sum_singleton, hvalue]

theorem smtGet_eq_none_iff {entries : Finset (Bytes × Bytes)} {key : Bytes} :
    smtGet entries key = none ↔ ∀ value, (key, value) ∉ entries := by
  simp only [smtGet, ite_eq_left_iff, reduceCtorEq, imp_false, not_not,
    Finset.filter_eq_empty_iff, Prod.forall]
  constructor
  · exact fun h value hmem => h key value hmem rfl
  · rintro h k value hmem rfl
    exact h value hmem

theorem smtExact : platform.SmtExact where
  get {entries} key value hunique := by
    refine ⟨fun hget => ?_, smtGet_of_mem hunique⟩
    have hsome : ¬∀ v, (key, v) ∉ entries := by
      rw [← smtGet_eq_none_iff]
      exact fun hnone => nomatch hnone.symm.trans hget
    obtain ⟨v, hv⟩ := not_forall_not.mp hsome
    have hvalue : some v = some value := (smtGet_of_mem hunique hv).symm.trans hget
    rwa [← Option.some.inj hvalue]
  proof {entries} key := by
    change decide (smtGet entries key ≠ none) = true ↔ _
    rw [decide_eq_true_iff, ne_eq, smtGet_eq_none_iff, not_forall_not]

end KanariEvm.Reference
