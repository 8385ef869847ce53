import KanariEvm.Reference

namespace KanariEvm.Delegation

open InMemoryDB

/-! The reference platform with one more kind of message: an EIP-7702 transaction whose only
authorization is signed by its own sender. -/

def intrinsicGas : U64 := 46000

/-- What is used in the end: the refund for an authority that exists is capped at a fifth. -/
def gas : U64 := 36800

/-- What the code of an account that delegates looks like. -/
def designator (target : Address) : Bytes := [0xef, 0x01, 0x00] ++ toBeBytes 20 target.toNat

abbrev Authority := SignedAuthorization → Option Address

/-- The checks of revm, for a message of the fragment. The authorization is looked at after the
nonce of the sender was raised. -/
def Accepts (authority : Authority) (db : InMemoryDB) (params : KanariEvmParams) (tx : TxEnv)
    (dest : Address) (auth : SignedAuthorization) : Prop :=
  (tx.txType = 4 ∧ tx.value = 0 ∧ tx.data = [] ∧ tx.accessList = [] ∧
    tx.chainId = some params.chainId) ∧
  (authority auth = some tx.caller ∧ auth.chainId.toNat = params.chainId.toNat ∧
    auth.nonce.toNat = tx.nonce.toNat + 1) ∧
  (tx.caller ≠ dest ∧ tx.caller ≠ params.beneficiary ∧ dest ≠ params.beneficiary) ∧
  ((db.logical tx.caller).code = [] ∧ (db.logical dest).code = [] ∧
    (db.logical params.beneficiary).code = []) ∧
  (intrinsicGas.toNat ≤ tx.gasLimit.toNat ∧ params.basefee.toNat ≤ tx.gasPrice.toNat ∧
    tx.gasPriorityFee = some tx.gasPrice ∧
    tx.gasLimit.toNat * tx.gasPrice.toNat ≤ (db.logical tx.caller).balance.toNat) ∧
  ((db.logical tx.caller).nonce = tx.nonce ∧ tx.nonce.toNat + 2 < 2 ^ 64) ∧
  (db.logical params.beneficiary).balance.toNat +
    gas.toNat * (tx.gasPrice.toNat - params.basefee.toNat) < 2 ^ 256

instance (authority : Authority) (db : InMemoryDB) (params : KanariEvmParams) (tx : TxEnv)
    (dest : Address) (auth : SignedAuthorization) :
    Decidable (Accepts authority db params tx dest auth) := by unfold Accepts; infer_instance

/-- The sender pays, delegates, and moves its nonce twice: once for the transaction and once for
the authorization. -/
def changes (hashSlow : Bytes → B256) (db : InMemoryDB) (params : KanariEvmParams) (tx : TxEnv)
    (dest : Address) (auth : SignedAuthorization) : EvmState :=
  let sender := db.logical tx.caller
  let code := designator auth.address
  let info : AccountInfo :=
    ⟨BitVec.ofNat 256 (sender.balance.toNat - gas.toNat * tx.gasPrice.toNat),
      BitVec.ofNat 64 (tx.nonce.toNat + 2), hashSlow code, some code⟩
  let target := db.logical dest
  let payee := db.logical params.beneficiary
  (((∅ : EvmState).insert tx.caller ⟨info, true, false, false, ∅⟩).insert dest
    (Transfer.touched target.balance.toNat target.nonce.toNat)).insert params.beneficiary
    (Transfer.touched (payee.balance.toNat +
      gas.toNat * (tx.gasPrice.toNat - params.basefee.toNat)) payee.nonce.toNat)

def outcome (hashSlow : Bytes → B256) (authority : Authority) (db : InMemoryDB)
    (params : KanariEvmParams) (tx : TxEnv) : Except String (ExecutionResult × EvmState) :=
  match tx.kind, tx.authorizationList with
  | .call dest, [auth] =>
    if Accepts authority db params tx dest auth then
      .ok (.success gas [] (.call []), changes hashSlow db params tx dest auth)
    else .error (Transfer.rejection db tx)
  | _, _ => Transfer.outcome db params tx

def revm (hashSlow : Bytes → B256) (authority : Authority) : Revm :=
  { Transfer.revm hashSlow with
    outcome := outcome hashSlow authority
    inspect := fun db params tx => (outcome hashSlow authority db params tx).map fun out =>
      (out.1, .ok [Transfer.summaryLine out.1]) }

section Laws

variable (hashSlow : Bytes → B256) (authority : Authority)

theorem revm_cacheLaws : (revm hashSlow authority).CacheLaws :=
  CacheDb.cacheLaws rfl rfl rfl rfl rfl

theorem revm_rejectsQuietly : (revm hashSlow authority).RejectsQuietly :=
  fun db params tx _ _ => Transfer.reads_basic db params tx

theorem outcome_congr {db₁ db₂ : InMemoryDB} (params : KanariEvmParams) (tx : TxEnv)
    (h : db₁.SameLogical db₂) : outcome hashSlow authority db₁ params tx =
      outcome hashSlow authority db₂ params tx := by
  have htransfer := (Transfer.revm_deterministic hashSlow).outcome params tx h
  unfold outcome
  split
  · simp only [Accepts, changes, Transfer.rejection, h _]
  · exact htransfer

theorem revm_deterministic : (revm hashSlow authority).Deterministic where
  outcome params tx h := outcome_congr hashSlow authority params tx h
  reads _ _ _ := rfl
  inspect params tx h := by
    simp only [revm, outcome_congr hashSlow authority params tx h]

end Laws

def authorization : SignedAuthorization where
  chainId := 19088
  address := 0xbeef
  nonce := 1
  yParity := 0
  r := 0x884ee754c71eae0b1d6c46a6fc4cb35975c122e9fae4e284f0b1c7344dc992e2
  s := 0x64a990f0ff785f7c6918dfe921e1696386e2764194d3ad6baac83552668c92fc

/-- The transaction with nonce 0 that carries it, as it goes over the wire. -/
def delegate0 : Bytes :=
  toBeBytes 21 0x04f8cc824a9080843b9aca00843b9aca0082ea6094 ++
  toBeBytes 31 0x000000000000000000000000000000000000dead8080c0f85ef85c824a9094 ++
  toBeBytes 23 0x000000000000000000000000000000000000beef0180a0 ++
  toBeBytes 32 0x884ee754c71eae0b1d6c46a6fc4cb35975c122e9fae4e284f0b1c7344dc992e2 ++
  toBeBytes 33 0xa064a990f0ff785f7c6918dfe921e1696386e2764194d3ad6baac83552668c92fc ++
  toBeBytes 2 0x80a0 ++
  toBeBytes 32 0x6f0321551cedf947926a9be715140b6cf801b626ce428b71d4481fbb66e1231d ++
  toBeBytes 33 0xa0254620fed17aa6c6779dbb5d7c88e7eba5baee70fef4fe90d121b6eb6f5428cc

def envelope : TxEnvelope :=
  .eip7702 {
    chainId := 19088
    nonce := 0
    gasLimit := 60000
    maxFeePerGas := 1000000000
    maxPriorityFeePerGas := 1000000000
    toAddr := Reference.recipient
    value := 0
    accessList := []
    authorizationList := [authorization]
    input := [] } {
    r := 0x6f0321551cedf947926a9be715140b6cf801b626ce428b71d4481fbb66e1231d
    s := 0x254620fed17aa6c6779dbb5d7c88e7eba5baee70fef4fe90d121b6eb6f5428cc
    oddYParity := false }

def authority (auth : SignedAuthorization) : Option Address :=
  if auth = authorization then some Reference.funded else none

def platform : Platform :=
  Reference.platformWith (fun hashSlow => revm hashSlow authority) [(delegate0, envelope)]
    [(delegate0, 0x96b16c65f620f4b3b4194d2e564d02144c08e553f6764f207f6bfad37bcbc61f),
      (designator 0xbeef, 0xf613cfbc304513d0ab3f8d6cafc5a27b8b09034b1c0d9097305679bbf4571844)]

theorem cacheLaws : platform.toRevm.CacheLaws := revm_cacheLaws _ authority

theorem deterministic : platform.toRevm.Deterministic := revm_deterministic _ authority

theorem rejectsQuietly : platform.toRevm.RejectsQuietly := revm_rejectsQuietly _ authority

end KanariEvm.Delegation
