import KanariEvm.Platform
import KanariEvm.Store

namespace KanariEvm

/-- Errors from node operations. `overflow` is no value of the source: it stands for the panic of
`block_number() + 1` at the largest block number, after which nothing is returned. -/
inductive NodeError
  | invalidTransaction (msg : String)
  | unsupportedTxType
  | unsupportedBlobTransactions
  | badSignature (msg : String)
  | wrongChainId (tx chain : U64)
  | execution (msg : String)
  | storage (msg : String)
  | noFaucetConfigured
  | overflow
deriving DecidableEq

def StoreError.message : StoreError → String
  | .backend msg => s!"storage error: {msg}"
  | .chainMismatch stored wanted =>
    "chain id mismatch: database holds " ++ toString stored.toNat ++ ", node wants " ++
      toString wanted.toNat

def NodeError.ofStore (e : StoreError) : NodeError := .storage e.message

structure PreparedTx where
  sender : Address
  toAddr : Option Address
  inner : TxEnv
deriving DecidableEq

namespace PreparedTx

/-- The chain id and the `TxEnv` of an envelope, one arm per transaction type. Only the EIP-7702
arm sets `tx_type`. -/
def txEnvOf (sender : Address) : TxEnvelope → Except NodeError (U64 × TxEnv)
  | .legacy tx _ =>
    match tx.chainId with
    | none =>
      .error (.invalidTransaction "unprotected legacy transactions are rejected")
    | some txChainId =>
      .ok (txChainId, {
        caller := sender
        gasLimit := tx.gasLimit
        gasPrice := tx.gasPrice
        kind := tx.toKind
        value := tx.value
        data := tx.input
        nonce := tx.nonce
        chainId := some txChainId
        gasPriorityFee := none
        accessList := [] })
  | .eip2930 tx _ =>
    .ok (tx.chainId, {
      caller := sender
      gasLimit := tx.gasLimit
      gasPrice := tx.gasPrice
      kind := tx.toKind
      value := tx.value
      data := tx.input
      nonce := tx.nonce
      chainId := some tx.chainId
      gasPriorityFee := none
      accessList := tx.accessList })
  | .eip1559 tx _ =>
    -- `tx_type` keeps its default, a legacy transaction
    .ok (tx.chainId, {
      caller := sender
      gasLimit := tx.gasLimit
      gasPrice := tx.maxFeePerGas
      kind := tx.toKind
      value := tx.value
      data := tx.input
      nonce := tx.nonce
      chainId := some tx.chainId
      gasPriorityFee := some tx.maxPriorityFeePerGas
      accessList := tx.accessList })
  | .eip7702 tx _ =>
    .ok (tx.chainId, {
      caller := sender
      gasLimit := tx.gasLimit
      gasPrice := tx.maxFeePerGas
      kind := .call tx.toAddr
      value := tx.value
      data := tx.input
      nonce := tx.nonce
      chainId := some tx.chainId
      gasPriorityFee := some tx.maxPriorityFeePerGas
      accessList := tx.accessList
      txType := 4
      authorizationList := tx.authorizationList })
  | .eip4844 _ => .error .unsupportedBlobTransactions

def decode (P : Platform) (raw : Bytes) (chainId : U64) : Except NodeError PreparedTx := do
  let envelope ← (P.decode2718Exact raw).mapError .invalidTransaction
  let sender ← (P.recoverSigner envelope).mapError .badSignature
  let (txChainId, inner) ← txEnvOf sender envelope
  if txChainId ≠ chainId then
    throw (.wrongChainId txChainId chainId)
  let toAddr := match inner.kind with
    | .call addr => some addr
    | .create => none
  return ⟨sender, toAddr, inner⟩

/-- What is accepted: a decodable envelope with a recoverable signer, of a type the node executes
and for its chain id. -/
theorem decode_ok_iff {P : Platform} {raw : Bytes} {chainId : U64} {prepared : PreparedTx} :
    decode P raw chainId = .ok prepared ↔
      ∃ envelope, P.decode2718Exact raw = .ok envelope ∧
        P.recoverSigner envelope = .ok prepared.sender ∧
        txEnvOf prepared.sender envelope = .ok (chainId, prepared.inner) ∧
        prepared.toAddr = match prepared.inner.kind with
          | .call addr => some addr
          | .create => none := by
  obtain ⟨sender, toAddr, inner⟩ := prepared
  cases he : P.decode2718Exact raw with
  | error e => simp [decode, he, Except.mapError, bind, Except.bind]
  | ok envelope =>
    cases hs : P.recoverSigner envelope with
    | error e => simp [decode, he, hs, Except.mapError, bind, Except.bind]
    | ok signer =>
      cases ht : txEnvOf signer envelope with
      | error e =>
        simp only [decode, he, hs, ht, Except.mapError, bind, Except.bind, reduceCtorEq, false_iff]
        rintro ⟨env, henv, hsigner, htx, -⟩
        cases henv
        rw [hs, Except.ok.injEq] at hsigner
        rw [← hsigner, ht] at htx
        cases htx
      | ok out =>
        obtain ⟨id, env⟩ := out
        simp only [decode, he, hs, ht, Except.mapError, bind, Except.bind, pure, Except.pure]
        constructor
        · intro h
          split_ifs at h with hid
          simp only [Except.ok.injEq, PreparedTx.mk.injEq] at h
          obtain ⟨rfl, rfl, rfl⟩ := h
          rw [ne_eq, Decidable.not_not] at hid
          exact ⟨envelope, rfl, hs, by rw [ht, hid], rfl⟩
        · rintro ⟨_, henv, hsigner, htx, hto⟩
          cases henv
          rw [hs, Except.ok.injEq] at hsigner
          subst hsigner
          simp only [ht, Except.ok.injEq, Prod.mk.injEq] at htx
          obtain ⟨rfl, rfl⟩ := htx
          rw [if_neg (not_not_intro rfl), hto]

end PreparedTx

end KanariEvm
