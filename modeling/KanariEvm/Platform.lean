import KanariEvm.Revm

namespace KanariEvm

structure TxLegacy where
  chainId : Option U64
  nonce : U64
  gasPrice : U128
  gasLimit : U64
  toKind : TxKind
  value : U256
  input : Bytes
deriving DecidableEq

structure TxEip2930 where
  chainId : U64
  nonce : U64
  gasPrice : U128
  gasLimit : U64
  toKind : TxKind
  value : U256
  accessList : AccessList
  input : Bytes
deriving DecidableEq

structure TxEip1559 where
  chainId : U64
  nonce : U64
  gasLimit : U64
  maxFeePerGas : U128
  maxPriorityFeePerGas : U128
  toKind : TxKind
  value : U256
  accessList : AccessList
  input : Bytes
deriving DecidableEq

structure TxEip7702 where
  chainId : U64
  nonce : U64
  gasLimit : U64
  maxFeePerGas : U128
  maxPriorityFeePerGas : U128
  toAddr : Address
  value : U256
  accessList : AccessList
  authorizationList : List SignedAuthorization
  input : Bytes
deriving DecidableEq

structure Signature where
  r : U256
  s : U256
  oddYParity : Bool
deriving DecidableEq

/-- A decoded envelope. The node refuses blob transactions unread, so nothing of them is kept. -/
inductive TxEnvelope
  | legacy (tx : TxLegacy) (sig : Signature)
  | eip2930 (tx : TxEip2930) (sig : Signature)
  | eip1559 (tx : TxEip1559) (sig : Signature)
  | eip4844 (sig : Signature)
  | eip7702 (tx : TxEip7702) (sig : Signature)
deriving DecidableEq

/-- The crates outside the workspace: revm, alloy, the two hashes and the `smt` crate, whose root
is a function of the set of entries given to `rebuild`. -/
structure Platform extends Revm where
  keccak256 : Bytes → B256
  blake3 : Bytes → Bytes
  smtRoot : Finset (Bytes × Bytes) → B256
  smtGet : Finset (Bytes × Bytes) → Bytes → Option Bytes
  smtProof : Finset (Bytes × Bytes) → Bytes → Bool × B256 × List B256
  decode2718Exact : Bytes → Except String TxEnvelope
  recoverSigner : TxEnvelope → Except String Address

end KanariEvm
