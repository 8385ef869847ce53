import KanariEvm.ChainSpec
import KanariEvm.Transaction

namespace KanariEvm

def blockBeneficiary : Address := 0x7985132aa87aD878a1fCb69Fa62b301f4CDe4ccA

/-- The tree of the `smt` crate: what the last `rebuild` put into it. -/
structure SparseMerkleTree where
  entries : Finset (Bytes × Bytes)
deriving DecidableEq

structure DagSender where
  capacity : ℕ
  queue : List (List Bytes)
  closed : Bool
deriving DecidableEq

/-- `try_send`, with the error texts of tokio's channel. -/
def DagSender.trySend (sender : DagSender) (batch : List Bytes) : Except String DagSender :=
  if sender.closed then .error "channel closed"
  else if sender.queue.length < sender.capacity then
    .ok { sender with queue := sender.queue ++ [batch] }
  else .error "no available capacity"

/-- Single-node dev chain with instant sealing. `store` and `smt` are durable, the rest is memory;
the metrics counters are left out. -/
structure KanariNode where
  spec : KanariChainSpec
  db : InMemoryDB
  blocks : List SealedBlock
  receipts : Map B256 StoredReceipt
  store : ChainStore
  smt : SparseMerkleTree
  genesisRoot : B256
  faucetKey : Option B256
  dagSender : Option DagSender
deriving DecidableEq

variable (P : Platform)

def blockHash (parent : B256) (number timestamp : U64) : B256 :=
  P.keccak256 (parent.asSlice ++ toBeBytes 8 number.toNat ++ toBeBytes 8 timestamp.toNat)

/-- Hash reported for the synthetic empty genesis block, the parent hash of block 1. -/
def genesisHash : B256 := P.keccak256 (ascii "kanari-evm-genesis".toList)

def nextParentHash (blocks : List SealedBlock) : B256 :=
  (blocks.getLast?.map (·.hash)).getD (genesisHash P)

namespace KanariNode

variable (node : KanariNode)

def blockNumber : U64 := (node.blocks.getLast?.map (·.number)).getD 0

def blockByNumber (number : U64) : Option SealedBlock :=
  node.blocks.find? fun b => b.number = number

def blockByHash (hash : B256) : Option SealedBlock := node.blocks.find? fun b => b.hash = hash

def txRecord (hash : B256) : Option (Address × Bytes) := do
  let receipt ← node.receipts.lookup hash
  let block ← node.blockByNumber receipt.blockNumber
  let raw ← block.txs.find? fun raw => P.keccak256 raw = hash
  return (receipt.fromAddr, raw)

def txsGasUsed (txs : List Bytes) : U64 :=
  (txs.map fun raw => ((node.receipts.lookup (P.keccak256 raw)).map (·.gasUsed)).getD 0).foldl
    (· + ·) 0

def blockGasUsed (number : U64) : U64 :=
  match node.blockByNumber number with
  | none => 0
  | some block => node.txsGasUsed P block.txs

/-- Base fee (wei) the NEXT sealed block executes under. -/
def pendingBaseFee : U128 :=
  match node.blocks.getLast? with
  | none => node.spec.baseFeeWei
  | some head =>
    Gas.calcNextBaseFee (head.baseFee.setWidth 128) ((node.blockGasUsed P head.number).setWidth 128)
      (Gas.blockGasLimit.setWidth 128)

end KanariNode

end KanariEvm
