import KanariEvm.Seal

namespace KanariEvm

variable (P : Platform)

/-- `Address::to_string`: the EIP-55 checksum, whose capitals follow the hash of the digits. -/
def addressString (a : Address) : List Char :=
  let digits := hexEncode (addressBytes a)
  let hash := P.keccak256 (ascii digits)
  '0' :: 'x' :: digits.mapIdx fun i c =>
    if 8 ≤ hash.toNat / 16 ^ (63 - i) % 16 then c.toUpper else c

def hashString (h : B256) : List Char := hexPrefixed h.asSlice

def Json.text (s : String) : Json := .str s.toList

def Json.quantity {w : ℕ} (v : BitVec w) : Json := .str (KanariEvm.quantity v)

def Json.hash (h : B256) : Json := .str (hashString h)

def Json.address (a : Address) : Json := .str (addressString P a)

def Json.addressOrNull (a : Option Address) : Json := (a.map (Json.address P)).getD .null

def emptyBloom : Json := .str ('0' :: 'x' :: List.replicate 512 '0')

structure SealedLog where
  blockNumber : U64
  blockHash : B256
  txHash : B256
  logIndex : U64
  address : Address
  topics : List B256
  data : Bytes
deriving DecidableEq

def renderSealedLog (log : SealedLog) : Json :=
  .obj [("removed", .bool false),
    ("logIndex", .quantity log.logIndex),
    ("transactionIndex", .text "0x0"),
    ("transactionHash", .hash log.txHash),
    ("blockNumber", .quantity log.blockNumber),
    ("blockHash", .hash log.blockHash),
    ("address", .address P log.address),
    ("data", .str (hexPrefixed log.data)),
    ("topics", .arr (log.topics.map .hash))]

structure TxView where
  nonce : U64
  gasLimit : U64
  effectiveGasPrice : U256
  toAddr : Option Address
  value : U256
  input : Bytes
  txType : U8
  chainId : U64
deriving DecidableEq

def TxKind.recipient : TxKind → Option Address
  | .call addr => some addr
  | .create => none

def viewOf (baseFeeWei : U128) : TxEnvelope → Option TxView
  | .legacy tx _ => do
    return {
      nonce := tx.nonce
      gasLimit := tx.gasLimit
      effectiveGasPrice := tx.gasPrice.setWidth 256
      toAddr := tx.toKind.recipient
      value := tx.value
      input := tx.input
      txType := 0
      chainId := ← tx.chainId }
  | .eip2930 tx _ =>
    some {
      nonce := tx.nonce
      gasLimit := tx.gasLimit
      effectiveGasPrice := tx.gasPrice.setWidth 256
      toAddr := tx.toKind.recipient
      value := tx.value
      input := tx.input
      txType := 1
      chainId := tx.chainId }
  | .eip1559 tx _ =>
    let effective := Gas.effectiveGasPrice tx.maxFeePerGas baseFeeWei tx.maxPriorityFeePerGas
    some {
      nonce := tx.nonce
      gasLimit := tx.gasLimit
      effectiveGasPrice := effective.setWidth 256
      toAddr := tx.toKind.recipient
      value := tx.value
      input := tx.input
      txType := 2
      chainId := tx.chainId }
  | .eip7702 tx _ =>
    let effective := Gas.effectiveGasPrice tx.maxFeePerGas baseFeeWei tx.maxPriorityFeePerGas
    some {
      nonce := tx.nonce
      gasLimit := tx.gasLimit
      effectiveGasPrice := effective.setWidth 256
      toAddr := some tx.toAddr
      value := tx.value
      input := tx.input
      txType := 4
      chainId := tx.chainId }
  | .eip4844 _ => none

def decodeTxView (raw : Bytes) (baseFeeWei : U128) : Option TxView :=
  (P.decode2718Exact raw).toOption.bind (viewOf baseFeeWei)

def emptyBlockView (number : U64) (hash parentHash : B256) (timestamp : U64) (stateRoot : B256)
    (baseFeeWei : U128) : Json :=
  .obj [("number", .quantity number),
    ("hash", .hash hash),
    ("parentHash", .hash parentHash),
    ("nonce", .text "0x0000000000000000"),
    ("sha3Uncles", .text "0x1dcc4de8dec75d7aab85b567b6ccd41ad312451b948a741f0a22ef665e9a5c"),
    ("logsBloom", emptyBloom),
    ("transactionsRoot",
      .text "0x56e81f171bcc55a6ff8345e692c0f86e5b48e01b996cadc001622fb5e363b421"),
    ("stateRoot", .hash stateRoot),
    ("receiptsRoot", .text "0x56e81f171bcc55a6ff8345e692c0f86e5b48e01b996cadc001622fb5e363b421"),
    ("miner", .address P blockBeneficiary),
    ("difficulty", .text "0x0"),
    ("totalDifficulty", .text "0x0"),
    ("gasLimit", .quantity Gas.blockGasLimit),
    ("gasUsed", .text "0x0"),
    ("timestamp", .quantity timestamp),
    ("extraData", .text "0x"),
    ("mixHash", .hash 0),
    ("baseFeePerGas", .quantity (baseFeeWei.setWidth 256)),
    ("transactions", .arr []),
    ("uncles", .arr [])]

namespace KanariNode

variable (node : KanariNode)

/-- The base fee a receipt's block was sealed under, the spec's when the block is missing. -/
def receiptBaseFee (receipt : StoredReceipt) : U128 :=
  ((node.blockByNumber receipt.blockNumber).map fun b => b.baseFee.setWidth 128).getD
    node.spec.baseFeeWei

def txView (hash : B256) : Option Json := do
  let receipt ← node.receipts.lookup hash
  let (sender, raw) ← node.txRecord P hash
  let view ← decodeTxView P raw (node.receiptBaseFee receipt)
  return .obj [("hash", .hash hash),
    ("nonce", .quantity view.nonce),
    ("blockHash", .hash receipt.blockHash),
    ("blockNumber", .quantity receipt.blockNumber),
    ("transactionIndex", .text "0x0"),
    ("from", .address P sender),
    ("to", .addressOrNull P view.toAddr),
    ("value", .quantity view.value),
    ("gasPrice", .quantity view.effectiveGasPrice),
    ("gas", .quantity view.gasLimit),
    ("input", .str (hexPrefixed view.input)),
    ("type", .quantity (view.txType.setWidth 64)),
    ("chainId", .quantity view.chainId)]

/-- The logs of a receipt at their chain position. -/
def receiptLogs (r : StoredReceipt) (blockNumber : U64) (blockHash txHash : B256) :
    List SealedLog :=
  r.logs.mapIdx fun i log =>
    { blockNumber := blockNumber
      blockHash := blockHash
      txHash := txHash
      logIndex := BitVec.ofNat 64 i
      address := log.address
      topics := log.topics
      data := log.data }

/-- Standard `eth_getTransactionReceipt` view. Type and price come from the sealed bytes when they
decode, else it is rendered as EIP-1559 at the base fee. -/
def receiptView (hash : B256) : Option Json := do
  let r ← node.receipts.lookup hash
  let baseFee := node.receiptBaseFee r
  let (txType, effective) : U64 × U256 :=
    (((node.txRecord P hash).bind fun record => decodeTxView P record.2 baseFee).map fun v =>
      (v.txType.setWidth 64, v.effectiveGasPrice)).getD (2, baseFee.setWidth 256)
  return .obj [("transactionHash", .hash r.txHash),
    ("transactionIndex", .text "0x0"),
    ("blockNumber", .quantity r.blockNumber),
    ("blockHash", .hash r.blockHash),
    ("from", .address P r.fromAddr),
    ("to", .addressOrNull P r.toAddr),
    ("contractAddress", .addressOrNull P r.contractAddress),
    ("cumulativeGasUsed", .quantity r.gasUsed),
    ("gasUsed", .quantity r.gasUsed),
    ("effectiveGasPrice", .quantity effective),
    ("status", .text (if r.success then "0x1" else "0x0")),
    ("type", .quantity txType),
    ("logs", .arr ((receiptLogs r r.blockNumber r.blockHash r.txHash).map (renderSealedLog P))),
    ("logsBloom", emptyBloom)]

/-- All sealed logs in `[first, last]` (block numbers, inclusive), in chain order. -/
def logsInRange (first last : U64) : List SealedLog :=
  (List.range' first.toNat (last.toNat + 1 - first.toNat)).flatMap fun number =>
    match node.blockByNumber (BitVec.ofNat 64 number) with
    | none => []
    | some block => block.txs.flatMap fun raw =>
      let hash := P.keccak256 raw
      match node.receipts.lookup hash with
      | none => []
      | some receipt => receiptLogs receipt block.number block.hash hash

def genesisView : Json :=
  emptyBlockView P 0 (genesisHash P) 0 0 node.genesisRoot node.spec.baseFeeWei

/-- Minimal `eth_getBlockByNumber` view; block 0 is a synthetic empty genesis view. -/
def blockView (number : U64) (fullTxs : Bool) : Option Json :=
  if number = 0 ∧ (node.blockByNumber 0).isNone then some (node.genesisView P)
  else do
    let block ← node.blockByNumber number
    let txs := block.txs.map fun raw =>
      if fullTxs then (node.txView P (P.keccak256 raw)).getD .null
      else .hash (P.keccak256 raw)
    return .obj [("number", .quantity block.number),
      ("hash", .hash block.hash),
      ("parentHash", .hash block.parentHash),
      ("nonce", .text "0x0000000000000000"),
      ("sha3Uncles", .text "0x1dcc4de8dec75d7aab85b567b6ccd41ad312451b948a741f0a22ef665e9a5c"),
      ("logsBloom", emptyBloom),
      ("transactionsRoot",
        .text "0x56e81f171bcc55a6ff8345e692c0f86e5b48e01b996cadc001622fb5e363b421"),
      ("stateRoot", .hash (block.stateRoot.getD 0)),
      ("receiptsRoot",
        .text "0x56e81f171bcc55a6ff8345e692c0f86e5b48e01b996cadc001622fb5e363b421"),
      ("miner", .address P blockBeneficiary),
      ("difficulty", .text "0x0"),
      ("totalDifficulty", .text "0x0"),
      ("gasLimit", .quantity Gas.blockGasLimit),
      ("gasUsed", .quantity (node.txsGasUsed P block.txs)),
      ("timestamp", .quantity block.timestamp),
      ("extraData", .text "0x"),
      ("mixHash", .hash 0),
      ("baseFeePerGas", .quantity (block.baseFee.setWidth 256)),
      ("transactions", .arr txs),
      ("uncles", .arr [])]

def blockViewByHash (hash : B256) (fullTxs : Bool) : Option Json :=
  if hash = genesisHash P ∧ (node.blockByNumber 0).isNone then some (node.genesisView P)
  else (node.blockByHash hash).bind fun block => node.blockView P block.number fullTxs

end KanariNode

end KanariEvm
