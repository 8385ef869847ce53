import KanariEvm.CallParams
import KanariEvm.Supply
import KanariEvm.Trace

namespace KanariEvm

/-- `Display` of a node error. The panic that `overflow` stands for has no text. -/
def NodeError.message : NodeError → String
  | .invalidTransaction msg => s!"invalid transaction bytes: {msg}"
  | .unsupportedTxType =>
    "unsupported transaction type (only legacy, EIP-2930, EIP-1559 and EIP-7702 are accepted)"
  | .unsupportedBlobTransactions =>
    "EIP-4844 blob transactions are not supported on this chain: there is no blob mempool or KZG" ++
      " commitment check here. Resubmit as EIP-1559 (type 2) or EIP-7702 (type 4) with the same " ++
      "nonce."
  | .badSignature msg => s!"signature recovery failed: {msg}"
  | .wrongChainId tx chain =>
    "wrong chain id: tx for " ++ toString tx.toNat ++ ", this chain is " ++ toString chain.toNat
  | .execution msg => s!"execution failed: {msg}"
  | .storage msg => s!"storage error: {msg}"
  | .noFaucetConfigured => "no faucet key configured (fresh state creates one automatically)"
  | .overflow => ""

def TraceOutput.toJson (trace : TraceOutput) : Json :=
  .obj [("gas", .quantity trace.gasUsed),
    ("failed", .bool trace.failed),
    ("returnValue", .str trace.returnValue),
    ("structLogs", .arr trace.structLogs)]

def SmtProof.toJson (p : SmtProof) : Json :=
  .obj [("root", .hash p.root),
    ("key", .hash p.key),
    ("value", (p.value.map fun v => .str (hexPrefixed v)).getD .null),
    ("exists", .bool p.isMember),
    ("leaf", .hash p.leaf),
    ("proof", .arr (p.siblings.map .hash))]

def Json.asBool : Json → Option Bool
  | .bool b => some b
  | _ => none

def Json.asU64 : Json → Option U64
  | .num n => if n < 2 ^ 64 then some (BitVec.ofNat 64 n) else none
  | _ => none

namespace Server

inductive Method
  | web3ClientVersion
  | netVersion
  | ethChainId
  | ethBlockNumber
  | ethSyncing
  | netListening
  | ethGetCode
  | ethFeeHistory
  | ethGasPrice
  | ethMaxPriorityFeePerGas
  | ethGetBalance
  | ethGetTransactionCount
  | ethGetStorageAt
  | ethSendRawTransaction
  | ethGetTransactionByHash
  | ethGetTransactionReceipt
  | ethGetLogs
  | ethGetBlockByHash
  | ethGetBlockByNumber
  | ethCall
  | ethEstimateGas
  | debugTraceTransaction
  | debugTraceCall
  | kanariFaucet
  | kanariSupply
  | kanariGetSmtProof
deriving DecidableEq

def methodNames : List (String × Method) :=
  [("web3_clientVersion", .web3ClientVersion),
    ("net_version", .netVersion),
    ("eth_chainId", .ethChainId),
    ("eth_blockNumber", .ethBlockNumber),
    ("eth_syncing", .ethSyncing),
    ("net_listening", .netListening),
    ("eth_getCode", .ethGetCode),
    ("eth_feeHistory", .ethFeeHistory),
    ("eth_gasPrice", .ethGasPrice),
    ("eth_maxPriorityFeePerGas", .ethMaxPriorityFeePerGas),
    ("eth_getBalance", .ethGetBalance),
    ("eth_getTransactionCount", .ethGetTransactionCount),
    ("eth_getStorageAt", .ethGetStorageAt),
    ("eth_sendRawTransaction", .ethSendRawTransaction),
    ("eth_getTransactionByHash", .ethGetTransactionByHash),
    ("eth_getTransactionReceipt", .ethGetTransactionReceipt),
    ("eth_getLogs", .ethGetLogs),
    ("eth_getBlockByHash", .ethGetBlockByHash),
    ("eth_getBlockByNumber", .ethGetBlockByNumber),
    ("eth_call", .ethCall),
    ("eth_estimateGas", .ethEstimateGas),
    ("debug_traceTransaction", .debugTraceTransaction),
    ("debug_traceCall", .debugTraceCall),
    ("kanari_faucet", .kanariFaucet),
    ("kanari_supply", .kanariSupply),
    ("kanari_getSmtProof", .kanariGetSmtProof)]

/-- `params.as_array().cloned().unwrap_or_default()`. -/
def paramList (params : Json) : List Json := params.asArray.getD []

def param (i : ℕ) (params : Json) : Option Json := (paramList params)[i]?

/-- The first parameter; `want` is the message without it. -/
def firstParam (want : String) (params : Json) : Except RpcError Json :=
  match param 0 params with
  | none => .error (.invalidParams want)
  | some v => .ok v

def addressParam (want : String) (params : Json) : Except RpcError Address := do
  let v ← firstParam want params
  (parseAddress v).mapError .invalidParams

def hashParam (want : String) (params : Json) : Except RpcError B256 := do
  let v ← firstParam want params
  (parseHash v).mapError .invalidParams

def flagParam (i : ℕ) (params : Json) : Bool := ((param i params).bind Json.asBool).getD false

/-- `eth_getStorageAt`: address and slot, the error of the address first. -/
def storageParams (params : Json) : Except RpcError (Address × U256) :=
  match param 0 params, param 1 params with
  | some addr, some slot => do
    let a ← (parseAddress addr).mapError .invalidParams
    let s ← (parseU256 slot).mapError .invalidParams
    return (a, s)
  | _, _ => .error (.invalidParams "want [address, slot, block?]")

def rawTxParam (params : Json) : Except RpcError Bytes := do
  let v ← firstParam "want [rawTx]" params
  (parseBytes v).mapError .invalidParams

def blockNumberParam (params : Json) : Except RpcError (Option U64) := do
  let v ← firstParam "want [blockNumber, fullTxs]" params
  match v with
  | .str s =>
    if s = "latest".toList ∨ s = "pending".toList then return none
    else if s = "earliest".toList then return some 0
    else (parseU64 v).map some |>.mapError .invalidParams
  | v => (parseU64 v).map some |>.mapError .invalidParams

def callObject (want : String) (params : Json) : Except RpcError JsonFields := do
  let v ← firstParam want params
  return v.asObject.getD []

def traceParam (i : ℕ) (params : Json) : Except RpcError TraceOptions :=
  match param i params with
  | none => .ok {}
  | some v => (TraceOptions.fromJson v).mapError .invalidParams

/-- `str::parse` of an unsigned integer: decimal digits, after at most one `+`. -/
def fromDecimal (w : ℕ) (s : List Char) : Option (BitVec w) :=
  let digits := match s with
    | '+' :: rest => rest
    | _ => s
  if digits ≠ [] ∧ digits.all Char.isDigit then
    let n := digits.foldl (fun acc c => 10 * acc + (c.toNat - '0'.toNat)) 0
    if n < 2 ^ w then some (BitVec.ofNat w n) else none
  else none

def faucetEth (params : Json) : Except RpcError U128 :=
  match param 1 params with
  | none => .ok 100
  | some .null => .ok 100
  | some v =>
    match (v.asStr.bind (fromDecimal 128)).or (v.asU64.map (·.setWidth 128)) with
    | some n => .ok n
    | none => .error (.invalidParams "ethAmount must be a whole-ETH number or 0x quantity")

def faucetParams (params : Json) : Except RpcError (Address × U256) := do
  let address ← addressParam "want [address, ethAmount?]" params
  let eth ← faucetEth params
  if eth.toNat * weiInEth.toNat < 2 ^ 128 then
    return (address, (eth * weiInEth).setWidth 256)
  else throw (.invalidParams "ethAmount too large")

def smtProofParams (params : Json) : Except RpcError (Address × Option U256) := do
  let address ← addressParam "want [address, slot?]" params
  match param 1 params with
  | none => return (address, none)
  | some .null => return (address, none)
  | some v => do
    let slot ← (parseU256 v).mapError .invalidParams
    return (address, some slot)

/-- What happens outside while a request is served: the wall clock and the backend of a seal. -/
structure RpcIo where
  now : U64
  backend : SealIo

/-- What a request comes to: the node afterwards, and its result or error. -/
abbrev Answer := Outcome (KanariNode × Except RpcError Json)

section Arms

variable (P : Platform) (W : Wallet) (ratio : U64 × U64 → List Char) (io : RpcIo)
  (node : KanariNode)

def view (result : Json) : Answer := .returned (node, .ok result)

/-- An arm that reads its parameters first: their error is the answer. -/
def withParams {α : Type} (parsed : Except RpcError α) (act : α → Answer) : Answer :=
  match parsed with
  | .error e => .returned (node, .error e)
  | .ok a => act a

def answer {α : Type} (render : α → Json) : KanariNode × Except NodeError α → Answer
  | (_, .error .overflow) => .panicked
  | (node, .error e) => .returned (node, .error ⟨-32000, e.message⟩)
  | (node, .ok a) => .returned (node, .ok (render a))

/-- `call_request_from_json` on the object of a call, then the arm's own work. -/
def withCall (want : String) (params : Json) (act : CallRequest → Answer) : Answer :=
  withParams node (callObject want params) fun obj => do
    match ← (callRequestFromJson obj).run with
    | .error e => return (node, .error (.invalidParams e))
    | .ok request => act request

def FeeHistory.toJson (history : FeeHistory) : Json :=
  .obj [("oldestBlock", history.oldestBlock),
    ("baseFeePerGas", .arr history.baseFeePerGas),
    ("gasUsedRatio", .arr (history.gasUsedRatio.map fun r => .real (ratio r))),
    ("reward", .arr (history.reward.map .arr))]

def supplyJson (supply : U256 × U256) : Json :=
  .obj [("totalSupply", .quantity supply.1), ("maxSupply", .quantity supply.2)]

/-- The arm of a method in `dispatch_inner`. -/
def arm (params : Json) : Method → Answer
  | .web3ClientVersion => view node (.text "kanari-evm-node/0.2.8")
  | .netVersion => view node (.text (toString node.spec.chainId.toNat))
  | .ethChainId => view node (.quantity node.spec.chainId)
  | .ethBlockNumber => view node (.quantity node.blockNumber)
  | .ethSyncing => view node (.bool false)
  | .netListening => view node (.bool true)
  | .ethGetCode => withParams node (addressParam "want [address, block]" params) fun a =>
    let (node, code) := node.codeOf P a
    view node (.str (hexPrefixed code))
  | .ethFeeHistory => view node (FeeHistory.toJson ratio (node.feeHistory P params))
  | .ethGasPrice => view node (.quantity ((node.pendingBaseFee P).setWidth 256))
  | .ethMaxPriorityFeePerGas => view node (.quantity ((node.pendingBaseFee P).setWidth 256))
  | .ethGetBalance => withParams node (addressParam "want [address, block]" params) fun a =>
    let (node, balance) := node.balanceOf P a
    view node (.quantity balance)
  | .ethGetTransactionCount =>
    withParams node (addressParam "want [address, block]" params) fun a =>
      let (node, nonce) := node.nonceOf P a
      view node (.quantity nonce)
  | .ethGetStorageAt => withParams node (storageParams params) fun slot =>
    let (node, value) := node.storageOf P slot.1 slot.2
    view node (.str (bytes32Hex value))
  | .ethSendRawTransaction => withParams node (rawTxParam params) fun raw =>
    answer Json.hash (node.sendRawTransaction P raw io.now io.backend)
  | .ethGetTransactionByHash => withParams node (hashParam "want [hash]" params) fun h =>
    view node ((node.txView P h).getD .null)
  | .ethGetTransactionReceipt => withParams node (hashParam "want [hash]" params) fun h =>
    view node ((node.receiptView P h).getD .null)
  | .ethGetLogs => .returned (node, node.getLogs P params)
  | .ethGetBlockByHash => withParams node (hashParam "want [blockHash, fullTxs]" params) fun h =>
    view node ((node.blockViewByHash P h (flagParam 1 params)).getD .null)
  | .ethGetBlockByNumber => withParams node (blockNumberParam params) fun number =>
    view node ((node.blockView P (number.getD node.blockNumber) (flagParam 1 params)).getD .null)
  | .ethCall => withCall node "want [\x7b...\x7d, block]" params fun request =>
    answer (fun out => .str (hexPrefixed out.output)) (node.call P request io.now)
  | .ethEstimateGas => withCall node "want [\x7b...\x7d, block]" params fun request =>
    answer (fun out => .quantity out.gasUsed) (node.call P request io.now)
  | .debugTraceTransaction =>
    withParams node (hashParam "want [txHash, options?]" params) fun h =>
      withParams node (traceParam 1 params) fun opts =>
        answer TraceOutput.toJson (node, node.traceTransaction P h opts)
  | .debugTraceCall =>
    withCall node "want [\x7b...\x7d, block?, options?]" params fun request =>
      withParams node (traceParam 2 params) fun opts =>
        answer TraceOutput.toJson (node.traceCall P request io.now opts)
  | .kanariFaucet => withParams node (faucetParams params) fun asked =>
    answer Json.hash (node.faucet P W asked.1 asked.2 io.now io.backend)
  | .kanariSupply => view node (supplyJson node.supply)
  | .kanariGetSmtProof => withParams node (smtProofParams params) fun asked =>
    view node (node.smtProof P asked.1 asked.2).toJson

end Arms

end Server

end KanariEvm
