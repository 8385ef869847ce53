import KanariEvm.HexDecode
import KanariEvm.Seal

namespace KanariEvm

variable (P : Platform)

structure TraceOptions where
  disableStack : Bool := false
  disableMemory : Bool := false
deriving DecidableEq

def TraceOptions.fromJson (v : Json) : Except String TraceOptions := do
  let flag (key : String) : Except String Bool :=
    match v.get key with
    | none => .ok false
    | some .null => .ok false
    | some (.bool b) => .ok b
    | some _ => .error (key ++ " must be a boolean")
  return ⟨← flag "disableStack", ← flag "disableMemory"⟩

structure TraceOutput where
  gasUsed : U64
  failed : Bool
  returnValue : List Char
  structLogs : List Json

def droppedStepFields : List String :=
  ["reservoir", "stateGas", "refund", "memSize", "returnData", "returnStack", "storage"]

/-- Map one EIP-3155 step line to a Geth struct-log entry. Only objects have a `pc`, so the
`expect` of the source holds. -/
def mapStep (opts : TraceOptions) : Json → Json
  | .obj fields =>
    let renamed := match fields.lookup "opName" with
      | some op => Json.insert (Json.erase fields "opName") "op" op
      | none => fields
    let kept := droppedStepFields.foldl Json.erase renamed
    let kept := if opts.disableStack then Json.erase kept "stack" else kept
    .obj (if opts.disableMemory then Json.erase kept "memory" else kept)
  | step => step

def isStep (line : Json) : Bool := (line.get "pc").isSome

/-- The gas of the tracer's summary line, if there is one that parses. -/
def summaryGas (lines : List Json) : Option U64 := do
  let summary ← (lines.filter fun line => !isStep line).getLast?
  let text ← (← summary.get "gasUsed").asStr
  fromStrRadix16 64 (utf8 (trimStart0x text))

def traceSummary : ExecutionResult → Bool × U64 × Bytes
  | .success gas _ output => (false, gas, output.intoData)
  | .revert gas output => (true, gas, output)
  | .halt gas => (true, gas, [])

/-- The trace built from a result and the tracer's lines; the summary's gas is preferred. -/
def traceOutput (opts : TraceOptions) (result : ExecutionResult) (lines : List Json) :
    TraceOutput :=
  let (failed, gasUsed, returnValue) := traceSummary result
  { gasUsed := (summaryGas lines).getD gasUsed
    failed := failed
    returnValue := hexPrefixed returnValue
    structLogs := (lines.filter isStep).map (mapStep opts) }

/-- Run one transaction under the EIP-3155 tracer. The execution is the one `transact` runs, so
it reads the same accounts and slots; nothing is committed. -/
def traceIn (db : InMemoryDB) (spec : KanariChainSpec) (tx : TxEnv)
    (number timestamp baseFee : U64) (opts : TraceOptions) :
    InMemoryDB × Except NodeError TraceOutput :=
  let params := KanariNode.evmParams spec number timestamp baseFee
  let read := P.readAll db (P.reads db params tx)
  match P.inspect db params tx with
  | .error e => (read, .error (.execution e))
  | .ok (_, .error e) => (read, .error (.execution s!"bad tracer line: {e}"))
  | .ok (result, .ok lines) => (read, .ok (traceOutput opts result lines))

/-- Re-execution of the transactions of one earlier block on a scratch database. -/
def replayPrior (spec : KanariChainSpec) (block : SealedBlock) :
    InMemoryDB → List Bytes → Except NodeError InMemoryDB
  | db, [] => .ok db
  | db, raw :: rest =>
    match PreparedTx.decode P raw spec.chainId with
    | .error e => .error e
    | .ok prepared =>
      -- `transact_raw` alone: the credit of `seal_raw_with_fee` is not repeated here
      match transactRaw P db spec prepared block.number block.timestamp block.baseFee with
      | (_, .error e) => .error e
      | (db, .ok _) => replayPrior spec block db rest

/-- The scratch database after the earlier blocks, each re-executed in its stored block env. -/
def replayPriors (spec : KanariChainSpec) :
    InMemoryDB → List SealedBlock → Except NodeError InMemoryDB
  | db, [] => .ok db
  | db, block :: rest =>
    match replayPrior P spec block db block.txs with
    | .error e => .error e
    | .ok db => replayPriors spec db rest

namespace KanariNode

variable (node : KanariNode)

def scratch (number : U64) : Except NodeError InMemoryDB :=
  replayPriors P node.spec (node.spec.applyGenesis P .empty)
    (node.blocks.filter fun b => b.number.toNat < number.toNat)

def traceTransaction (hash : B256) (opts : TraceOptions) : Except NodeError TraceOutput :=
  match node.receipts.lookup hash with
  | none =>
    .error (.invalidTransaction
      ("unknown transaction " ++ String.ofList (hexPrefixed hash.asSlice)))
  | some receipt =>
    match node.blockByNumber receipt.blockNumber with
    | none =>
      .error (.storage ("missing block " ++ toString receipt.blockNumber.toNat))
    | some block =>
      match node.txRecord P hash with
      | none =>
        .error (.storage ("missing raw tx " ++ String.ofList (hexPrefixed hash.asSlice)))
      | some (_, raw) => do
        let prepared ← PreparedTx.decode P raw node.spec.chainId
        let scratch ← node.scratch P receipt.blockNumber
        (traceIn P scratch node.spec prepared.inner receipt.blockNumber block.timestamp
          block.baseFee opts).2

def traceCall (request : CallRequest) (now : U64) (opts : TraceOptions) :
    KanariNode × Except NodeError TraceOutput :=
  let (node, tx) := node.callTx P request
  let (db, out) := traceIn P node.db node.spec tx node.blockNumber now
    ((node.pendingBaseFee P).setWidth 64) opts
  ({ node with db := db }, out)

end KanariNode

end KanariEvm
