import KanariEvm.State

namespace KanariEvm

variable (P : Platform)

/-- The backend faults a seal can meet after execution: in `smt.rebuild` and in `save_block`. -/
structure SealIo where
  rebuild : SmtFault
  save : Option String
deriving DecidableEq

def SealIo.healthy : SealIo := ⟨none, none⟩

/-- Success flag, gas used, created contract and logs of a result. Reverted logs are discarded. -/
def executionSummary : ExecutionResult → Bool × U64 × Option Address × List StoredLog
  | .success gas logs output =>
    let created := match output with
      | .create _ addr => addr
      | .call _ => none
    (true, gas, created, logs.map fun log => ⟨log.address, log.topics, log.data⟩)
  | .revert gas _ => (false, gas, none, [])
  | .halt gas => (false, gas, none, [])

def transactRaw (db : InMemoryDB) (spec : KanariChainSpec) (prepared : PreparedTx)
    (number timestamp baseFee : U64) : InMemoryDB × Except NodeError ExecutionResult :=
  match P.transact db (KanariNode.evmParams spec number timestamp baseFee) prepared.inner with
  | (db, .error e) => (db, .error (.execution e))
  | (db, .ok (result, state)) => (P.commit db state, .ok result)

/-- The account `credit_beneficiary` starts from when the beneficiary does not exist. -/
def noAccount : AccountInfo := ⟨0, 0, keccakEmpty, none⟩

/-- Credit the base-fee share of a sealed transaction to the block beneficiary. -/
def creditBeneficiary (db : InMemoryDB) (amount : U256) : InMemoryDB :=
  let (found, db) := P.basic db blockBeneficiary
  let info := found.getD noAccount
  P.insertAccountInfo db blockBeneficiary
    { info with balance := saturatingAdd info.balance amount }

namespace KanariNode

variable (node : KanariNode)

def sealedBlock (raw : Bytes) (number timestamp baseFee : U64) (stateRoot : B256) : SealedBlock :=
  let parentHash := nextParentHash P node.blocks
  { number := number
    timestamp := timestamp
    hash := blockHash P parentHash number timestamp
    parentHash := parentHash
    txs := [raw]
    stateRoot := some stateRoot
    baseFee := baseFee }

def sealedReceipt (raw : Bytes) (prepared : PreparedTx) (result : ExecutionResult)
    (number timestamp : U64) : StoredReceipt :=
  let (success, gasUsed, created, logs) := executionSummary result
  { txHash := P.keccak256 raw
    blockNumber := number
    blockHash := blockHash P (nextParentHash P node.blocks) number timestamp
    gasUsed := gasUsed
    success := success
    fromAddr := prepared.sender
    toAddr := prepared.toAddr
    contractAddress := created
    logs := logs }

def settleFees (db : InMemoryDB) (result : ExecutionResult) (baseFee : U64) : InMemoryDB :=
  let burned := Gas.baseFeeShare result.gasUsed (baseFee.setWidth 128)
  if burned = 0 then db else creditBeneficiary P db burned

/-- Decode, execute, commit to revm state, update the SMT commitment and seal a block under an
explicit base fee, persisting it atomically. -/
def sealRawWithFee (raw : Bytes) (number timestamp baseFee : U64) (io : SealIo) :
    KanariNode × Except NodeError B256 :=
  match PreparedTx.decode P raw node.spec.chainId with
  | .error e => (node, .error e)
  | .ok prepared =>
    match transactRaw P node.db node.spec prepared number timestamp baseFee with
    | (db, .error e) => ({ node with db := db }, .error e)
    -- from here on the execution is committed, and an error leaves it behind
    | (db, .ok result) =>
      let executed := { node with db := settleFees P db result baseFee }
      match executed.rebuildSmt P io.rebuild with
      | (rebuilt, .error e) => (rebuilt, .error e)
      | (rebuilt, .ok stateRoot) =>
        let hash := P.keccak256 raw
        let block := node.sealedBlock P raw number timestamp baseFee stateRoot
        let receipt := node.sealedReceipt P raw prepared result number timestamp
        match rebuilt.store.saveBlock block [(hash, receipt)] io.save with
        | .error e => (rebuilt, .error (.ofStore e))
        | .ok store =>
          ({ rebuilt with
              store := store
              blocks := rebuilt.blocks ++ [block]
              receipts := rebuilt.receipts.insert hash receipt }, .ok hash)

/-- Seal under the pending base fee, narrowed to 64 bits. -/
def sealRaw (raw : Bytes) (number timestamp : U64) (io : SealIo) :
    KanariNode × Except NodeError B256 :=
  node.sealRawWithFee P raw number timestamp ((node.pendingBaseFee P).setWidth 64) io

def sealCommitted (raw : Bytes) (timestamp : U64) (io : SealIo) :
    KanariNode × Except NodeError B256 :=
  match checkedSucc node.blockNumber with
  | none => (node, .error .overflow)
  | some number => node.sealRaw P raw number timestamp io

/-- Validate and queue a signed raw transaction: instant seal at wall-clock time `now` in
single-node mode, DAG mempool in validator mode. -/
def sendRawTransaction (raw : Bytes) (now : U64) (io : SealIo) :
    KanariNode × Except NodeError B256 :=
  match node.dagSender with
  | some sender =>
    match sender.trySend [raw] with
    | .error e => (node, .error (.execution s!"dag mempool full: {e}"))
    | .ok sender => ({ node with dagSender := some sender }, .ok (P.keccak256 raw))
  | none =>
    match checkedSucc node.blockNumber with
    | none => (node, .error .overflow)
    | some number => node.sealRaw P raw number now io

/-- One transaction of `replay_blocks`: re-seal it, then compare hash and state root. -/
def replayTx (block : SealedBlock) (raw : Bytes) : KanariNode × Except NodeError Unit :=
  match node.sealRawWithFee P raw block.number block.timestamp block.baseFee .healthy with
  | (node, .error e) => (node, .error e)
  | (node, .ok _) =>
    match node.blocks.getLast? with
    -- `expect("just sealed")`: a successful seal has pushed a block
    | none => (node, .ok ())
    | some sealed =>
      if sealed.hash ≠ block.hash then
        (node, .error (.storage ("replay diverged at block " ++ toString block.number.toNat)))
      else if block.stateRoot.isSome ∧ sealed.stateRoot ≠ block.stateRoot then
        (node, .error (.storage ("state root mismatch at block " ++ toString block.number.toNat)))
      else (node, .ok ())

def replayTxs (block : SealedBlock) : KanariNode → List Bytes → KanariNode × Except NodeError Unit
  | node, [] => (node, .ok ())
  | node, raw :: rest =>
    match node.replayTx P block raw with
    | (node, .error e) => (node, .error e)
    | (node, .ok ()) => replayTxs block node rest

def replayBlocks : KanariNode → List SealedBlock → KanariNode × Except NodeError Unit
  | node, [] => (node, .ok ())
  | node, block :: rest =>
    match replayTxs P block node block.txs with
    | (node, .error e) => (node, .error e)
    | (node, .ok ()) => replayBlocks node rest

end KanariNode

end KanariEvm
