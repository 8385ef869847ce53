import KanariEvm.Reads

namespace KanariEvm

open InMemoryDB Journaled

/-- One executed payload: its block number, the database right after it, and its outcome. -/
structure Execution where
  number : U64
  db : InMemoryDB
  prepared : PreparedTx
  result : ExecutionResult

namespace KanariNode

variable {P : Platform} {node : KanariNode}

/-- The step is executed, and the node is about to persist it. -/
structure Runs (P : Platform) (node : KanariNode) (step : SealStep) (x : Execution) : Prop where
  number : node.sealNumber step = some x.number
  executed : node.execute P step x.number = (x.db, .ok (x.prepared, x.result))

def sealedNode (P : Platform) (node : KanariNode) (step : SealStep) (x : Execution) :
    KanariNode :=
  node.afterSeal P step.raw x.number step.timestamp (node.sealFee P) x.db x.prepared x.result

def blockOf (P : Platform) (node : KanariNode) (step : SealStep) (x : Execution) : SealedBlock :=
  node.newBlock P step.raw x.number step.timestamp (node.sealFee P) x.db x.result

def receiptOf (P : Platform) (node : KanariNode) (step : SealStep) (x : Execution) :
    StoredReceipt :=
  node.sealedReceipt P step.raw x.prepared x.result x.number step.timestamp

/-- The same chain, receipts and accounts; zero slots may be cached that were not. -/
structure SameChain (m n : KanariNode) : Prop where
  spec : m.spec = n.spec
  db : SameAccounts m.db n.db
  blocks : m.blocks = n.blocks
  receipts : m.receipts = n.receipts
  store : m.store = n.store

theorem Runs.of_eval {step : SealStep} (number : U64) (prepared : PreparedTx)
    (result : ExecutionResult) (hnumber : node.sealNumber step = some number)
    (hok : (node.execute P step number).2 = .ok (prepared, result)) :
    node.Runs P step ⟨number, (node.execute P step number).1, prepared, result⟩ :=
  ⟨hnumber, Prod.ext rfl hok⟩

theorem Runs.perform {step : SealStep} {x : Execution} (h : node.Runs P step x) (io : SealIo) :
    node.perform P (.attempt step io) = (node.persist P step.raw x.number step.timestamp
      (node.sealFee P) x.db x.prepared x.result io).1 := by
  rw [KanariNode.perform, node.sealStep_of_number P h.number, sealRawWithFee_of_ok h.executed]

theorem Runs.perform_healthy {step : SealStep} {x : Execution} (h : node.Runs P step x) :
    node.perform P (.attempt step .healthy) = node.sealedNode P step x := h.perform .healthy

theorem Runs.final {step : SealStep} {x : Execution} (h : node.Runs P step x) (later : List Op) :
    (nodeMachine P).final node (.attempt step .healthy :: later) =
      (nodeMachine P).final (node.sealedNode P step x) later := by
  rw [(nodeMachine P).final_cons, ← h.perform_healthy]
  rfl

/-- Everything an operation can do: leave chain and accounts alone, execute a payload and lose it
to a backend fault, or seal it. -/
theorem perform_cases (hR : P.toRevm.CacheLaws) (node : KanariNode) (op : Op) :
    SameChain (node.perform P op) node ∨
      (∃ step io x tree, op = .attempt step io ∧ io ≠ .healthy ∧ node.Runs P step x ∧
        node.perform P op = { node.executed P x.db x.result (node.sealFee P) with smt := tree }) ∨
      (∃ step x, op = .attempt step .healthy ∧ node.Runs P step x ∧
        node.perform P op = node.sealedNode P step x) := by
  cases op with
  | read request =>
    left
    rw [KanariNode.perform, serve_eq]
    exact ⟨rfl, Revm.readAll_sameAccounts hR _ _, rfl, rfl, rfl⟩
  | attempt step io =>
    rcases node.sealStep_cases P step io with
      ⟨sender, hash, hs⟩ | ⟨db, e, hs, hwhy⟩ | ⟨number, db, prepared, result, hnum, hex, hs⟩
    · left
      rw [KanariNode.perform, hs]
      exact ⟨rfl, SameAccounts.refl _, rfl, rfl, rfl⟩
    · left
      rw [KanariNode.perform, hs]
      refine ⟨rfl, ?_, rfl, rfl, rfl⟩
      rcases hwhy with ⟨-, rfl⟩ | ⟨number, -, hex⟩
      · exact SameAccounts.refl _
      · exact executeRaw_error_sameAccounts hR hex
    · right
      have hruns : node.Runs P step ⟨number, db, prepared, result⟩ := ⟨hnum, hex⟩
      obtain ⟨rebuild, save⟩ := io
      cases rebuild with
      | some fault => exact .inl ⟨step, _, _, fault.2, rfl, nofun, hruns, hruns.perform _⟩
      | none =>
        cases save with
        | some msg => exact .inl ⟨step, _, _, _, rfl, nofun, hruns, hruns.perform _⟩
        | none => exact .inr ⟨step, _, rfl, hruns, hruns.perform_healthy⟩

end KanariNode

end KanariEvm
