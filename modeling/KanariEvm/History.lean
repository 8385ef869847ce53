import KanariEvm.Nonces
import KanariEvm.Opening
import KanariEvm.Operations

namespace KanariEvm

open InMemoryDB Journaled

namespace KanariNode

variable {P : Platform} {node : KanariNode}

variable (hR : P.toRevm.CacheLaws)

include hR

theorem Recorded.perform {spec : KanariChainSpec} (h : node.Recorded spec) (op : Op) :
    (node.perform P op).Recorded spec := by
  rcases perform_cases hR node op with
    hsame | ⟨step, io, x, tree, -, -, -, hp⟩ | ⟨step, x, -, hruns, hp⟩
  · refine ⟨hsame.spec.trans h.sameSpec, ?_, ?_, ?_, ?_⟩
    · rw [hsame.store, hsame.blocks]
      exact h.store
    · simpa only [hsame.blocks] using h.numbers
    · rw [hsame.blocks]
      exact h.single
    · rw [hsame.store, hsame.receipts]
      exact h.receipts
  · rw [hp]
    exact ⟨h.sameSpec, h.store, h.numbers, h.single, h.receipts⟩
  · rw [hp]
    exact h.afterSeal (node.checkedSucc_of_sealNumber hruns.number) _ _ _ _ _ _

theorem blocks_final (node : KanariNode) (ops : List Op) :
    node.blocks <+: ((nodeMachine P).final node ops).blocks := by
  apply (nodeMachine P).final_induction (p := fun n => node.blocks <+: n.blocks)
  · intro n op hn
    change node.blocks <+: (n.perform P op).blocks
    rcases perform_cases hR n op with
      hsame | ⟨step, io, x, tree, -, -, -, hp⟩ | ⟨step, x, -, -, hp⟩
    · rw [hsame.blocks]
      exact hn
    · rw [hp]
      exact hn
    · rw [hp]
      exact hn.trans (List.prefix_append _ _)
  · exact List.prefix_refl _

theorem recorded_final (spec : KanariChainSpec) (ops : List Op) :
    ((nodeMachine P).final (created P spec) ops).Recorded spec :=
  (nodeMachine P).final_induction (fun _ op h => h.perform hR op) (created_recorded spec) ops

omit hR in
/-- Block numbers are distinct, so a lookup by number finds the block. -/
theorem Recorded.blockByNumber_of_mem {spec : KanariChainSpec} (h : node.Recorded spec)
    {block : SealedBlock} (hmem : block ∈ node.blocks) :
    node.blockByNumber block.number = some block := by
  obtain ⟨i, hi, rfl⟩ := List.mem_iff_getElem.mp hmem
  rw [blockByNumber, List.find?_eq_some_iff_getElem]
  refine ⟨by simp, i, hi, rfl, fun j hj => ?_⟩
  have hnum := h.numbers i hi
  have hnum' := h.numbers j (hj.trans hi)
  have hne : node.blocks[j].number ≠ node.blocks[i].number := by
    intro heq
    rw [heq] at hnum'
    omega
  simpa using hne

end KanariNode

/-- No payload of the operations other than `raw` itself has its hash. -/
def NoCollision (P : Platform) (raw : Bytes) (ops : List Op) : Prop :=
  ∀ step ∈ ops.filterMap Op.sealStep?, P.keccak256 step.raw = P.keccak256 raw → step.raw = raw

instance (P : Platform) (raw : Bytes) (ops : List Op) : Decidable (NoCollision P raw ops) := by
  unfold NoCollision; infer_instance

theorem NoCollision.of_subset {P : Platform} {raw : Bytes} {ops ops' : List Op}
    (h : NoCollision P raw ops) (hsub : ops' ⊆ ops) : NoCollision P raw ops' := by
  intro step hs
  obtain ⟨op, hop, hstep⟩ := List.mem_filterMap.mp hs
  exact h step (List.mem_filterMap.mpr ⟨op, hsub hop, hstep⟩)

namespace KanariNode

/-- A transaction in the chain: block and receipt are there, and its nonce is used up. -/
structure Holds (P : Platform) (node : KanariNode) (raw : Bytes) (prepared : PreparedTx)
    (block : SealedBlock) (receipt : StoredReceipt) : Prop where
  decoded : PreparedTx.decode P raw node.spec.chainId = .ok prepared
  spent : node.db.Spent prepared.inner
  block : block ∈ node.blocks
  receipt : node.receipts.lookup (P.keccak256 raw) = some receipt

variable {P : Platform} {node : KanariNode} (hR : P.toRevm.CacheLaws) (hn : P.toRevm.NonceLaws)

include hR hn

theorem Runs.holds {step : SealStep} {x : Execution} (h : node.Runs P step x) :
    (node.sealedNode P step x).Holds P step.raw x.prepared (node.blockOf P step x)
      (node.receiptOf P step x) := by
  obtain ⟨hdecode, htx⟩ := executeRaw_ok_iff.mp h.executed
  refine ⟨hdecode, settleFees_spent hR (spent_of_transactRaw hn htx) _ _, ?_, ?_⟩
  · exact List.mem_append_right _ (List.mem_singleton_self _)
  · exact Finmap.lookup_insert _

/-- No later operation takes the transaction out of the chain or seals it again. -/
theorem Holds.perform {raw : Bytes} {prepared : PreparedTx} {block : SealedBlock}
    {receipt : StoredReceipt} (h : node.Holds P raw prepared block receipt) {op : Op}
    (hop : NoCollision P raw [op]) : (node.perform P op).Holds P raw prepared block receipt := by
  rcases perform_cases hR node op with
    hsame | ⟨step, io, x, tree, -, -, hruns, hp⟩ | ⟨step, x, hop', hruns, hp⟩
  · refine ⟨by rw [hsame.spec]; exact h.decoded, hsame.db.spent h.spent, ?_, ?_⟩
    · rw [hsame.blocks]
      exact h.block
    · rw [hsame.receipts]
      exact h.receipt
  · obtain ⟨-, htx⟩ := executeRaw_ok_iff.mp hruns.executed
    rw [hp]
    exact ⟨h.decoded, settleFees_spent hR (h.spent.transactRaw hn htx) _ _, h.block, h.receipt⟩
  · obtain ⟨hdecode, htx⟩ := executeRaw_ok_iff.mp hruns.executed
    -- under the same hash it would be the same payload, whose nonce is used up
    have hne : P.keccak256 raw ≠ P.keccak256 step.raw := by
      intro heq
      have hraw := hop step (by simp [hop', Op.sealStep?]) heq.symm
      rw [hraw, h.decoded, Except.ok.injEq] at hdecode
      exact (hdecode ▸ h.spent).not_executed hn htx
    rw [hp]
    refine ⟨h.decoded, settleFees_spent hR (h.spent.transactRaw hn htx) _ _, ?_, ?_⟩
    · exact List.mem_append_left _ h.block
    · exact (Finmap.lookup_insert_of_ne _ hne).trans h.receipt

theorem Holds.final {raw : Bytes} {prepared : PreparedTx} {block : SealedBlock}
    {receipt : StoredReceipt} (h : node.Holds P raw prepared block receipt) {ops : List Op}
    (hops : NoCollision P raw ops) :
    ((nodeMachine P).final node ops).Holds P raw prepared block receipt := by
  induction ops generalizing node with
  | nil => exact h
  | cons op rest ih =>
    have hone : NoCollision P raw [op] := hops.of_subset (by simp)
    exact ih (h.perform hR hn hone) (hops.of_subset (List.subset_cons_self op rest))

omit hR hn

theorem receiptOf_blockNumber (step : SealStep) (x : Execution) :
    (node.receiptOf P step x).blockNumber = x.number := rfl

theorem receiptOf_gasUsed (step : SealStep) (x : Execution) :
    (node.receiptOf P step x).gasUsed = x.result.gasUsed := by
  simp only [receiptOf, sealedReceipt]
  cases x.result <;> rfl

section Lookup

variable {chain : KanariNode} {spec : KanariChainSpec} {step : SealStep} {x : Execution}
  (h : chain.Holds P step.raw x.prepared (node.blockOf P step x) (node.receiptOf P step x))
  (hrec : chain.Recorded spec)

include h hrec

theorem Holds.blockByNumber : chain.blockByNumber x.number = some (node.blockOf P step x) :=
  hrec.blockByNumber_of_mem h.block

theorem Holds.txRecord : chain.txRecord P (P.keccak256 step.raw) =
    some (x.prepared.sender, step.raw) := by
  have hfind : (node.blockOf P step x).txs.find?
      (fun raw => P.keccak256 raw = P.keccak256 step.raw) = some step.raw := by
    simp [blockOf, newBlock, sealedBlock]
  simp only [KanariNode.txRecord, h.receipt, Option.bind_eq_bind, Option.bind_some,
    receiptOf_blockNumber, h.blockByNumber hrec, hfind]
  rfl

end Lookup

end KanariNode

end KanariEvm
